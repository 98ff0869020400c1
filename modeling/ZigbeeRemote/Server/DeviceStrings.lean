import ZigbeeRemote.Foundation.BufferWrites
import ZigbeeRemote.Server.SensorReadings

/-!
# The strings of the Basic cluster

`copy_zcl_string` on memory, and `zigbee_read_basic` on a request that is accepted and answered in
time, for every answer. A ZCL string is a length byte and the bytes of the text; the length byte is
whatever the device sent.

`copyZclStringTouches` is `copy_zcl_string` as the cells it reads and the writes it makes.
`copyZclString_touches` bounds both for every size of the destination, and `window_copyZclString`
says that the writes leave what `copyZclString` says. `intact_copyZclString` is what that is for the
two fields of `zigbee_basic_t`: the text as far as it fits, and zeros.
-/

set_option autoImplicit false
set_option relaxedAutoImplicit false

namespace ZigbeeRemote.Server.ZigbeeStack

open Foundation Zigbee

/-! ### `copy_zcl_string` on memory -/

section Memory

/-- The variable `length` of `copy_zcl_string` after the comparison, which cuts it to a byte. -/
def copyLength (dstSize : ℕ) (first : UInt8) : UInt8 :=
  if dstSize ≤ first.toNat then UInt8.ofNat (dstSize - 1) else first

/-- What a function does to memory: the offsets it reads at, from the start of its source, and its
writes to its destination. -/
structure Touches where
  loads : List ℕ
  stores : List (Store UInt8)

/-- `copy_zcl_string`, with the memory from `zcl` on unless that is null. -/
def copyZclStringTouches (dstSize : ℕ) (zcl : Option (ℕ → UInt8)) : Touches :=
  if dstSize = 0 then ⟨[], []⟩
  else
    let cleared := storeAt 0 (List.replicate dstSize 0)
    match zcl with
    | none => ⟨[], cleared⟩
    | some source =>
      let offsets := (List.range (copyLength dstSize (source 0)).toNat).map (1 + ·)
      ⟨0 :: offsets, cleared ++ storeAt 0 (offsets.map source)⟩

variable {dstSize : ℕ}

/-- The cut does not lose anything: a size that a byte can reach fits into a byte. -/
theorem toNat_copyLength (hsize : 1 ≤ dstSize) (first : UInt8) :
    (copyLength dstSize first).toNat = min first.toNat (dstSize - 1) := by
  unfold copyLength
  split_ifs with hcut
  · have hbyte : dstSize - 1 < 2 ^ 8 := by
      have hfirst := first.toNat_lt
      omega
    rw [UInt8.toNat_ofNat_of_lt' hbyte]
    omega
  · omega

/-- `copy_zcl_string` writes inside its destination, and reads the length byte and no more of the
text than it copies. Assumes: the destination has at least one byte. -/
theorem copyZclString_touches (hsize : 1 ≤ dstSize) (zcl : Option (ℕ → UInt8)) :
    Within dstSize (copyZclStringTouches dstSize zcl).stores ∧
      ∀ offset ∈ (copyZclStringTouches dstSize zcl).loads,
        ∃ source, zcl = some source ∧ offset < 1 + min (source 0).toNat (dstSize - 1) := by
  have hcleared : Within dstSize (storeAt 0 (List.replicate dstSize (0 : UInt8))) :=
    within_storeAt (by simp)
  rw [copyZclStringTouches, if_neg (by omega)]
  cases zcl with
  | none => exact ⟨hcleared, by simp⟩
  | some source =>
    have hlength := toNat_copyLength hsize (source 0)
    constructor
    · refine within_append.mpr ⟨hcleared, within_storeAt ?_⟩
      simp only [List.length_map, List.length_range, Nat.zero_add]
      omega
    · simp only [List.mem_cons, List.mem_map, List.mem_range]
      rintro offset (rfl | ⟨index, hindex, rfl⟩)
      · exact ⟨source, rfl, by omega⟩
      · exact ⟨source, rfl, by omega⟩

/-- The text a string leaves in a destination. -/
theorem bytes_copyZclString (hsize : 1 ≤ dstSize) {first : UInt8} {text : Bytes}
    (henough : min first.toNat (dstSize - 1) ≤ text.length) :
    (copyZclString dstSize (some (first :: text))).bytes =
      text.take (min first.toNat (dstSize - 1)) ++
        List.replicate (dstSize - min first.toNat (dstSize - 1)) 0 := by
  have hlength : zclLength dstSize (first :: text) = min first.toNat (dstSize - 1) := by
    rw [zclLength, List.headD_cons]
    by_cases hcut : dstSize ≤ first.toNat
    · rw [if_pos hcut]
      omega
    · rw [if_neg hcut]
      omega
  have hfits : min first.toNat (dstSize - 1) ≤ dstSize := by omega
  generalize min first.toNat (dstSize - 1) = count at henough hlength hfits
  have htaken : (text.take count).length = count := List.length_take_of_le henough
  apply List.ext_getElem
  · simp only [copyZclString, List.length_ofFn, List.length_append, htaken, List.length_replicate]
    omega
  · intro i hi _
    simp only [copyZclString, List.getElem_ofFn, hlength]
    by_cases hcopied : i < count
    · have hindex : i < text.length := by omega
      rw [if_pos hcopied, List.getElem_append_left (by omega), List.getElem_take,
        List.getD_cons_succ, List.getD_eq_getElem?_getD, List.getElem?_eq_getElem hindex,
        Option.getD_some]
    · rw [if_neg hcopied, List.getElem_append_right (by omega), List.getElem_replicate]

/-- The writes of `copy_zcl_string` leave what `copyZclString` says. Assumes: memory holds the
string, with as many bytes of text as are copied. -/
theorem window_copyZclString (hsize : 1 ≤ dstSize) (cells : ℕ → UInt8) {source : ℕ → UInt8}
    {first : UInt8} {text : Bytes} (hstring : window source (text.length + 1) = first :: text)
    (henough : min first.toNat (dstSize - 1) ≤ text.length) :
    window (written cells (copyZclStringTouches dstSize (some source)).stores) dstSize =
      (copyZclString dstSize (some (first :: text))).bytes := by
  have hcells : source 0 = first ∧ (List.range text.length).map (fun i ↦ source (i + 1)) = text := by
    simpa [window, List.range_succ_eq_map, Function.comp_def] using hstring
  obtain ⟨hfirst, htext⟩ := hcells
  have hlength := toNat_copyLength hsize first
  rw [bytes_copyZclString hsize henough, copyZclStringTouches, if_neg (by omega)]
  dsimp only
  have hfits : min first.toNat (dstSize - 1) ≤ dstSize := by omega
  rw [hfirst, hlength]
  generalize min first.toNat (dstSize - 1) = count at henough hlength hfits
  have hcopied : ((List.range count).map (1 + ·)).map source = text.take count := by
    rw [← htext, ← List.map_take, List.take_range, Nat.min_eq_left henough, List.map_map]
    exact List.map_congr_left fun i _ ↦ congrArg source (Nat.add_comm 1 i)
  have htaken : (text.take count).length = count := List.length_take_of_le henough
  rw [hcopied, written_append, window_written_storeAt (by omega), window_written_storeAt (by simp),
    htaken]
  simp [List.drop_append]

end Memory

/-! ### `zigbee_read_basic` -/

section ReadBasic

/-- What a record holds, if it is a successful one of the given attribute. -/
def recordString (attrId : UInt16) (var : ReadAttrVariable) : Option (Option Bytes) :=
  if var.status = zclStatusSuccess ∧ var.attrId = attrId then some var.attrValue else none

/-- What the last successful record of an attribute holds. -/
def lastString (attrId : UInt16) (records : List ReadAttrVariable) : Option (Option Bytes) :=
  (records.filterMap (recordString attrId)).getLast?

/-- A record, if there is one, that holds a length byte and as much text as fits into a field. -/
def HoldsText (record : Option (Option Bytes)) : Prop :=
  ∀ value, record = some value →
    ∃ first text, value = some (first :: text) ∧ min first.toNat 15 ≤ text.length

/-- A field of `zigbee_basic_t` is the text of its record as far as it fits, and zeros. -/
structure Intact (record : Option (Option Bytes)) (field : FixedBytes 16) : Prop where
  text : ∀ first text, record = some (some (first :: text)) →
    field.bytes = text.take (min first.toNat 15) ++ List.replicate (16 - min first.toNat 15) 0
  absent : record = none → field.bytes = List.replicate 16 0
  terminated : 0 ∈ field.bytes

/-- What a record leaves in its field. -/
def fieldOf (record : Option (Option Bytes)) : FixedBytes 16 :=
  (record.map (copyZclString 16)).getD (.zero 16)

theorem intact_fieldOf {record : Option (Option Bytes)} (hholds : HoldsText record) :
    Intact record (fieldOf record) := by
  cases record with
  | none =>
    refine ⟨by simp, fun _ ↦ rfl, ?_⟩
    exact List.mem_replicate.mpr ⟨by decide, rfl⟩
  | some value =>
    obtain ⟨first, text, rfl, henough⟩ := hholds value rfl
    have hbytes : (fieldOf (some (some (first :: text)))).bytes =
        text.take (min first.toNat 15) ++ List.replicate (16 - min first.toNat 15) 0 :=
      bytes_copyZclString (by decide) henough
    refine ⟨?_, by simp, ?_⟩
    · intro otherFirst otherText hsame
      obtain ⟨rfl, rfl⟩ := List.cons.inj (Option.some.inj (Option.some.inj hsame))
      exact hbytes
    · rw [hbytes]
      exact List.mem_append_right _ (List.mem_replicate.mpr ⟨by omega, rfl⟩)

/-- What the records of a response leave in `s_basic_cache`. -/
def namesOf (records : List ReadAttrVariable) (cache : ZigbeeBasic) : ZigbeeBasic where
  err := cache.err
  manufacturer := ((lastString attrManufacturerName records).map (copyZclString 16)).getD
    cache.manufacturer
  model := ((lastString attrModelIdentifier records).map (copyZclString 16)).getD cache.model

/-- One pass of the loop. -/
theorem replay_basicVariable (f : Firmware) (var : ReadAttrVariable) :
    (f.replay (basicVariable var)).basicCache = namesOf [var] f.basicCache := by
  obtain ⟨status, attrId, attrValue⟩ := var
  by_cases hstatus : status = zclStatusSuccess
  swap
  · simp [basicVariable, hstatus, namesOf, lastString, recordString, Firmware.replay]
  subst hstatus
  by_cases hmanufacturer : attrId = attrManufacturerName
  · subst hmanufacturer
    rfl
  by_cases hmodel : attrId = attrModelIdentifier
  · subst hmodel
    rfl
  simp [basicVariable, hmanufacturer, hmodel, namesOf, lastString, recordString, Firmware.replay]

/-- A later record takes the place of an earlier one. -/
theorem lastString_cons (attrId : UInt16) (var : ReadAttrVariable) (records : List ReadAttrVariable)
    (otherwise : FixedBytes 16) :
    ((lastString attrId (var :: records)).map (copyZclString 16)).getD otherwise =
      ((lastString attrId records).map (copyZclString 16)).getD
        (((lastString attrId [var]).map (copyZclString 16)).getD otherwise) := by
  simp only [lastString, ← List.getLast?_map, List.map_filterMap]
  rw [getLast?_filterMap_cons_getD, getLast?_filterMap_cons_getD _ var []]
  rfl

/-- The whole loop. -/
theorem replay_names (records : List ReadAttrVariable) (f : Firmware) :
    (f.replay (records.flatMap basicVariable)).basicCache = namesOf records f.basicCache := by
  induction records generalizing f with
  | nil => rfl
  | cons var records ih =>
    rw [List.flatMap_cons, replay_append, ih, replay_basicVariable]
    simp only [namesOf, lastString_cons _ var records]

/-- A response to a read request on the Basic cluster. -/
def basicResponse (status : UInt8) (records : List ReadAttrVariable) : ReadAttrRspMessage :=
  ⟨clusterBasic, status, records⟩

variable (status : UInt8) (records : List ReadAttrVariable)

/-- What `zigbee_read_basic` makes of a response. -/
def basicOf : ZigbeeBasic where
  err := zclErr status
  manufacturer := fieldOf (lastString attrManufacturerName records)
  model := fieldOf (lastString attrModelIdentifier records)

theorem callback_basicResponse :
    (Answer.attributes (basicResponse status records)).callback =
      .clearBasic :: .setBasicErr (zclErr status) :: records.flatMap basicVariable ++
        [.give .basicDone] := by
  rw [Answer.callback, zclReadAttrRsp, basicResponse, if_pos rfl]

/-- What a response carries. -/
theorem outcome_basicResponse :
    (Answer.attributes (basicResponse status records)).outcome =
      some (.basic (basicOf status records)) := by
  have hchannel : (Answer.attributes (basicResponse status records)).channel =
      some (.semaphore .basicDone) := rfl
  have hgiven (f : Firmware) : (f.replay [.give .basicDone]).given .basicDone = true := by
    simp [Firmware.replay, Firmware.access]
  have hcache (f : Firmware) : (f.replay [.give .basicDone]).basicCache = f.basicCache := rfl
  rw [Answer.outcome, hchannel, Option.bind_some, callback_basicResponse, replay_append,
    Firmware.content, if_pos (hgiven _), Firmware.cached, hcache]
  exact congrArg (fun cache ↦ some (ApiValue.basic cache)) (replay_names records _)

/-- No pointer is followed that may be null. -/
theorem fault_not_mem_basicResponse :
    .fault ∉ (Answer.attributes (basicResponse status records)).callback := by
  rw [callback_basicResponse]
  simp only [List.cons_append, List.mem_cons, List.mem_append, List.mem_flatMap, reduceCtorEq,
    List.not_mem_nil, or_false, false_or, not_exists, not_and]
  intro var _
  unfold basicVariable
  split_ifs <;> simp

/-- `zigbee_read_basic` returns what the records of the response say. -/
theorem runCall_readBasic {firmware : Firmware} (shortAddr : UInt16) (ep : UInt8)
    (timeoutMs : UInt32) (meanwhile : Meanwhile (.semaphore .basicDone))
    (haccepted : firmware.outside.requestErr = ezbErrNone) :
    ∃ final, runCall (zigbeeReadBasic shortAddr ep timeoutMs : Prog Firmware Empty _)
      (meanwhile.accesses (zclReadAttrRsp (some (basicResponse status records)))) firmware =
        some (basicOf status records, final) := by
  rw [zigbeeReadBasic]
  generalize Request.readAttr shortAddr ep clusterBasic _ = request
  exact ⟨_, meanwhile.runCall_cached (.attributes (basicResponse status records))
    (fun _ _ ↦ ApiValue.basic.inj) (fun _ ↦ rfl) rfl (outcome_basicResponse status records)
    (fault_not_mem_basicResponse status records) (accepted_ezbRequest meanwhile request haccepted)⟩

end ReadBasic

end ZigbeeRemote.Server.ZigbeeStack
