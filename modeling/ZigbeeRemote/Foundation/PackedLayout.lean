import ZigbeeRemote.Foundation.StreamProgram
import Mathlib.Algebra.GroupWithZero.Nat
import Mathlib.Data.PNat.Basic
import Mathlib.Logic.Equiv.Defs

/-!
# Packed object representations

A type is `Packed` when its values are laid out in memory as exactly `size` bytes, every pattern of
which is a value: there is no padding, no invariant between the bytes, and nothing outside them. A
byte is packed, an array of packed values is packed, and a structure without padding is packed when
its members are, laid out in declaration order (`Packed.pair`, `Packed.ofEquiv`).

An object whose fields lie `InOrder` in it may have bytes between and after them. Its bytes are
those of its fields, whatever is in memory, if and only if the fields' sizes add up to its own
(`concatenation_iff`).
-/

set_option autoImplicit false
set_option relaxedAutoImplicit false

namespace ZigbeeRemote.Foundation

/-- An array of `n` bytes. -/
@[ext] structure FixedBytes (n : ℕ) where
  bytes : Bytes
  length_eq : bytes.length = n
  deriving DecidableEq

/-- The array of `n` zero bytes. -/
def FixedBytes.zero (n : ℕ) : FixedBytes n := ⟨List.replicate n 0, List.length_replicate⟩

/-- A type whose values are exactly the patterns of `size` bytes. -/
class Packed (T : Type) where
  size : ℕ
  toBytes : T → Bytes
  ofBytes : Bytes → T
  length_toBytes : ∀ value, (toBytes value).length = size
  ofBytes_toBytes : ∀ value, ofBytes (toBytes value) = value
  toBytes_ofBytes : ∀ bytes, bytes.length = size → toBytes (ofBytes bytes) = bytes

namespace Packed

instance byte : Packed UInt8 where
  size := 1
  toBytes := fun value ↦ [value]
  ofBytes := fun bytes ↦ bytes.headD 0
  length_toBytes := fun _ ↦ rfl
  ofBytes_toBytes := fun _ ↦ rfl
  toBytes_ofBytes := fun bytes hlength ↦ by
    obtain ⟨value, rfl⟩ := List.length_eq_one_iff.mp hlength
    rfl

instance array (n : ℕ) : Packed (FixedBytes n) where
  size := n
  toBytes := FixedBytes.bytes
  ofBytes := fun bytes ↦ if h : bytes.length = n then ⟨bytes, h⟩ else FixedBytes.zero n
  length_toBytes := FixedBytes.length_eq
  ofBytes_toBytes := fun value ↦ by rw [dif_pos value.length_eq]
  toBytes_ofBytes := fun bytes hlength ↦ by rw [dif_pos hlength]

instance pair (A B : Type) [Packed A] [Packed B] : Packed (A × B) where
  size := size A + size B
  toBytes := fun value ↦ toBytes value.1 ++ toBytes value.2
  ofBytes := fun bytes ↦ (ofBytes (bytes.take (size A)), ofBytes (bytes.drop (size A)))
  length_toBytes := fun value ↦ by rw [List.length_append, length_toBytes, length_toBytes]
  ofBytes_toBytes := fun value ↦ by
    have hfirst := length_toBytes value.1
    rw [List.take_left' hfirst, List.drop_left' hfirst, ofBytes_toBytes, ofBytes_toBytes]
  toBytes_ofBytes := fun bytes hlength ↦ by
    have hfirst : (bytes.take (size A)).length = size A := by
      rw [List.length_take]
      omega
    have hsecond : (bytes.drop (size A)).length = size B := by
      rw [List.length_drop]
      omega
    rw [toBytes_ofBytes _ hfirst, toBytes_ofBytes _ hsecond, List.take_append_drop]

/-- A structure is packed when the tuple of its members is. -/
@[reducible] def ofEquiv {A B : Type} [Packed B] (members : A ≃ B) : Packed A where
  size := size B
  toBytes := fun value ↦ toBytes (members value)
  ofBytes := fun bytes ↦ members.symm (ofBytes bytes)
  length_toBytes := fun value ↦ length_toBytes (members value)
  ofBytes_toBytes := fun value ↦ by rw [ofBytes_toBytes, Equiv.symm_apply_apply]
  toBytes_ofBytes := fun bytes hlength ↦ by
    rw [Equiv.apply_symm_apply, toBytes_ofBytes bytes hlength]

end Packed

/-! ### Alignment -/

/-- The next multiple of the alignment. -/
def roundUp (size : ℕ) (align : ℕ+) : ℕ := (size + align - 1) / align * align

theorem le_roundUp (size : ℕ) (align : ℕ+) : size ≤ roundUp size align := by
  have hsplit := Nat.div_add_mod (size + align - 1) align
  have hrest := Nat.mod_lt (size + align - 1) align.pos
  rw [Nat.mul_comm] at hsplit
  rw [roundUp]
  omega

theorem roundUp_eq_self_iff {size : ℕ} {align : ℕ+} :
    roundUp size align = size ↔ (align : ℕ) ∣ size := by
  constructor
  · intro hsame
    rw [← hsame, roundUp]
    exact Nat.dvd_mul_left _ _
  · rintro ⟨count, rfl⟩
    have hpos := align.pos
    have hless : (align : ℕ) - 1 < align := Nat.sub_lt hpos Nat.one_pos
    rw [roundUp, Nat.add_sub_assoc hpos, Nat.mul_add_div hpos, Nat.div_eq_of_lt hless,
      Nat.add_zero, Nat.mul_comm]

/-! ### Fields at offsets -/

/-- The fields, each an offset and a size, lie one after the other between `start` and `stop`. -/
def InOrder : ℕ → ℕ → List (ℕ × ℕ) → Prop
  | start, stop, [] => start ≤ stop
  | start, stop, field :: rest => start ≤ field.1 ∧ InOrder (field.1 + field.2) stop rest

/-- A byte between `start` and `stop` belongs to none of the fields. -/
def HasGap (start stop : ℕ) (fields : List (ℕ × ℕ)) : Prop :=
  ∃ position, start ≤ position ∧ position < stop ∧
    ∀ field ∈ fields, position < field.1 ∨ field.1 + field.2 ≤ position

/-- How many bytes the fields have together. -/
def totalSize (fields : List (ℕ × ℕ)) : ℕ := (fields.map Prod.snd).sum

/-- The bytes from `start` on that a memory holds. -/
def bytesAt (memory : ℕ → UInt8) (start size : ℕ) : Bytes := (List.range' start size).map memory

/-- The bytes of the fields, one field after the other. -/
def fieldBytes (memory : ℕ → UInt8) (fields : List (ℕ × ℕ)) : Bytes :=
  fields.flatMap fun field ↦ bytesAt memory field.1 field.2

@[simp] theorem length_bytesAt (memory : ℕ → UInt8) (start size : ℕ) :
    (bytesAt memory start size).length = size := by
  rw [bytesAt, List.length_map, List.length_range']

theorem length_fieldBytes (memory : ℕ → UInt8) (fields : List (ℕ × ℕ)) :
    (fieldBytes memory fields).length = totalSize fields := by
  rw [fieldBytes, List.length_flatMap, totalSize]
  simp only [length_bytesAt]

theorem bytesAt_append (memory : ℕ → UInt8) (start first second : ℕ) :
    bytesAt memory start first ++ bytesAt memory (start + first) second =
      bytesAt memory start (first + second) := by
  rw [bytesAt, bytesAt, ← List.map_append, List.range'_append_1, bytesAt]

/-- Assumes: the one list is followed by the other. -/
theorem InOrder.append {start middle stop : ℕ} {first second : List (ℕ × ℕ)}
    (hfirst : InOrder start middle first) (hsecond : InOrder middle stop second) :
    InOrder start stop (first ++ second) := by
  induction first generalizing start with
  | nil =>
    cases second with
    | nil => exact Nat.le_trans hfirst hsecond
    | cons field rest => exact ⟨Nat.le_trans hfirst hsecond.1, hsecond.2⟩
  | cons field rest ih => exact ⟨hfirst.1, ih hfirst.2⟩

theorem InOrder.mono {start stop outer last : ℕ} {fields : List (ℕ × ℕ)}
    (horder : InOrder start stop fields) (hstart : outer ≤ start) (hstop : stop ≤ last) :
    InOrder outer last fields := by
  have hbefore : InOrder outer start [] := hstart
  have hafter : InOrder stop last [] := hstop
  have hall := (hbefore.append horder).append hafter
  rwa [List.nil_append, List.append_nil] at hall

theorem InOrder.totalSize_le {start stop : ℕ} {fields : List (ℕ × ℕ)}
    (horder : InOrder start stop fields) : start + totalSize fields ≤ stop := by
  induction fields generalizing start with
  | nil => exact horder
  | cons field rest ih =>
    have hrest := ih horder.2
    have hstart := horder.1
    simp only [totalSize, List.map_cons, List.sum_cons] at hrest ⊢
    omega

theorem InOrder.within {start stop : ℕ} {fields : List (ℕ × ℕ)} (horder : InOrder start stop fields)
    {field : ℕ × ℕ} (hfield : field ∈ fields) : start ≤ field.1 ∧ field.1 + field.2 ≤ stop := by
  induction fields generalizing start with
  | nil => cases hfield
  | cons head rest ih =>
    have hhead := horder.1
    rcases List.mem_cons.mp hfield with rfl | hrest
    · have hstop := horder.2.totalSize_le
      omega
    · have hlater := ih horder.2 hrest
      omega

theorem hasGap_nil (start : ℕ) {size : ℕ} (hsize : 0 < size) : HasGap start (start + size) [] :=
  ⟨start, Nat.le_refl _, Nat.lt_add_of_pos_right hsize, fun _ hfield ↦ nomatch hfield⟩

theorem HasGap.mono {start stop outer last : ℕ} {fields : List (ℕ × ℕ)}
    (hgap : HasGap start stop fields) (hstart : outer ≤ start) (hstop : stop ≤ last) :
    HasGap outer last fields := by
  obtain ⟨position, hfrom, hto, houtside⟩ := hgap
  exact ⟨position, Nat.le_trans hstart hfrom, Nat.lt_of_lt_of_le hto hstop, houtside⟩

/-- Assumes: the gap is in the first of two lists that follow each other. -/
theorem HasGap.append_left {start middle stop : ℕ} {first second : List (ℕ × ℕ)}
    (hgap : HasGap start middle first) (hsecond : InOrder middle stop second) :
    HasGap start stop (first ++ second) := by
  obtain ⟨position, hfrom, hto, houtside⟩ := hgap
  have hmiddle := hsecond.totalSize_le
  refine ⟨position, hfrom, by omega, ?_⟩
  intro field hfield
  rcases List.mem_append.mp hfield with hin | hin
  · exact houtside field hin
  · have hwithin := hsecond.within hin
    exact Or.inl (by omega)

/-- Assumes: the gap is in the second of two lists that follow each other. -/
theorem HasGap.append_right {start middle stop : ℕ} {first second : List (ℕ × ℕ)}
    (hfirst : InOrder start middle first) (hgap : HasGap middle stop second) :
    HasGap start stop (first ++ second) := by
  obtain ⟨position, hfrom, hto, houtside⟩ := hgap
  have hmiddle := hfirst.totalSize_le
  refine ⟨position, by omega, hto, ?_⟩
  intro field hfield
  rcases List.mem_append.mp hfield with hin | hin
  · have hwithin := hfirst.within hin
    exact Or.inr (by omega)
  · exact houtside field hin

/-- Fields that leave no room between `start` and `stop` are what is in memory there. -/
theorem InOrder.fieldBytes_eq {start stop : ℕ} {fields : List (ℕ × ℕ)}
    (horder : InOrder start stop fields) (htotal : start + totalSize fields = stop)
    (memory : ℕ → UInt8) : fieldBytes memory fields = bytesAt memory start (totalSize fields) := by
  induction fields generalizing start with
  | nil => rfl
  | cons field rest ih =>
    have hcons : totalSize (field :: rest) = field.2 + totalSize rest := List.sum_cons
    have hroom := horder.2.totalSize_le
    have hstart : field.1 = start := by
      have hle := horder.1
      omega
    have hrest := ih horder.2 (by omega)
    rw [hcons, ← bytesAt_append, ← hstart, ← hrest]
    rfl

theorem concatenation_iff {size : ℕ} {fields : List (ℕ × ℕ)} (horder : InOrder 0 size fields) :
    (∀ memory, bytesAt memory 0 size = fieldBytes memory fields) ↔ totalSize fields = size := by
  constructor
  · intro hbytes
    have hlength := congrArg List.length (hbytes fun _ ↦ 0)
    rw [length_bytesAt, length_fieldBytes] at hlength
    exact hlength.symm
  · intro htotal memory
    rw [horder.fieldBytes_eq (by omega), htotal]

theorem HasGap.not_concatenation {size : ℕ} {fields : List (ℕ × ℕ)} (hgap : HasGap 0 size fields) :
    ¬ ∀ memory, bytesAt memory 0 size = fieldBytes memory fields := by
  obtain ⟨position, -, hposition, houtside⟩ := hgap
  intro hbytes
  -- The memory in which only the byte at `position` is not 0.
  have hmemory := hbytes fun address ↦ if address = position then 1 else 0
  have hone : (1 : UInt8) ∈ bytesAt (fun address ↦ if address = position then 1 else 0) 0 size :=
    List.mem_map.mpr ⟨position, List.mem_range'_1.mpr ⟨Nat.zero_le _, by omega⟩, if_pos rfl⟩
  rw [hmemory, fieldBytes, List.mem_flatMap] at hone
  obtain ⟨field, hfield, hin⟩ := hone
  obtain ⟨address, haddress, hvalue⟩ := List.mem_map.mp hin
  have hrange := List.mem_range'_1.mp haddress
  have hapart := houtside field hfield
  have hne : address ≠ position := by omega
  rw [if_neg hne] at hvalue
  exact absurd hvalue (by decide)

end ZigbeeRemote.Foundation
