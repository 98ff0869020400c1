import ZigbeeRemote.Server.ZigbeeRequests

/-!
# What a call makes of its answer

`zigbee_find_sensor` and `zigbee_read_temp` on a request that is accepted and answered in time, for
every answer the Zigbee stack can hand to the callbacks. `runCall` runs a function of the RPC task
step by step; before each step the Zigbee task makes some accesses of its own, and a `Meanwhile` is
what these are: anything that leaves the channel of the call alone.

`find_sensor_truthful_iff`: the result of `zigbee_find_sensor` and the remembered address are what
the answer says, unless the answer has no error and names no endpoint. Such an answer is reported as
the success of a device with address zero.

`read_temp_truthful_iff`: the result of `zigbee_read_temp` is a measurement, unless the response as
a whole is a success that has no successful record of the measured value. Such a response is
reported as a measurement of zero degrees.
-/

set_option autoImplicit false
set_option relaxedAutoImplicit false

namespace ZigbeeRemote.Server.ZigbeeStack

open Foundation Zigbee

/-! ### A call with its answer -/

section RunCall

variable {ε β : Type}

/-- Run a function of the RPC task. The lists are the accesses of the Zigbee task before each step;
an access through a null pointer ends everything. -/
def runCall : Prog Firmware ε β → List (List Access) → Firmware → Option (β × Firmware)
  | .done value, others, firmware =>
    if .fault ∈ others.flatten then none else some (value, firmware.replay others.flatten)
  | .query update next, [], firmware => runCall (next firmware) [] (update firmware)
  | .query update next, accesses :: others, firmware =>
    if .fault ∈ accesses then none
    else runCall (next (firmware.replay accesses)) others (update (firmware.replay accesses))
  | _, _, _ => none

/-- What the Zigbee task does besides answering while a call is served: before the channel is
emptied, before the request is made, before and after the answer, and after its receipt. -/
structure Meanwhile (channel : Channel) where
  earlier : List Access
  sending : List Access
  before : List Access
  after : List Access
  later : List Access
  no_fault : ∀ access ∈ earlier ++ sending ++ before ++ after ++ later, access ≠ .fault
  aside : ∀ access ∈ sending ++ before ++ after ++ later, access.channel ≠ some channel

namespace Meanwhile

variable {channel : Channel} (meanwhile : Meanwhile channel)

/-- The accesses before each step of a call that is answered. -/
def accesses (callback : List Access) : List (List Access) :=
  [meanwhile.earlier, meanwhile.sending, meanwhile.before ++ callback ++ meanwhile.after,
    meanwhile.later]

/-- All accesses besides the answer. -/
def all : List Access :=
  meanwhile.earlier ++ meanwhile.sending ++ meanwhile.before ++ meanwhile.after ++ meanwhile.later

/-- Nothing happens besides the answer. -/
def nothing (channel : Channel) : Meanwhile channel := ⟨[], [], [], [], [], by simp, by simp⟩

end Meanwhile

theorem replay_append (firmware : Firmware) (first second : List Access) :
    firmware.replay (first ++ second) = (firmware.replay first).replay second :=
  List.foldl_append

/-- Accesses to other channels leave a channel as it is. -/
theorem sameChannel_replay {channel : Channel} {accesses : List Access} (firmware : Firmware)
    (haside : ∀ access ∈ accesses, access.channel ≠ some channel) :
    SameChannel channel (firmware.replay accesses) firmware := by
  induction accesses generalizing firmware with
  | nil => exact .refl
  | cons access accesses ih =>
    have hrest := ih (firmware.access access) fun other hother ↦
      haside other (List.mem_cons_of_mem access hother)
    have hfirst : SameChannel channel (firmware.access access) firmware :=
      sameChannel_access (haside access List.mem_cons_self)
    exact hrest.trans hfirst

/-- The state in which a call makes its request. -/
def Meanwhile.asking {channel : Channel} (meanwhile : Meanwhile channel) (firmware : Firmware) :
    Firmware :=
  ((firmware.replay meanwhile.earlier).drain channel).replay meanwhile.sending

/-- The state in which a call that is answered finds its channel. -/
def Meanwhile.receiving {channel : Channel} (meanwhile : Meanwhile channel)
    (send : StateM Firmware Int32) (callback : List Access) (firmware : Firmware) : Firmware :=
  (send.run (meanwhile.asking firmware)).2.replay
    (meanwhile.before ++ callback ++ meanwhile.after)

/-- A request that the Zigbee stack accepts. -/
def Accepted (send : StateM Firmware Int32) (firmware : Firmware) : Prop :=
  (send.run firmware).1 = ezbErrNone ∧
    ∃ request : Request, (send.run firmware).2 =
      { firmware with accepted := firmware.accepted ++ [(firmware.calls, request)] }

variable {channel : Channel} (meanwhile : Meanwhile channel) {send : StateM Firmware Int32}
  {failed : Int32 → β} {collect : channel.Item → Prog Firmware ε β} (answer : Answer)
  {firmware : Firmware}

/-- A call that is answered finds the answer in its channel and nothing else. -/
theorem Meanwhile.content_receiving (hchannel : answer.channel = some channel)
    (haccepted : Accepted send (meanwhile.asking firmware)) :
    (meanwhile.receiving send answer.callback firmware).content channel = answer.outcome := by
  obtain ⟨-, request, hsent⟩ := haccepted
  have haside := meanwhile.aside
  simp only [List.forall_mem_append] at haside
  obtain ⟨⟨⟨hsending, hbefore⟩, hafter⟩, -⟩ := haside
  have hasked : SameChannel channel (send.run (meanwhile.asking firmware)).2
      ((firmware.replay meanwhile.earlier).drain channel) := by
    rw [hsent]
    exact (sameChannel_with _ _ _ _).trans (sameChannel_replay _ hsending)
  have hwaiting := (sameChannel_replay _ hbefore).trans hasked
  have hempty : ((firmware.replay meanwhile.earlier).drain channel).holds channel = none :=
    holds_drain
  rw [Meanwhile.receiving, replay_append, replay_append, (sameChannel_replay _ hafter).content]
  exact content_replay_callback hchannel (hwaiting.holds.trans hempty)

/-- A call that is answered goes on to collect the answer. -/
theorem Meanwhile.runCall_exchange {item : channel.Item} (hfault : .fault ∉ answer.callback)
    (haccepted : Accepted send (meanwhile.asking firmware))
    (hholds : (meanwhile.receiving send answer.callback firmware).holds channel = some item) :
    runCall (exchange channel send failed collect) (meanwhile.accesses answer.callback) firmware =
      runCall (collect item) [meanwhile.later]
        ((meanwhile.receiving send answer.callback firmware).take channel) := by
  have hnone := meanwhile.no_fault
  simp only [List.forall_mem_append] at hnone
  obtain ⟨⟨⟨⟨hearlier, hsending⟩, hbefore⟩, hafter⟩, -⟩ := hnone
  have hwhole : .fault ∉ meanwhile.before ++ answer.callback ++ meanwhile.after := by
    simp only [List.mem_append, not_or]
    exact ⟨⟨fun h ↦ hbefore _ h rfl, hfault⟩, fun h ↦ hafter _ h rfl⟩
  have herr : ¬ (send.run (meanwhile.asking firmware)).1 ≠ ezbErrNone := not_not.mpr haccepted.1
  rw [exchange_eq, Meanwhile.accesses, runCall, if_neg fun h ↦ hearlier _ h rfl, sendAndAwait,
    runCall, if_neg fun h ↦ hsending _ h rfl]
  change runCall (if (send.run (meanwhile.asking firmware)).1 ≠ ezbErrNone then _ else _) _
    (send.run (meanwhile.asking firmware)).2 = _
  rw [if_neg herr, awaitAnswer, runCall, if_neg hwhole]
  have hfound : ((send.run (meanwhile.asking firmware)).2.replay
      (meanwhile.before ++ answer.callback ++ meanwhile.after)).holds channel = some item := hholds
  simp only [hfound]
  rfl

theorem outside_replay (firmware : Firmware) (accesses : List Access) :
    (firmware.replay accesses).outside = firmware.outside := by
  induction accesses generalizing firmware with
  | nil => rfl
  | cons access accesses ih =>
    have haccess : (firmware.access access).outside = firmware.outside := by cases access <;> rfl
    exact (ih (firmware.access access)).trans haccess

theorem outside_asking : (meanwhile.asking firmware).outside = firmware.outside := by
  have hdrain (f : Firmware) : (f.drain channel).outside = f.outside := by cases channel <;> rfl
  rw [Meanwhile.asking, outside_replay, hdrain, outside_replay]

theorem accepted_ezbRequest (request : Request) (herr : firmware.outside.requestErr = ezbErrNone) :
    Accepted (ezbRequest request) (meanwhile.asking firmware) := by
  have hnow : (meanwhile.asking firmware).outside.requestErr = ezbErrNone := by
    rw [outside_asking, herr]
  rw [Accepted, ezbRequest_run, if_pos hnow]
  exact ⟨hnow, request, rfl⟩

/-- A call that is answered with a semaphore returns the variable cached beside it, as the answer
left it. -/
theorem Meanwhile.runCall_cached {semaphore : Semaphore} (meanwhile : Meanwhile (.semaphore semaphore))
    {read : Firmware → β} {wrap : β → ApiValue} (hwrap : Function.Injective wrap)
    (hcached : ∀ f : Firmware, f.cached semaphore = wrap (read f)) {value : β}
    (hchannel : answer.channel = some (.semaphore semaphore))
    (houtcome : answer.outcome = some (wrap value)) (hfault : .fault ∉ answer.callback)
    (haccepted : Accepted send (meanwhile.asking firmware)) :
    runCall (exchange (.semaphore semaphore) send failed fun _ ↦ readVariable read :
        Prog Firmware ε β) (meanwhile.accesses answer.callback) firmware =
      some (value, ((meanwhile.receiving send answer.callback firmware).take
        (.semaphore semaphore)).replay meanwhile.later) := by
  have hcontent := (meanwhile.content_receiving answer hchannel haccepted).trans houtcome
  have hlater : ¬ .fault ∈ meanwhile.later := fun hmem ↦
    meanwhile.no_fault _ (List.mem_append_right _ hmem) rfl
  have haside : ∀ access ∈ meanwhile.later, access.channel ≠ some (.semaphore semaphore) :=
    fun access haccess ↦ meanwhile.aside access (List.mem_append_right _ haccess)
  set receiving := meanwhile.receiving send answer.callback firmware with hreceiving
  have hgiven : receiving.given semaphore = true := by
    by_contra hnot
    simp [Firmware.content, hnot] at hcontent
  have hcache : read receiving = value := by
    rw [Firmware.content, if_pos hgiven, hcached] at hcontent
    exact hwrap (Option.some.inj hcontent)
  have hread : read ((receiving.take (.semaphore semaphore)).replay meanwhile.later) = value := by
    have hsame := (sameChannel_replay (receiving.take (.semaphore semaphore)) haside).2
    have htake : (receiving.take (.semaphore semaphore)).cached semaphore =
        receiving.cached semaphore := by cases semaphore <;> rfl
    rw [htake, hcached, hcached] at hsame
    exact (hwrap hsame).trans hcache
  have hholds : receiving.holds (.semaphore semaphore) = some () := if_pos hgiven
  rw [← hread]
  exact (meanwhile.runCall_exchange answer hfault haccepted hholds).trans (if_neg hlater)

end RunCall

/-! ### Variables beside the channels -/

section Beside

variable {f g : Firmware}

/-- What the accesses leave in `s_last_sensor_addr` depends on nothing else. -/
theorem lastSensorAddr_replay (accesses : List Access) (hsame : f.lastSensorAddr = g.lastSensorAddr) :
    (f.replay accesses).lastSensorAddr = (g.replay accesses).lastSensorAddr := by
  induction accesses generalizing f g with
  | nil => exact hsame
  | cons access accesses ih =>
    apply ih
    cases access <;> first | exact hsame | rfl

/-- What the accesses leave in `s_last_temp` depends on nothing else. -/
theorem lastTemp_replay (accesses : List Access) (hsame : f.lastTemp = g.lastTemp) :
    (f.replay accesses).lastTemp = (g.replay accesses).lastTemp := by
  induction accesses generalizing f g with
  | nil => exact hsame
  | cons access accesses ih =>
    apply ih
    cases access <;> first | exact hsame | rfl

end Beside

/-! ### `zigbee_find_sensor` -/

section FindSensor

/-- The device and the endpoint that an answer to a match request names. -/
def matchedEndpoint : Option MatchDescResult → Option (UInt16 × UInt8)
  | some ⟨error, some rsp⟩ =>
    if error = ezbErrNone ∧ rsp.status = zdpStatusSuccess then
      (rsp.matchList.bind List.head?).map fun ep ↦ (rsp.nwkAddrOfInterest, ep)
    else none
  | _ => none

/-- The result of `zigbee_find_sensor` and the address it leaves in `s_last_sensor_addr` say what
the answer says; `previous` is the address that is there without the call. -/
def TruthfulFind (result : Option MatchDescResult) (previous : UInt16) (out : ZigbeeAddr)
    (remembered : UInt16) : Prop :=
  (out.err = 0 ↔ (matchedEndpoint result).isSome) ∧
    (∀ shortAddr ep, matchedEndpoint result = some (shortAddr, ep) →
      out.shortAddr = shortAddr ∧ out.ep = ep) ∧
    (matchedEndpoint result = none → remembered = previous)

/-- An answer without an error code that names no endpoint: the response is missing, its status is
not success, or its list is missing or empty. -/
def NamesNothing (result : Option MatchDescResult) : Prop :=
  (∃ rsp, result = some ⟨ezbErrNone, rsp⟩) ∧ matchedEndpoint result = none

/-- `zdo_match_result` on an answer that names an endpoint. -/
theorem matchResultAddr_of_some {result : Option MatchDescResult} {shortAddr : UInt16} {ep : UInt8}
    (hmatched : matchedEndpoint result = some (shortAddr, ep)) :
    matchResultAddr result = ⟨0, shortAddr, ep⟩ := by
  unfold matchedEndpoint at hmatched
  split at hmatched
  · rename_i error rsp
    split_ifs at hmatched with hsuccess
    obtain ⟨first, hfirst, hpair⟩ := Option.map_eq_some_iff.mp hmatched
    obtain ⟨rfl, rfl⟩ := Prod.mk.inj hpair
    obtain ⟨list, hlist, hhead⟩ := Option.bind_eq_some_iff.mp hfirst
    have hlength : rsp.matchLength > 0 := by
      have hsize := rsp.length_matchList list hlist
      rw [gt_iff_lt, UInt8.lt_iff_toNat_lt, ← hsize]
      exact List.length_pos_of_mem (List.mem_of_head? hhead)
    simp [matchResultAddr, hlist, hsuccess.1, hsuccess.2, hlength, hhead]
  · simp at hmatched

/-- `zdo_match_result` on an answer that names no endpoint. -/
theorem matchResultAddr_of_none {result : Option MatchDescResult}
    (hmatched : matchedEndpoint result = none) :
    matchResultAddr result = ⟨(result.map MatchDescResult.error).getD (-1), 0, 0⟩ := by
  rcases result with _ | ⟨error, _ | rsp⟩
  · rfl
  · rfl
  · simp only [matchResultAddr, Option.map_some, Option.getD_some]
    cases hlist : rsp.matchList with
    | none => rfl
    | some list =>
      refine if_neg ?_
      rintro ⟨herror, hstatus, hlength⟩
      have hsize := rsp.length_matchList list hlist
      have hnil : list = [] := by simpa [matchedEndpoint, herror, hstatus, hlist] using hmatched
      rw [hnil, List.length_nil] at hsize
      rw [gt_iff_lt, UInt8.lt_iff_toNat_lt, ← hsize] at hlength
      exact Nat.lt_irrefl 0 hlength

variable {ε : Type} {firmware : Firmware} (shortAddr : UInt16) (timeoutMs : UInt32)
  (result : Option MatchDescResult) (meanwhile : Meanwhile .matchQ)

/-- Between the call and the receipt of its answer nothing but the other callbacks changes
`s_last_sensor_addr`. -/
theorem lastSensorAddr_receiving {request : Request}
    (haccepted : Accepted (ezbRequest request) (meanwhile.asking firmware)) :
    (((meanwhile.receiving (ezbRequest request) (zdoMatchResult result) firmware).take
      .matchQ).replay meanwhile.later).lastSensorAddr =
      (firmware.replay meanwhile.all).lastSensorAddr := by
  obtain ⟨-, accepted, hsent⟩ := haccepted
  have hasking : (meanwhile.asking firmware).lastSensorAddr =
      (firmware.replay (meanwhile.earlier ++ meanwhile.sending)).lastSensorAddr := by
    rw [replay_append]
    exact lastSensorAddr_replay meanwhile.sending rfl
  rw [Meanwhile.all, replay_append _ _ meanwhile.later]
  apply lastSensorAddr_replay
  rw [replay_append _ _ meanwhile.after]
  show (meanwhile.receiving (ezbRequest request) (zdoMatchResult result) firmware).lastSensorAddr = _
  rw [Meanwhile.receiving, replay_append _ _ meanwhile.after]
  apply lastSensorAddr_replay
  rw [replay_append _ _ (zdoMatchResult result), replay_append _ _ meanwhile.before]
  exact lastSensorAddr_replay meanwhile.before (by rw [hsent]; exact hasking)

/-- The last step of `zigbee_find_sensor`. -/
theorem runCall_rememberSensor (out : ZigbeeAddr) {later : List Access}
    (hlater : ¬ .fault ∈ later) :
    ∃ final, runCall (rememberSensor out : Prog Firmware ε _) [later] firmware = some (out, final) ∧
      final.lastSensorAddr =
        if out.err = 0 then out.shortAddr else (firmware.replay later).lastSensorAddr := by
  by_cases herr : out.err = 0
  · refine ⟨{ firmware.replay later with lastSensorAddr := out.shortAddr }, ?_, ?_⟩
    · rw [rememberSensor, if_pos herr]
      exact if_neg hlater
    · rw [if_pos herr]
  · refine ⟨firmware.replay later, ?_, ?_⟩
    · rw [rememberSensor, if_neg herr]
      simpa [runCall] using hlater
    · rw [if_neg herr]

/-- `zigbee_find_sensor` returns what `zdo_match_result` made of the answer, and remembers the
address in it when there is no error code. -/
theorem runCall_findSensor (haccepted : firmware.outside.requestErr = ezbErrNone) :
    ∃ final, runCall (zigbeeFindSensor shortAddr timeoutMs : Prog Firmware ε _)
        (meanwhile.accesses (zdoMatchResult result)) firmware =
          some (matchResultAddr result, final) ∧
      final.lastSensorAddr =
        if (matchResultAddr result).err = 0 then (matchResultAddr result).shortAddr
        else (firmware.replay meanwhile.all).lastSensorAddr := by
  rw [zigbeeFindSensor]
  generalize Request.matchDesc shortAddr shortAddr haProfileId [clusterTemperature] = request
  have hsend := accepted_ezbRequest meanwhile request haccepted
  have hcontent : (meanwhile.receiving (ezbRequest request) (zdoMatchResult result)
      firmware).content .matchQ = some (.addr (matchResultAddr result)) :=
    meanwhile.content_receiving (.matched result) rfl hsend
  have hholds : (meanwhile.receiving (ezbRequest request) (zdoMatchResult result)
      firmware).holds .matchQ = some (matchResultAddr result) := by
    obtain ⟨item, hitem, hsame⟩ := Option.map_eq_some_iff.mp hcontent
    rw [← ApiValue.addr.inj hsame]
    exact hitem
  have hlater : ¬ .fault ∈ meanwhile.later := fun hfault ↦
    meanwhile.no_fault _ (List.mem_append_right _ hfault) rfl
  obtain ⟨final, hfinal, haddr⟩ := runCall_rememberSensor (ε := ε) (matchResultAddr result) hlater
  refine ⟨final, ?_, ?_⟩
  · exact (meanwhile.runCall_exchange (.matched result) (by simp [Answer.callback, zdoMatchResult])
      hsend hholds).trans hfinal
  · rw [haddr]
    exact congrArg _ (lastSensorAddr_receiving result meanwhile hsend)

/-- The result and the remembered address say what the answer says if and only if the answer is not
one that has no error code and yet names no endpoint. Assumes: the request is accepted, and answered
before the call times out. -/
theorem find_sensor_truthful_iff (haccepted : firmware.outside.requestErr = ezbErrNone) :
    ∃ out final, runCall (zigbeeFindSensor shortAddr timeoutMs : Prog Firmware Empty _)
        (meanwhile.accesses (zdoMatchResult result)) firmware = some (out, final) ∧
      (TruthfulFind result (firmware.replay meanwhile.all).lastSensorAddr out
        final.lastSensorAddr ↔ ¬ NamesNothing result) := by
  obtain ⟨final, hrun, hremembered⟩ :=
    runCall_findSensor (ε := Empty) shortAddr timeoutMs result meanwhile haccepted
  refine ⟨_, final, hrun, ?_⟩
  cases hmatched : matchedEndpoint result with
  | some device =>
    obtain ⟨responder, ep⟩ := device
    have hout := matchResultAddr_of_some hmatched
    refine iff_of_true ⟨?_, ?_, ?_⟩ ?_
    · simp [hout, hmatched]
    · intro otherAddr otherEp hother
      rw [hmatched] at hother
      obtain ⟨rfl, rfl⟩ := Prod.mk.inj (Option.some.inj hother)
      rw [hout]
      exact ⟨rfl, rfl⟩
    · simp [hmatched]
    · simp [NamesNothing, hmatched]
  | none =>
    have hout := matchResultAddr_of_none hmatched
    constructor
    · rintro ⟨herr, -, -⟩ ⟨⟨rsp, rfl⟩, -⟩
      have hzero : (matchResultAddr (some ⟨ezbErrNone, rsp⟩)).err = 0 := by rw [hout]; rfl
      simpa [hmatched] using herr.mp hzero
    · intro hnames
      have herr : (matchResultAddr result).err ≠ 0 := by
        rw [hout]
        rcases result with _ | ⟨error, rsp⟩
        · decide
        · intro hzero
          have hnone : error = ezbErrNone := hzero
          exact hnames ⟨⟨rsp, by rw [hnone]⟩, hmatched⟩
      refine ⟨?_, ?_, ?_⟩
      · simp [herr, hmatched]
      · simp [hmatched]
      · intro _
        rw [hremembered, if_neg herr]

/-- The answer of a device with a temperature sensor at endpoint 10. -/
def sensorFound : MatchDescResult :=
  ⟨ezbErrNone, some ⟨zdpStatusSuccess, 0x1956, 1, some [10], by simp⟩⟩

theorem find_sensor_truthful_found :
    ∃ out final, runCall (zigbeeFindSensor 0x1956 10000 : Prog Firmware Empty _)
        ((Meanwhile.nothing .matchQ).accesses (zdoMatchResult (some sensorFound))) .blank =
          some (out, final) ∧
      TruthfulFind (some sensorFound) 0 out final.lastSensorAddr := by
  obtain ⟨out, final, hrun, htruthful⟩ := find_sensor_truthful_iff 0x1956 10000 (some sensorFound)
    (.nothing .matchQ) (show Firmware.blank.outside.requestErr = ezbErrNone from rfl)
  refine ⟨out, final, hrun, htruthful.mpr ?_⟩
  rintro ⟨-, hnone⟩
  exact absurd hnone (by decide)

/-- The answer of a device without a temperature sensor: the list of endpoints is empty. -/
def nothingFound : MatchDescResult :=
  ⟨ezbErrNone, some ⟨zdpStatusSuccess, 0x1956, 0, some [], by simp⟩⟩

/-- A device without a temperature sensor is reported as found, at address zero, and the address of
the sensor known so far is overwritten. -/
theorem find_sensor_untruthful :
    ∃ out final, runCall (zigbeeFindSensor 0x1956 10000 : Prog Firmware Empty _)
        ((Meanwhile.nothing .matchQ).accesses (zdoMatchResult (some nothingFound)))
        { Firmware.blank with lastSensorAddr := 0x4242 } = some (out, final) ∧
      out = ⟨0, 0, 0⟩ ∧ final.lastSensorAddr = 0 ∧
      ¬ TruthfulFind (some nothingFound) 0x4242 out final.lastSensorAddr := by
  refine ⟨_, _, rfl, rfl, rfl, ?_⟩
  rintro ⟨herr, -, -⟩
  exact absurd (herr.mp rfl) (by decide)

end FindSensor

/-- Of the values that records give, a later one takes the place of an earlier one. -/
theorem getLast?_filterMap_cons_getD {α β : Type} (f : α → Option β) (head : α) (tail : List α)
    (otherwise : β) :
    ((head :: tail).filterMap f).getLast?.getD otherwise =
      (tail.filterMap f).getLast?.getD ((f head).getD otherwise) := by
  cases hvalue : f head with
  | none => rw [List.filterMap_cons_none hvalue, Option.getD_none]
  | some value =>
    rw [List.filterMap_cons_some hvalue, List.getLast?_cons, Option.getD_some, Option.getD_some]

/-! ### `zigbee_read_temp` -/

section ReadTemp

/-- The value of a record, if it is a successful one of the given attribute. -/
def recordValue (attrId : UInt16) (var : ReadAttrVariable) : Option Int16 :=
  if var.status = zclStatusSuccess ∧ var.attrId = attrId then var.attrValue.map readInt16 else none

/-- The value of the last successful record of an attribute. -/
def lastValue (attrId : UInt16) (records : List ReadAttrVariable) : Option Int16 :=
  (records.filterMap (recordValue attrId)).getLast?

/-- A later record takes the place of an earlier one. -/
theorem lastValue_cons_getD (attrId : UInt16) (var : ReadAttrVariable)
    (records : List ReadAttrVariable) (otherwise : Int16) :
    (lastValue attrId (var :: records)).getD otherwise =
      (lastValue attrId records).getD ((recordValue attrId var).getD otherwise) :=
  getLast?_filterMap_cons_getD _ var records otherwise

/-- What the records of a response leave in `s_temp_cache` and `s_last_temp`. -/
def readingsOf (records : List ReadAttrVariable) (cache : ZigbeeTemp) : ZigbeeTemp where
  err := cache.err
  measured := (lastValue attrMeasuredValue records).getD cache.measured
  minMeasured := (lastValue attrMinMeasuredValue records).getD cache.minMeasured
  maxMeasured := (lastValue attrMaxMeasuredValue records).getD cache.maxMeasured
  tolerance := (lastValue attrTolerance records).getD cache.tolerance

/-- One pass of the loop. -/
theorem replay_tempVariable (f : Firmware) (var : ReadAttrVariable) :
    (f.replay (tempVariable var)).tempCache = readingsOf [var] f.tempCache ∧
      (f.replay (tempVariable var)).lastTemp =
        (lastValue attrMeasuredValue [var]).getD f.lastTemp := by
  obtain ⟨status, attrId, attrValue⟩ := var
  by_cases hstatus : status = zclStatusSuccess
  swap
  · simp [tempVariable, hstatus, readingsOf, lastValue, recordValue, Firmware.replay]
  subst hstatus
  cases attrValue with
  | none => simp [tempVariable, readingsOf, lastValue, recordValue, Firmware.replay, Firmware.access]
  | some bytes =>
    -- The four attributes that the loop knows, and all others.
    by_cases hmeasured : attrId = attrMeasuredValue
    · subst hmeasured
      exact ⟨rfl, rfl⟩
    by_cases hmin : attrId = attrMinMeasuredValue
    · subst hmin
      exact ⟨rfl, rfl⟩
    by_cases hmax : attrId = attrMaxMeasuredValue
    · subst hmax
      exact ⟨rfl, rfl⟩
    by_cases htolerance : attrId = attrTolerance
    · subst htolerance
      exact ⟨rfl, rfl⟩
    simp [tempVariable, hmeasured, hmin, hmax, htolerance, readingsOf, lastValue, recordValue,
      Firmware.replay]

theorem readingsOf_cons (var : ReadAttrVariable) (records : List ReadAttrVariable)
    (cache : ZigbeeTemp) :
    readingsOf (var :: records) cache = readingsOf records (readingsOf [var] cache) := by
  simp only [readingsOf, lastValue_cons_getD _ var]
  rfl

/-- The whole loop. -/
theorem replay_records (records : List ReadAttrVariable) (f : Firmware) :
    (f.replay (records.flatMap tempVariable)).tempCache = readingsOf records f.tempCache ∧
      (f.replay (records.flatMap tempVariable)).lastTemp =
        (lastValue attrMeasuredValue records).getD f.lastTemp := by
  induction records generalizing f with
  | nil => exact ⟨rfl, rfl⟩
  | cons var records ih =>
    obtain ⟨hcache, htemp⟩ := replay_tempVariable f var
    obtain ⟨hcaches, htemps⟩ := ih (f.replay (tempVariable var))
    rw [List.flatMap_cons, replay_append, hcaches, htemps, hcache, htemp,
      readingsOf_cons var records, lastValue_cons_getD _ var records, lastValue_cons_getD _ var []]
    exact ⟨rfl, rfl⟩

/-- A response to a read request on the temperature cluster. -/
def tempResponse (status : UInt8) (records : List ReadAttrVariable) : ReadAttrRspMessage :=
  ⟨clusterTemperature, status, records⟩

/-- What `zcl_read_attr_rsp` leaves behind when it handles a response. -/
theorem replay_tempResponse (status : UInt8) (records : List ReadAttrVariable) (f : Firmware) :
    (f.replay (zclReadAttrRsp (some (tempResponse status records)))).tempCache =
        readingsOf records ⟨zclErr status, 0, 0, 0, 0⟩ ∧
      (f.replay (zclReadAttrRsp (some (tempResponse status records)))).lastTemp =
        (lastValue attrMeasuredValue records).getD f.lastTemp := by
  have hother : clusterTemperature ≠ clusterBasic := by decide
  rw [zclReadAttrRsp, tempResponse, if_neg hother, if_pos rfl, replay_append]
  exact replay_records records _

/-- The result of `zigbee_read_temp` and what is left in `s_last_temp` are what the records say.
`previous` is the temperature that is there without the call, and `afterwards` what later reports
make of the temperature that the answer leaves. -/
def TruthfulRead (records : List ReadAttrVariable) (previous : Int16) (afterwards : Int16 → Int16)
    (out : ZigbeeTemp) (remembered : Int16) : Prop :=
  (out.err = 0 → (lastValue attrMeasuredValue records).isSome) ∧
    (∀ value, lastValue attrMeasuredValue records = some value →
      out.measured = value ∧
        out.minMeasured = (lastValue attrMinMeasuredValue records).getD 0 ∧
        out.maxMeasured = (lastValue attrMaxMeasuredValue records).getD 0 ∧
        out.tolerance = (lastValue attrTolerance records).getD 0 ∧
        remembered = afterwards out.measured) ∧
    (lastValue attrMeasuredValue records = none → remembered = previous ∧ out.err ≠ 0)

variable {firmware : Firmware} (shortAddr : UInt16) (ep : UInt8) (timeoutMs : UInt32)
  (status : UInt8) (records : List ReadAttrVariable) (meanwhile : Meanwhile (.semaphore .tempDone))

/-- What is left in `s_last_temp` at the end of a call that is answered. -/
theorem lastTemp_receiving {request : Request}
    (haccepted : Accepted (ezbRequest request) (meanwhile.asking firmware)) :
    (((meanwhile.receiving (ezbRequest request) (zclReadAttrRsp (some (tempResponse status records)))
      firmware).take (.semaphore .tempDone)).replay meanwhile.later).lastTemp =
      match lastValue attrMeasuredValue records with
      | some value =>
        ({ firmware with lastTemp := value }.replay (meanwhile.after ++ meanwhile.later)).lastTemp
      | none => (firmware.replay meanwhile.all).lastTemp := by
  obtain ⟨-, accepted, hsent⟩ := haccepted
  have hasking : (meanwhile.asking firmware).lastTemp =
      (firmware.replay (meanwhile.earlier ++ meanwhile.sending)).lastTemp := by
    rw [replay_append]
    exact lastTemp_replay meanwhile.sending rfl
  have hanswered (start : Firmware) := (replay_tempResponse status records start).2
  have hend (start : Firmware) : ((start.take (.semaphore .tempDone)).replay meanwhile.later).lastTemp =
      (start.replay meanwhile.later).lastTemp := lastTemp_replay meanwhile.later rfl
  rw [hend, Meanwhile.receiving, replay_append _ _ meanwhile.after, ← replay_append _ meanwhile.after]
  cases hvalue : lastValue attrMeasuredValue records with
  | some value =>
    apply lastTemp_replay
    rw [replay_append, hanswered, hvalue]
    rfl
  | none =>
    rw [Meanwhile.all, List.append_assoc _ meanwhile.after, replay_append _ _ (meanwhile.after ++ _)]
    apply lastTemp_replay
    rw [replay_append, hanswered, hvalue, Option.getD_none, replay_append _ _ meanwhile.before]
    exact lastTemp_replay meanwhile.before (by rw [hsent]; exact hasking)

/-- What a response carries. -/
theorem outcome_tempResponse :
    (Answer.attributes (tempResponse status records)).outcome =
      some (.temp (readingsOf records ⟨zclErr status, 0, 0, 0, 0⟩)) := by
  have hchannel : (Answer.attributes (tempResponse status records)).channel =
      some (.semaphore .tempDone) := rfl
  have hcache := (replay_tempResponse status records .blank).1
  have hgiven : (Firmware.blank.replay
      (zclReadAttrRsp (some (tempResponse status records)))).given .tempDone = true := by
    have hother : clusterTemperature ≠ clusterBasic := by decide
    rw [zclReadAttrRsp, tempResponse, if_neg hother, if_pos rfl, replay_append]
    generalize Firmware.blank.replay _ = handled
    simp [Firmware.replay, Firmware.access]
  rw [Answer.outcome, hchannel, Option.bind_some, Answer.callback, Firmware.content, if_pos hgiven,
    Firmware.cached, hcache]

/-- A successful record carries a value, so reading it is safe. -/
theorem fault_not_mem_tempResponse
    (hvalues : ∀ var ∈ records, var.status = zclStatusSuccess → var.attrValue.isSome) :
    .fault ∉ zclReadAttrRsp (some (tempResponse status records)) := by
  have hother : clusterTemperature ≠ clusterBasic := by decide
  rw [zclReadAttrRsp, tempResponse, if_neg hother, if_pos rfl]
  simp only [List.cons_append, List.mem_cons, List.mem_append, List.mem_flatMap, reduceCtorEq,
    List.not_mem_nil, or_false, false_or, not_exists, not_and]
  intro var hvar
  unfold tempVariable
  by_cases hstatus : var.status = zclStatusSuccess
  · obtain ⟨bytes, hbytes⟩ := Option.isSome_iff_exists.mp (hvalues var hvar hstatus)
    rw [if_neg (not_not.mpr hstatus), hbytes]
    dsimp only
    split_ifs <;> simp
  · simp [hstatus]

/-- `zigbee_read_temp` returns what the records of the response say. -/
theorem runCall_readTemp (haccepted : firmware.outside.requestErr = ezbErrNone)
    (hvalues : ∀ var ∈ records, var.status = zclStatusSuccess → var.attrValue.isSome) :
    ∃ final, runCall (zigbeeReadTemp shortAddr ep timeoutMs : Prog Firmware Empty _)
        (meanwhile.accesses (zclReadAttrRsp (some (tempResponse status records)))) firmware =
          some (readingsOf records ⟨zclErr status, 0, 0, 0, 0⟩, final) ∧
      final.lastTemp =
        match lastValue attrMeasuredValue records with
        | some value =>
          ({ firmware with lastTemp := value }.replay (meanwhile.after ++ meanwhile.later)).lastTemp
        | none => (firmware.replay meanwhile.all).lastTemp := by
  rw [zigbeeReadTemp]
  generalize Request.readAttr shortAddr ep clusterTemperature _ = request
  have hsend := accepted_ezbRequest meanwhile request haccepted
  exact ⟨_, meanwhile.runCall_cached (.attributes (tempResponse status records))
    (fun _ _ ↦ ApiValue.temp.inj) (fun _ ↦ rfl) rfl (outcome_tempResponse status records)
    (fault_not_mem_tempResponse status records hvalues) hsend,
    lastTemp_receiving status records meanwhile hsend⟩

theorem isSome_lastValue {attrId : UInt16} {records : List ReadAttrVariable}
    (hvalues : ∀ var ∈ records, var.status = zclStatusSuccess → var.attrValue.isSome) :
    (lastValue attrId records).isSome ↔
      ∃ var ∈ records, var.status = zclStatusSuccess ∧ var.attrId = attrId := by
  unfold lastValue
  rw [List.getLast?_isSome, ne_eq, List.filterMap_eq_nil_iff]
  constructor
  · intro hsome
    push Not at hsome
    obtain ⟨var, hvar, hvalue⟩ := hsome
    refine ⟨var, hvar, ?_⟩
    by_contra hnot
    exact hvalue (if_neg hnot)
  · rintro ⟨var, hvar, hstatus, hattr⟩ hnone
    have hvalue := hnone var hvar
    rw [recordValue, if_pos ⟨hstatus, hattr⟩, Option.map_eq_none_iff] at hvalue
    have hthere := hvalues var hvar hstatus
    simp [hvalue] at hthere

/-- The result of `zigbee_read_temp` is what the records of the response say if and only if the
response as a whole is not a success or one of its records is a successful measurement. Assumes: the
request is accepted and answered before the call times out, and successful records carry a value. -/
theorem read_temp_truthful_iff (haccepted : firmware.outside.requestErr = ezbErrNone)
    (hvalues : ∀ var ∈ records, var.status = zclStatusSuccess → var.attrValue.isSome) :
    ∃ out final, runCall (zigbeeReadTemp shortAddr ep timeoutMs : Prog Firmware Empty _)
        (meanwhile.accesses (zclReadAttrRsp (some (tempResponse status records)))) firmware =
          some (out, final) ∧
      (TruthfulRead records (firmware.replay meanwhile.all).lastTemp
          (fun value ↦ ({ firmware with lastTemp := value }.replay
            (meanwhile.after ++ meanwhile.later)).lastTemp) out final.lastTemp ↔
        status ≠ zclStatusSuccess ∨
          ∃ var ∈ records, var.status = zclStatusSuccess ∧ var.attrId = attrMeasuredValue) := by
  obtain ⟨final, hrun, hremembered⟩ :=
    runCall_readTemp shortAddr ep timeoutMs status records meanwhile haccepted hvalues
  refine ⟨_, final, hrun, ?_⟩
  have hzero : zclErr status = 0 ↔ status = zclStatusSuccess := by
    unfold zclErr
    split_ifs with hsuccess
    · exact iff_of_true rfl hsuccess
    · exact iff_of_false (by decide) hsuccess
  rw [← isSome_lastValue hvalues]
  cases hvalue : lastValue attrMeasuredValue records with
  | some value =>
    refine iff_of_true ⟨fun _ ↦ by rw [hvalue]; rfl, ?_, by simp [hvalue]⟩ (Or.inr rfl)
    intro other hother
    rw [hvalue] at hother hremembered
    obtain rfl := Option.some.inj hother
    have hout : (readingsOf records ⟨zclErr status, 0, 0, 0, 0⟩).measured = value := by
      rw [readingsOf, hvalue, Option.getD_some]
    rw [hout]
    exact ⟨rfl, rfl, rfl, rfl, hremembered⟩
  | none =>
    rw [hvalue] at hremembered
    constructor
    · rintro ⟨-, -, hfails⟩
      refine Or.inl fun hsuccess ↦ ?_
      exact (hfails hvalue).2 (hzero.mpr hsuccess)
    · rintro (hstatus | hsome)
      · refine ⟨fun herr ↦ absurd (hzero.mp herr) hstatus, by simp [hvalue], fun _ ↦ ?_⟩
        exact ⟨hremembered, fun herr ↦ hstatus (hzero.mp herr)⟩
      · simp at hsome

theorem read_temp_truthful_warm :
    ∃ out final, runCall (zigbeeReadTemp 0x1956 10 15000 : Prog Firmware Empty _)
        ((Meanwhile.nothing (.semaphore .tempDone)).accesses (zclReadAttrRsp (some warmResponse)))
        .blank = some (out, final) ∧
      TruthfulRead warmResponse.inVariables 0 id out final.lastTemp := by
  obtain ⟨out, final, hrun, htruthful⟩ := read_temp_truthful_iff 0x1956 10 15000 zclStatusSuccess
    warmResponse.inVariables (.nothing (.semaphore .tempDone))
    (show Firmware.blank.outside.requestErr = ezbErrNone from rfl) (by decide)
  exact ⟨out, final, hrun, htruthful.mpr (by decide)⟩

/-- A response that is a success as a whole, in which the sensor reports only its tolerance. -/
def coldResponse : ReadAttrRspMessage :=
  tempResponse zclStatusSuccess
    [⟨0x86, attrMeasuredValue, none⟩, ⟨zclStatusSuccess, attrTolerance, some [0x64, 0x00]⟩]

/-- A response without a measurement is reported as zero degrees. -/
theorem read_temp_untruthful :
    ∃ out final, runCall (zigbeeReadTemp 0x1956 10 15000 : Prog Firmware Empty _)
        ((Meanwhile.nothing (.semaphore .tempDone)).accesses (zclReadAttrRsp (some coldResponse)))
        .blank = some (out, final) ∧
      out = ⟨0, 0, 0, 0, 100⟩ ∧
      ¬ TruthfulRead coldResponse.inVariables 0 id out final.lastTemp := by
  refine ⟨_, _, rfl, by decide, ?_⟩
  rintro ⟨herr, -, -⟩
  exact absurd (herr (by decide)) (by decide)

end ReadTemp

end ZigbeeRemote.Server.ZigbeeStack
