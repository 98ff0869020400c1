import ZigbeeRemote.Foundation.SharedMachine
import ZigbeeRemote.Server.SensorReadings

/-!
# What the server remembers of the sensor

`s_last_temp` and `s_last_sensor_addr` outlive the calls and the clients: the one is what
`zigbee_get_last_temp` returns, the other is what `zigbee_get_sensor_addr` returns so that a later
client can skip commissioning. Both are written by callbacks of the Zigbee task, and the address
also by `zigbee_find_sensor` in the RPC task, with no lock between the tasks.

`get_last_temp_current`: what `zigbee_get_last_temp` returns is the latest of the measured values
that reports and responses have brought, as of some moment between its call and its return.
`sensor_addr_genuine`: the remembered address is zero or has been brought by a temperature report or
by a match answer that names an endpoint.
-/

set_option autoImplicit false
set_option relaxedAutoImplicit false

namespace ZigbeeRemote.Server.ZigbeeStack

open Foundation Zigbee

/-! ### What the messages bring -/

/-- The measured value in a record of a report. -/
def ReportAttrVariable.measured (var : ReportAttrVariable) : Option Int16 :=
  if var.attrId = attrMeasuredValue then var.attrValue.map readInt16 else none

/-- The measured values that a step brings, in the order of the records. -/
def Happening.measurements : Happening → List Int16
  | .answer _ (.attributes message) =>
    if message.clusterId = clusterTemperature then
      message.inVariables.filterMap (recordValue attrMeasuredValue)
    else []
  | .notice (.reportAttr (some message)) =>
    if message.clusterId = clusterTemperature then
      message.inVariables.filterMap ReportAttrVariable.measured
    else []
  | _ => []

/-- The measured values that a run brings. -/
def measurements (labels : List Happening) : List Int16 := labels.flatMap Happening.measurements

/-- The addresses of sensors that a step brings: the source of a temperature report, and the device
whose endpoint a match answer names. -/
def Happening.sensors : Happening → List UInt16
  | .answer _ (.matched result) => ((matchedEndpoint result).map Prod.fst).toList
  | .notice (.reportAttr (some message)) =>
    if message.clusterId = clusterTemperature then message.srcShortAddr.toList else []
  | _ => []

/-- The value an access puts into `s_last_temp`. -/
def Access.measured : Access → Option Int16
  | .setLastTemp value => some value
  | _ => none

/-- The measured values that the current callback has still to store. -/
def System.pending (system : System) : List Int16 := system.zigbeeTask.filterMap Access.measured

theorem measured_tempVariable (var : ReadAttrVariable) :
    (tempVariable var).filterMap Access.measured =
      (recordValue attrMeasuredValue var).toList := by
  obtain ⟨status, attrId, attrValue⟩ := var
  by_cases hstatus : status = zclStatusSuccess
  · cases attrValue with
    | none => simp [tempVariable, recordValue, hstatus, Access.measured]
    | some bytes =>
      by_cases hmeasured : attrId = attrMeasuredValue
      · simp only [tempVariable, recordValue, hstatus, hmeasured]
        rfl
      · simp only [tempVariable, recordValue, hstatus, hmeasured]
        split_ifs <;> simp_all [Access.measured]
  · simp [tempVariable, recordValue, hstatus]

theorem measured_reportVariable (var : ReportAttrVariable) :
    (reportVariable var).filterMap Access.measured = var.measured.toList := by
  obtain ⟨attrId, attrValue⟩ := var
  by_cases hmeasured : attrId = attrMeasuredValue
  · cases attrValue with
    | none => simp [reportVariable, ReportAttrVariable.measured, hmeasured, Access.measured]
    | some bytes => simp [reportVariable, ReportAttrVariable.measured, hmeasured, Access.measured]
  · simp [reportVariable, ReportAttrVariable.measured, hmeasured]

/-- What the records of a message store, record by record. -/
theorem filterMap_flatMap_records {Record : Type} {body : Record → List Access}
    {value : Record → Option Int16}
    (hbody : ∀ record, (body record).filterMap Access.measured = (value record).toList)
    (records : List Record) :
    (records.flatMap body).filterMap Access.measured = records.filterMap value := by
  induction records with
  | nil => rfl
  | cons record records ih =>
    rw [List.flatMap_cons, List.filterMap_append, hbody, ih]
    cases hvalue : value record <;> simp [hvalue]

theorem measured_basicVariable (var : ReadAttrVariable) :
    (basicVariable var).filterMap Access.measured = (none : Option Int16).toList := by
  unfold basicVariable
  split_ifs <;> rfl

/-- A callback with accesses around its loop that store no measured value. -/
theorem measured_around {first second last : Access} {loop : List Access}
    (hfirst : first.measured = none) (hsecond : second.measured = none)
    (hlast : last.measured = none) :
    (first :: second :: loop ++ [last]).filterMap Access.measured =
      loop.filterMap Access.measured := by
  rw [List.cons_append, List.cons_append, List.filterMap_cons_none hfirst,
    List.filterMap_cons_none hsecond, List.filterMap_append, List.filterMap_cons_none hlast,
    List.filterMap_nil, List.append_nil]

/-- The callback for an answer stores the measured values in it. -/
theorem measured_answer (number : ℕ) (answer : Answer) :
    answer.callback.filterMap Access.measured =
      (Happening.answer number answer).measurements := by
  cases answer with
  | matched result => rfl
  | bound result =>
    simp only [Answer.callback, zdoBindResult, bindResultErr, Happening.measurements]
    split <;> (try split_ifs) <;> rfl
  | attributes message =>
    simp only [Answer.callback, zclReadAttrRsp, Happening.measurements]
    by_cases hbasic : message.clusterId = clusterBasic
    · have hother : message.clusterId ≠ clusterTemperature := by rw [hbasic]; decide
      rw [if_pos hbasic, if_neg hother]
      rw [measured_around rfl rfl rfl, filterMap_flatMap_records measured_basicVariable]
      simp
    · rw [if_neg hbasic]
      split_ifs
      · rw [measured_around rfl rfl rfl, filterMap_flatMap_records measured_tempVariable]
      · rfl
  | configured status =>
    simp only [Answer.callback, zclConfigReportRsp, Happening.measurements]
    split_ifs <;> rfl

/-- The callback for a notice stores the measured values in it. -/
theorem measured_notice (notice : Notice) :
    notice.callback.filterMap Access.measured = (Happening.notice notice).measurements := by
  rcases notice with shortAddr | _ | message
  · rfl
  · rfl
  · simp only [Notice.callback, zclReportAttr, Happening.measurements]
    by_cases hcluster : message.clusterId = clusterTemperature
    · have hrecords := filterMap_flatMap_records measured_reportVariable message.inVariables
      rw [if_neg (not_not.mpr hcluster), if_pos hcluster, List.filterMap_append, hrecords]
      cases message.srcShortAddr <;> rfl
    · rw [if_pos hcluster, if_neg hcluster]
      rfl

/-! ### The steps of the two tasks -/

/-- What each step changes. -/
inductive System.Stepped (before : System) : Happening → System → Prop
  | call {call : ApiCall} (hidle : before.rpcTask = none) : Stepped before (.call call)
      { before with
        firmware := { before.firmware with calls := before.firmware.calls + 1 }
        rpcTask := some ⟨call, 0, zigbeeApi.perform call⟩ }
  | proceed {call : ApiCall} {passed : ℕ} {update : Firmware → Firmware}
      {next : Firmware → Prog Firmware Empty ApiValue}
      (htask : before.rpcTask = some ⟨call, passed, .query update next⟩) : Stepped before .proceed
      { before with
        firmware := update before.firmware
        rpcTask := some ⟨call, passed + 1, next before.firmware⟩ }
  | returns : Stepped before .returns { before with rpcTask := none }
  | answer {number : ℕ} {answer : Answer} (hidle : before.zigbeeTask = []) :
      Stepped before (.answer number answer)
        { before with
          zigbeeTask := answer.callback
          answering := some number
          answers := before.answers ++ [(number, answer)] }
  | notice {notice : Notice} (hidle : before.zigbeeTask = []) : Stepped before (.notice notice)
      { before with zigbeeTask := notice.callback, answering := none }
  | callback {access : Access} {rest : List Access} (htask : before.zigbeeTask = access :: rest) :
      Stepped before .callback
        { before with firmware := before.firmware.access access, zigbeeTask := rest }
  | outside {outside : Surroundings} : Stepped before (.outside outside)
      { before with firmware := { before.firmware with outside := outside } }

theorem System.Step.stepped {before after : System} {label : Happening}
    (hstep : before.Step label after) : before.Stepped label after := by
  unfold System.Step System.next at hstep
  cases label with
  | call call =>
    simp only at hstep
    split_ifs at hstep with hidle
    exact Option.some.inj hstep ▸ .call (Option.isNone_iff_eq_none.mp hidle)
  | proceed =>
    simp only at hstep
    split at hstep
    · rename_i htask
      exact Option.some.inj hstep ▸ .proceed htask
    · simp at hstep
  | returns =>
    simp only at hstep
    split at hstep
    · exact Option.some.inj hstep ▸ .returns
    · simp at hstep
  | answer number answer =>
    simp only at hstep
    split_ifs at hstep with hready
    exact Option.some.inj hstep ▸ .answer (List.isEmpty_iff.mp hready.1)
  | notice notice =>
    simp only at hstep
    split_ifs at hstep with hidle
    exact Option.some.inj hstep ▸ .notice (List.isEmpty_iff.mp hidle)
  | callback =>
    simp only at hstep
    split at hstep
    · simp at hstep
    · rename_i hbusy
      split_ifs at hstep
      exact Option.some.inj hstep ▸ .callback hbusy
  | outside outside => exact Option.some.inj hstep ▸ .outside

/-! ### What the functions do to the two variables -/

section Functions

variable (known : UInt16 → Prop)

/-- A function of the interface leaves `s_last_temp` alone, takes from the queue of match answers
and puts nothing in, and remembers only an address it knows to be good. -/
def remembering : Discipline Firmware Empty Unit where
  rely firmware := known firmware.lastSensorAddr ∧
    ∀ out ∈ firmware.matchQ, out.err = 0 → known out.shortAddr
  ask before after _ _ := after.lastTemp = before.lastTemp ∧
    (∀ out ∈ after.matchQ, out ∈ before.matchQ) ∧
      (after.lastSensorAddr = before.lastSensorAddr ∨ known after.lastSensorAddr)
  tell _ _ _ := True

/-- A call that leaves everything the discipline speaks of as it is. -/
def Untouched (before after : Firmware) : Prop :=
  after.lastTemp = before.lastTemp ∧ (∀ out ∈ after.matchQ, out ∈ before.matchQ) ∧
    after.lastSensorAddr = before.lastSensorAddr

variable {known}

theorem Untouched.ask {before after : Firmware} (huntouched : Untouched before after) :
    (remembering known).ask before after () () :=
  ⟨huntouched.1, huntouched.2.1, Or.inl huntouched.2.2⟩

theorem untouched_drain (firmware : Firmware) (channel : Channel) :
    Untouched firmware (firmware.drain channel) := by
  cases channel with
  | matchQ => exact ⟨rfl, by simp [Firmware.drain], rfl⟩
  | semaphore semaphore => exact ⟨rfl, fun _ hout ↦ hout, rfl⟩

theorem untouched_take (firmware : Firmware) (channel : Channel) :
    Untouched firmware (firmware.take channel) := by
  cases channel with
  | matchQ => exact ⟨rfl, fun _ hout ↦ List.mem_of_mem_tail hout, rfl⟩
  | semaphore semaphore => exact ⟨rfl, fun _ hout ↦ hout, rfl⟩

theorem Sends.untouched {channel : Channel} {send : StateM Firmware Int32}
    (hsends : Sends channel send) (firmware : Firmware) :
    Untouched firmware (send.run firmware).2 := by
  rcases hsends firmware with ⟨-, hsame⟩ | ⟨-, request, -, hsent⟩
  · rw [hsame]
    exact ⟨rfl, fun _ hout ↦ hout, rfl⟩
  · rw [hsent]
    exact ⟨rfl, fun _ hout ↦ hout, rfl⟩

/-- The functions that make a request. -/
theorem follows_exchange {channel : Channel} {send : StateM Firmware Int32}
    {failed : Int32 → ApiValue} {collect : channel.Item → Prog Firmware Empty ApiValue}
    {post : ApiValue → Unit → Prop}
    (hsends : Sends channel send) (hfailed : ∀ err, post (failed err) ())
    (hcollect : ∀ firmware item, (remembering known).rely firmware →
      firmware.holds channel = some item → (collect item).Follows (remembering known) post ()) :
    (exchange channel send failed collect).Follows (remembering known) post () := by
  rw [exchange_eq]
  intro drained hrely
  refine ⟨(), (untouched_drain drained channel).ask, fun sent hrely ↦ ?_⟩
  refine ⟨(), (hsends.untouched sent).ask, ?_⟩
  dsimp only
  by_cases herr : (send.run sent).1 ≠ ezbErrNone
  · rw [if_pos herr]
    exact hfailed _
  · rw [if_neg herr]
    intro received hrely
    refine ⟨(), (untouched_take received channel).ask, ?_⟩
    dsimp only
    cases hholds : received.holds channel with
    | none => exact hfailed _
    | some item => exact hcollect received item hrely hholds

theorem follows_readVariable {β : Type} {read : Firmware → β} {post : β → Unit → Prop}
    (hpost : ∀ firmware, (remembering known).rely firmware → post (read firmware) ()) :
    (readVariable read : Prog Firmware Empty β).Follows (remembering known) post () :=
  fun firmware hrely ↦ ⟨(), ⟨rfl, fun _ hout ↦ hout, Or.inl rfl⟩, hpost firmware hrely⟩

/-- What a call that has ended gives away of the remembered address. -/
def Tells (known : UInt16 → Prop) (call : ApiCall) (value : ApiValue) (_ : Unit) : Prop :=
  call = .getSensorAddr → ∃ shortAddr, value = .u16 shortAddr ∧ known shortAddr

theorem tells_of_ne {call : ApiCall} {value : ApiValue} (hcall : call ≠ .getSensorAddr) :
    Tells known call value () :=
  fun hsame ↦ absurd hsame hcall

/-- A function that makes one request, waits on a semaphore and returns the variable beside it. -/
theorem follows_cached {call : ApiCall} {semaphore : Semaphore} {send : StateM Firmware Int32}
    {failed : Int32 → ApiValue} (hsends : Sends (.semaphore semaphore) send)
    (hcall : call ≠ .getSensorAddr) :
    (exchange (.semaphore semaphore) send failed fun _ ↦ readVariable (·.cached semaphore)).Follows
      (remembering known) (Tells known call) () :=
  follows_exchange hsends (fun _ ↦ tells_of_ne hcall) fun _ _ _ _ ↦
    follows_readVariable fun _ _ ↦ tells_of_ne hcall

theorem follows_findSensor (shortAddr : UInt16) (timeoutMs : UInt32) :
    (ApiValue.addr <$> zigbeeFindSensor shortAddr timeoutMs : Prog Firmware Empty ApiValue).Follows
      (remembering known) (Tells known (.findSensor shortAddr timeoutMs)) () := by
  rw [zigbeeFindSensor, map_exchange]
  have htells {value : ApiValue} : Tells known (.findSensor shortAddr timeoutMs) value () :=
    tells_of_ne (by simp)
  refine follows_exchange (sends_ezbRequest rfl) (fun _ ↦ htells) fun firmware out hrely hholds ↦ ?_
  by_cases herr : out.err = 0
  · rw [rememberSensor, if_pos herr]
    intro later hlater
    have hknown : known out.shortAddr :=
      hrely.2 out (List.mem_of_head? hholds) herr
    exact ⟨(), ⟨rfl, fun _ hout ↦ hout, Or.inr hknown⟩, htells⟩
  · rw [rememberSensor, if_neg herr]
    exact htells

theorem follows_bindCommon {call : ApiCall} (remoteShort : UInt16) (remoteEp : UInt8)
    (toLocal : Bool) (timeoutMs : UInt32) (hcall : call ≠ .getSensorAddr) :
    (ApiValue.i32 <$> zigbeeBindCommon remoteShort remoteEp toLocal timeoutMs :
      Prog Firmware Empty ApiValue).Follows (remembering known) (Tells known call) () := by
  intro firmware hrely
  refine ⟨(), ⟨rfl, fun _ hout ↦ hout, Or.inl rfl⟩, ?_⟩
  show Prog.Follows _ _ (Prog.bind (if (!firmware.outside.memory) = true then _ else _) _) _
  cases firmware.outside.memory with
  | true =>
    show Prog.Follows _ _ (ApiValue.i32 <$> exchange (.semaphore .bindDone)
      (bindRequest remoteShort remoteEp toLocal) id fun _ ↦ readVariable (·.bindErr)) _
    rw [map_exchange]
    exact follows_cached (sends_bindRequest _ _ _) hcall
  | false => exact tells_of_ne hcall

/-- Every function of the interface. -/
theorem follows_perform (call : ApiCall) :
    (zigbeeApi.perform call).Follows (remembering known) (Tells known call) () := by
  cases call with
  | getSensorAddr => exact follows_readVariable fun firmware hrely _ ↦ ⟨_, rfl, hrely.1⟩
  | waitAnnce timeoutMs =>
    exact fun firmware hrely ↦ ⟨(), ⟨rfl, fun _ hout ↦ hout, Or.inl rfl⟩, tells_of_ne (by simp)⟩
  | findSensor shortAddr timeoutMs => exact follows_findSensor shortAddr timeoutMs
  | readBasic shortAddr ep timeoutMs =>
    show Prog.Follows _ _ (ApiValue.basic <$> zigbeeReadBasic shortAddr ep timeoutMs) _
    rw [zigbeeReadBasic, map_exchange]
    exact follows_cached (sends_ezbRequest rfl) (by simp)
  | bindSensor shortAddr ep timeoutMs => exact follows_bindCommon _ _ _ timeoutMs (by simp)
  | subscribeSensor shortAddr ep timeoutMs => exact follows_bindCommon _ _ _ timeoutMs (by simp)
  | configReport shortAddr ep timeoutMs =>
    show Prog.Follows _ _ (ApiValue.i32 <$> zigbeeConfigReport shortAddr ep timeoutMs) _
    rw [zigbeeConfigReport, map_exchange]
    exact follows_cached (sends_ezbRequest rfl) (by simp)
  | readTemp shortAddr ep timeoutMs =>
    show Prog.Follows _ _ (ApiValue.temp <$> zigbeeReadTemp shortAddr ep timeoutMs) _
    rw [zigbeeReadTemp, map_exchange]
    exact follows_cached (sends_ezbRequest rfl) (by simp)
  | _ =>
    exact fun firmware hrely ↦ ⟨(), ⟨rfl, fun _ hout ↦ hout, Or.inl rfl⟩, tells_of_ne (by simp)⟩

end Functions

/-! ### The address of the sensor -/

section SensorAddr

variable {known : UInt16 → Prop} {before after : System} {label : Happening}

/-- An access brings only addresses that are known. -/
def Access.Names (known : UInt16 → Prop) : Access → Prop
  | .sendMatch out => out.err = 0 → known out.shortAddr
  | .setLastSensorAddr shortAddr => known shortAddr
  | _ => True

/-- Only addresses that are known are remembered, wait in the queue of match answers, are in what
the current callback has still to do, or are remembered by the current call. -/
structure System.Remembers (known : UInt16 → Prop) (system : System) : Prop where
  sensor : known system.firmware.lastSensorAddr
  queued : ∀ out ∈ system.firmware.matchQ, out.err = 0 → known out.shortAddr
  pending : ∀ access ∈ system.zigbeeTask, access.Names known
  orderly : ∀ task, system.rpcTask = some task →
    task.prog.Follows (remembering known) (Tells known task.call) ()

theorem System.Remembers.initial (hzero : known 0) (outside : Surroundings) :
    (System.initial outside).Remembers known where
  sensor := hzero
  queued := fun _ hout ↦ absurd hout List.not_mem_nil
  pending := fun _ haccess ↦ absurd haccess List.not_mem_nil
  orderly := nofun

/-- The address in a match answer is zero, or that of the device whose endpoint the answer names. -/
theorem names_matched (hzero : known 0) (result : Option MatchDescResult)
    (hbrings : ∀ shortAddr ∈ ((matchedEndpoint result).map Prod.fst).toList, known shortAddr) :
    known (matchResultAddr result).shortAddr := by
  cases hmatched : matchedEndpoint result with
  | none =>
    rw [matchResultAddr_of_none hmatched]
    exact hzero
  | some endpoint =>
    rw [matchResultAddr_of_some hmatched]
    exact hbrings endpoint.1 (by simp [hmatched])

/-- An access that brings no address, whichever are known. -/
def Access.Aside (access : Access) : Prop := ∀ known, access.Names known

theorem aside_bindResultErr (result : Option BindResult) :
    ∀ access ∈ bindResultErr result, access.Aside := by
  unfold bindResultErr
  split
  · simp
  · split_ifs <;> simp [Access.Aside, Access.Names]
  · split_ifs <;> simp [Access.Aside, Access.Names]

theorem aside_basicVariable (var : ReadAttrVariable) :
    ∀ access ∈ basicVariable var, access.Aside := by
  unfold basicVariable
  split_ifs <;> simp [Access.Aside, Access.Names]

theorem aside_tempVariable (var : ReadAttrVariable) :
    ∀ access ∈ tempVariable var, access.Aside := by
  unfold tempVariable
  by_cases hstatus : var.status ≠ zclStatusSuccess
  · simp [hstatus]
  · rw [if_neg hstatus]
    split
    · simp [Access.Aside, Access.Names]
    · split_ifs <;> simp [Access.Aside, Access.Names]

theorem aside_reportVariable (var : ReportAttrVariable) :
    ∀ access ∈ reportVariable var, access.Aside := by
  unfold reportVariable
  split_ifs
  · cases var.attrValue <;> simp [Access.Aside, Access.Names]
  · simp

theorem aside_records {Record : Type} {body : Record → List Access}
    (hbody : ∀ record, ∀ access ∈ body record, access.Aside) (records : List Record) :
    ∀ access ∈ records.flatMap body, access.Aside := by
  intro access haccess
  obtain ⟨record, -, hrecord⟩ := List.mem_flatMap.mp haccess
  exact hbody record access hrecord

/-- The callback for an answer brings only addresses that the answer brings, or zero. -/
theorem names_answer (hzero : known 0) (number : ℕ) (answer : Answer)
    (hbrings : ∀ shortAddr ∈ (Happening.answer number answer).sensors, known shortAddr) :
    ∀ access ∈ answer.callback, access.Names known := by
  have haround {first last : Access} {loop : List Access} (hfirst : first.Aside)
      (hloop : ∀ access ∈ loop, access.Aside) (hlast : last.Aside) :
      ∀ access ∈ first :: loop ++ [last], access.Names known := by
    rw [List.cons_append, List.forall_mem_cons, List.forall_mem_append, List.forall_mem_singleton]
    exact ⟨hfirst known, fun access haccess ↦ hloop access haccess known, hlast known⟩
  cases answer with
  | matched result =>
    intro access haccess
    rw [List.mem_singleton.mp haccess]
    exact fun _ ↦ names_matched hzero result hbrings
  | bound result => exact haround (fun _ ↦ trivial) (aside_bindResultErr result) fun _ ↦ trivial
  | attributes message =>
    simp only [Answer.callback, zclReadAttrRsp]
    split_ifs
    · exact haround (fun _ ↦ trivial)
        (List.forall_mem_cons.mpr ⟨fun _ ↦ trivial, aside_records aside_basicVariable _⟩)
        fun _ ↦ trivial
    · exact haround (fun _ ↦ trivial)
        (List.forall_mem_cons.mpr ⟨fun _ ↦ trivial, aside_records aside_tempVariable _⟩)
        fun _ ↦ trivial
    · simp
  | configured status =>
    refine haround (fun _ ↦ trivial) ?_ fun _ ↦ trivial
    split_ifs <;> simp [Access.Aside, Access.Names]

/-- The callback for a notice brings only addresses that the notice brings. -/
theorem names_notice (notice : Notice)
    (hbrings : ∀ shortAddr ∈ (Happening.notice notice).sensors, known shortAddr) :
    ∀ access ∈ notice.callback, access.Names known := by
  rcases notice with shortAddr | _ | message
  · intro access haccess
    rw [List.mem_singleton.mp haccess]
    trivial
  · simp [Notice.callback, zclReportAttr]
  · simp only [Notice.callback, zclReportAttr]
    by_cases hcluster : message.clusterId = clusterTemperature
    · rw [if_neg (not_not.mpr hcluster), List.forall_mem_append]
      refine ⟨fun access haccess ↦ ?_,
        fun access haccess ↦ aside_records aside_reportVariable _ access haccess known⟩
      obtain ⟨shortAddr, hshortAddr, rfl⟩ :=
        Option.map_eq_some_iff.mp (Option.mem_toList.mp haccess)
      refine hbrings shortAddr ?_
      simpa [Happening.sensors, hcluster] using hshortAddr
    · simp [hcluster]

/-- An access of a callback. -/
theorem System.Remembers.access (hremembers : before.Remembers known) {access : Access}
    (hnames : access.Names known) :
    known (before.firmware.access access).lastSensorAddr ∧
      ∀ out ∈ (before.firmware.access access).matchQ, out.err = 0 → known out.shortAddr := by
  cases access with
  | sendMatch out =>
    refine ⟨hremembers.sensor, fun queued hqueued ↦ ?_⟩
    simp only [Firmware.access, xQueueSend] at hqueued
    split_ifs at hqueued
    · rcases List.mem_append.mp hqueued with hold | hnew
      · exact hremembers.queued queued hold
      · rw [List.mem_singleton.mp hnew]
        exact hnames
    · exact hremembers.queued queued hqueued
  | setLastSensorAddr shortAddr => exact ⟨hnames, hremembers.queued⟩
  | _ => exact ⟨hremembers.sensor, hremembers.queued⟩

theorem System.Remembers.step (hzero : known 0) (hremembers : before.Remembers known)
    (hbrings : ∀ shortAddr ∈ label.sensors, known shortAddr) (hstep : before.Step label after) :
    after.Remembers known := by
  cases hstep.stepped with
  | @call call hidle =>
    refine ⟨hremembers.sensor, hremembers.queued, hremembers.pending, ?_⟩
    rintro _ ⟨⟩
    exact follows_perform call
  | proceed htask =>
    obtain ⟨_, ⟨-, hqueue, haddr⟩, hnext⟩ := hremembers.orderly _ htask before.firmware
      ⟨hremembers.sensor, hremembers.queued⟩
    refine ⟨?_, fun out hout ↦ hremembers.queued out (hqueue out hout), hremembers.pending, ?_⟩
    · rcases haddr with hsame | hknown
      · show known _
        rw [hsame]
        exact hremembers.sensor
      · exact hknown
    · rintro _ ⟨⟩
      exact hnext
  | returns => exact ⟨hremembers.sensor, hremembers.queued, hremembers.pending, nofun⟩
  | @answer number answer hidle =>
    exact ⟨hremembers.sensor, hremembers.queued, names_answer hzero number answer hbrings,
      hremembers.orderly⟩
  | @notice notice hidle =>
    exact ⟨hremembers.sensor, hremembers.queued, names_notice notice hbrings, hremembers.orderly⟩
  | @callback access rest htask =>
    have hpending := hremembers.pending
    rw [htask, List.forall_mem_cons] at hpending
    obtain ⟨hsensor, hqueued⟩ := hremembers.access hpending.1
    exact ⟨hsensor, hqueued, hpending.2, hremembers.orderly⟩
  | outside => exact ⟨hremembers.sensor, hremembers.queued, hremembers.pending, hremembers.orderly⟩

/-- Over a run that brings only known addresses. -/
theorem System.Remembers.run (hzero : known 0) {outside : Surroundings} {labels : List Happening}
    {system : System} (hrun : Run System.Step (.initial outside) labels system)
    (hbrings : ∀ label ∈ labels, ∀ shortAddr ∈ label.sensors, known shortAddr) :
    system.Remembers known := by
  induction hrun with
  | refl => exact .initial hzero outside
  | tail _ hstep ih =>
    rw [List.forall_mem_append] at hbrings
    exact (ih hbrings.1).step hzero (hbrings.2 _ (List.mem_singleton_self _)) hstep

/-- The remembered address is never made up: in every run, whatever the two tasks do in between, it
is zero, the source of a temperature report, or the device whose endpoint a match answer names; and
so is what `zigbee_get_sensor_addr` returns. -/
theorem sensor_addr_genuine {outside : Surroundings} {labels : List Happening} {system : System}
    (hrun : Run System.Step (.initial outside) labels system) :
    (system.firmware.lastSensorAddr = 0 ∨
        ∃ label ∈ labels, system.firmware.lastSensorAddr ∈ label.sensors) ∧
      ∀ passed value, system.rpcTask = some ⟨.getSensorAddr, passed, .done value⟩ →
        ∃ shortAddr, value = .u16 shortAddr ∧
          (shortAddr = 0 ∨ ∃ label ∈ labels, shortAddr ∈ label.sensors) := by
  have hremembers : system.Remembers fun shortAddr ↦
      shortAddr = 0 ∨ ∃ label ∈ labels, shortAddr ∈ label.sensors :=
    .run (Or.inl rfl) hrun fun label hlabel shortAddr hbrings ↦ Or.inr ⟨label, hlabel, hbrings⟩
  exact ⟨hremembers.sensor, fun passed value htask ↦ hremembers.orderly _ htask rfl⟩

/-- A temperature report of device 0x1956. -/
def reportOf (high low : UInt8) : ReportAttrMessage :=
  ⟨clusterTemperature, some 0x1956, [⟨attrMeasuredValue, some [low, high]⟩]⟩

/-- The steps that can be made from a state on, as a run. -/
theorem System.run_of_execute (start : System) {finish : System} (labels : List Happening)
    (hexecute : execute System.next (fun _ _ ↦ true) start labels = some finish) :
    Run System.Step start labels finish :=
  Run.of_execute (fun hnext ↦ hnext) .refl hexecute

/-- The source of a report is remembered. -/
theorem sensor_addr_genuine_report :
    ∃ system, Run System.Step (.initial Firmware.blank.outside)
        [.notice (.reportAttr (some (reportOf 0x08 0x66))), .callback] system ∧
      system.firmware.lastSensorAddr = 0x1956 ∧
      (system.firmware.lastSensorAddr = 0 ∨
        ∃ label ∈ [Happening.notice (.reportAttr (some (reportOf 0x08 0x66))), .callback],
          system.firmware.lastSensorAddr ∈ label.sensors) := by
  have hrun := System.run_of_execute (.initial Firmware.blank.outside)
    [.notice (.reportAttr (some (reportOf 0x08 0x66))), .callback] rfl
  exact ⟨_, hrun, rfl, (sensor_addr_genuine hrun).1⟩

end SensorAddr

/-! ### The measured value -/

section LastTemp

variable {before after : System} {label : Happening} {settled : ℕ} {seen : List Int16}

/-- `s_last_temp` is the last of the values that have been stored, and the current callback has the
others still to store. Of the values at least `settled` have been stored. -/
def System.Current (system : System) (settled : ℕ) (seen : List Int16) : Prop :=
  ∃ past, seen = past ++ system.pending ∧ settled ≤ past.length ∧
    system.firmware.lastTemp = past.getLastD 0

theorem lastTemp_access (firmware : Firmware) (access : Access) :
    (firmware.access access).lastTemp = access.measured.getD firmware.lastTemp := by
  cases access <;> rfl

/-- A callback stores its next value, if the access is one that stores. -/
theorem System.Current.callback {access : Access} {rest : List Access}
    (hcurrent : before.Current settled seen) (htask : before.zigbeeTask = access :: rest) :
    System.Current { before with firmware := before.firmware.access access, zigbeeTask := rest }
      settled seen := by
  obtain ⟨past, hseen, hsettled, hlast⟩ := hcurrent
  rw [System.pending, htask] at hseen
  cases hmeasured : access.measured with
  | none =>
    rw [List.filterMap_cons_none hmeasured] at hseen
    refine ⟨past, hseen, hsettled, ?_⟩
    rw [← hlast]
    exact (lastTemp_access _ access).trans (by rw [hmeasured]; rfl)
  | some value =>
    rw [List.filterMap_cons_some hmeasured, List.append_cons] at hseen
    refine ⟨past ++ [value], hseen, by simp; omega, ?_⟩
    refine (lastTemp_access _ access).trans ?_
    rw [hmeasured, Option.getD_some, List.getLastD_concat]

/-- A new callback has all of its values still to store. -/
theorem System.Current.begin {callback : List Access} {new : List Int16}
    (hcurrent : before.Current settled seen) (hidle : before.zigbeeTask = [])
    (hnew : callback.filterMap Access.measured = new) (hafter : after.zigbeeTask = callback)
    (hsame : after.firmware.lastTemp = before.firmware.lastTemp) :
    after.Current settled (seen ++ new) := by
  obtain ⟨past, hseen, hsettled, hlast⟩ := hcurrent
  have hpast : seen = past := by simpa [System.pending, hidle] using hseen
  refine ⟨past, ?_, hsettled, hsame.trans hlast⟩
  rw [System.pending, hafter, hnew, hpast]

theorem System.Current.same (hcurrent : before.Current settled seen)
    (htask : after.zigbeeTask = before.zigbeeTask)
    (hsame : after.firmware.lastTemp = before.firmware.lastTemp) :
    after.Current settled (seen ++ []) := by
  obtain ⟨past, hseen, hsettled, hlast⟩ := hcurrent
  refine ⟨past, ?_, hsettled, hsame.trans hlast⟩
  rw [System.pending, htask, List.append_nil]
  exact hseen

theorem System.Current.step (hcurrent : before.Current settled seen)
    (hremembers : before.Remembers fun _ ↦ True) (hstep : before.Step label after) :
    after.Current settled (seen ++ label.measurements) := by
  cases hstep.stepped with
  | call hidle => exact hcurrent.same rfl rfl
  | proceed htask =>
    obtain ⟨_, ⟨hsame, -⟩, -⟩ := hremembers.orderly _ htask before.firmware
      ⟨hremembers.sensor, hremembers.queued⟩
    exact hcurrent.same rfl hsame
  | returns => exact hcurrent.same rfl rfl
  | @answer number answer hidle =>
    exact hcurrent.begin hidle (measured_answer number answer) rfl rfl
  | @notice notice hidle => exact hcurrent.begin hidle (measured_notice notice) rfl rfl
  | callback htask =>
    simp only [Happening.measurements, List.append_nil]
    exact hcurrent.callback htask
  | outside => exact hcurrent.same rfl rfl

theorem measurements_concat (labels : List Happening) (label : Happening) :
    measurements (labels ++ [label]) = measurements labels ++ label.measurements := by
  simp [measurements]

/-- The addresses are of no concern here. -/
theorem System.Remembers.any {outside : Surroundings} {labels : List Happening} {system : System}
    (hrun : Run System.Step (.initial outside) labels system) :
    system.Remembers fun _ ↦ True :=
  .run trivial hrun fun _ _ _ _ ↦ trivial

/-- In every run `s_last_temp` is the last of the values stored so far. -/
theorem System.Current.run {outside : Surroundings} {labels : List Happening} {system : System}
    (hrun : Run System.Step (.initial outside) labels system) :
    system.Current ((measurements labels).length - system.pending.length)
      (measurements labels) := by
  suffices hzero : system.Current 0 (measurements labels) by
    obtain ⟨past, hseen, -, hlast⟩ := hzero
    refine ⟨past, hseen, ?_, hlast⟩
    rw [hseen, List.length_append]
    omega
  induction hrun with
  | refl => exact ⟨[], rfl, Nat.le_refl 0, rfl⟩
  | tail hrun hstep ih =>
    rw [measurements_concat]
    exact ih.step (.any hrun) hstep

/-- How far a call of `zigbee_get_last_temp` has come: it has not read the variable yet, or has read
what was the latest value then. -/
inductive Reading (settled : ℕ) (seen : List Int16) : RpcCall → Prop
  | waits {passed : ℕ} : Reading settled seen ⟨.getLastTemp, passed, zigbeeApi.perform .getLastTemp⟩
  | hasRead {passed : ℕ} {past : List Int16} (hpast : past <+: seen)
      (hsettled : settled ≤ past.length) :
      Reading settled seen ⟨.getLastTemp, passed, .done (.i16 (past.getLastD 0))⟩

theorem Reading.mono {new : List Int16} {task : RpcCall} (hreading : Reading settled seen task) :
    Reading settled (seen ++ new) task := by
  cases hreading with
  | waits => exact .waits
  | hasRead hpast hsettled => exact .hasRead (hpast.trans (List.prefix_append seen new)) hsettled

/-- A step other than the return of the call. -/
theorem Reading.step (hcurrent : before.Current settled seen)
    (hreading : ∃ task, before.rpcTask = some task ∧ Reading settled seen task)
    (hstep : before.Step label after) (hgoes : label ≠ .returns) :
    ∃ task, after.rpcTask = some task ∧ Reading settled (seen ++ label.measurements) task := by
  obtain ⟨task, htask, hreading⟩ := hreading
  cases hstep.stepped with
  | call hidle => simp [hidle] at htask
  | proceed hnext =>
    obtain rfl := Option.some.inj (htask.symm.trans hnext)
    refine ⟨_, rfl, ?_⟩
    generalize hprog : Prog.query _ _ = prog at hreading
    cases hreading with
    | waits =>
      obtain ⟨rfl, rfl⟩ := Prog.query.inj hprog
      obtain ⟨past, hseen, hsettled, hlast⟩ := hcurrent
      refine Reading.mono ?_
      show Reading settled seen ⟨_, _, .done (.i16 before.firmware.lastTemp)⟩
      rw [hlast]
      exact .hasRead ⟨_, hseen.symm⟩ hsettled
    | hasRead => cases hprog
  | returns => exact absurd rfl hgoes
  | answer => exact ⟨task, htask, hreading.mono⟩
  | notice => exact ⟨task, htask, hreading.mono⟩
  | callback => exact ⟨task, htask, hreading.mono⟩
  | outside => exact ⟨task, htask, hreading.mono⟩

/-- Everything that is kept while a call of `zigbee_get_last_temp` goes on. -/
theorem reading_run {outside : Surroundings} {earlier during : List Happening}
    {before called after : System} (hearlier : Run System.Step (.initial outside) earlier before)
    (hcall : before.Step (.call .getLastTemp) called)
    (hduring : Run System.Step called during after) (hgoes : .returns ∉ during) :
    (after.Remembers fun _ ↦ True) ∧
      after.Current ((measurements earlier).length - before.pending.length)
        (measurements earlier ++ measurements during) ∧
      ∃ task, after.rpcTask = some task ∧
        Reading ((measurements earlier).length - before.pending.length)
          (measurements earlier ++ measurements during) task := by
  induction hduring with
  | refl =>
    have hcurrent := (System.Current.run hearlier).step (.any hearlier) hcall
    refine ⟨(System.Remembers.any hearlier).step trivial (fun _ _ ↦ trivial) hcall, hcurrent, ?_⟩
    cases hcall.stepped with
    | call hidle => exact ⟨_, rfl, .waits⟩
  | @tail labels middle after label hrun hstep ih =>
    rw [List.mem_append, not_or, List.mem_singleton] at hgoes
    obtain ⟨hremembers, hcurrent, hreading⟩ := ih hgoes.1
    rw [measurements_concat, ← List.append_assoc]
    exact ⟨hremembers.step trivial (fun _ _ ↦ trivial) hstep, hcurrent.step hremembers hstep,
      Reading.step hcurrent hreading hstep (Ne.symm hgoes.2)⟩

/-- What `zigbee_get_last_temp` returns is current: whatever the two tasks do between its call and
its return, it is the last of some first part of the measured values the run has brought (or zero if
there is none), a part that has at least all the values that had been stored when the function was
called. -/
theorem get_last_temp_current {outside : Surroundings} {earlier during : List Happening}
    {before called after : System} (hearlier : Run System.Step (.initial outside) earlier before)
    (hcall : before.Step (.call .getLastTemp) called)
    (hduring : Run System.Step called during after) (hgoes : .returns ∉ during)
    {call : ApiCall} {passed : ℕ} {value : ApiValue}
    (hdone : after.rpcTask = some ⟨call, passed, .done value⟩) :
    ∃ past, value = .i16 (past.getLastD 0) ∧
      past <+: measurements earlier ++ measurements during ∧
      (measurements earlier).length ≤ past.length + before.pending.length := by
  obtain ⟨-, -, task, htask, hreading⟩ := reading_run hearlier hcall hduring hgoes
  obtain rfl := Option.some.inj (htask.symm.trans hdone)
  generalize hprog : Prog.done value = prog at hreading
  cases hreading with
  | waits => cases hprog
  | @hasRead _ past hpast hsettled =>
    obtain rfl := Prog.done.inj hprog
    exact ⟨past, rfl, hpast, by omega⟩

/-- A report of 21.50 degrees is stored, and one of 22.00 degrees arrives while the function runs
and comes too late. -/
theorem get_last_temp_current_warm :
    ∃ after, Run System.Step (.initial Firmware.blank.outside)
        [.notice (.reportAttr (some (reportOf 0x08 0x66))), .callback, .callback,
          .call .getLastTemp, .notice (.reportAttr (some (reportOf 0x08 0x98))), .callback,
          .proceed, .callback] after ∧
      after.rpcTask = some ⟨.getLastTemp, 1, .done (.i16 2150)⟩ ∧
      ∃ past : List Int16, ApiValue.i16 2150 = .i16 (past.getLastD 0) ∧ past <+: [2150, 2200] ∧
        1 ≤ past.length := by
  have hearlier := System.run_of_execute (.initial Firmware.blank.outside)
    [.notice (.reportAttr (some (reportOf 0x08 0x66))), .callback, .callback] rfl
  refine ⟨_, System.run_of_execute _ _ rfl, rfl, ?_⟩
  exact get_last_temp_current hearlier rfl (System.run_of_execute _
    [.notice (.reportAttr (some (reportOf 0x08 0x98))), .callback, .proceed, .callback] rfl)
    (by simp) rfl

end LastTemp

end ZigbeeRemote.Server.ZigbeeStack
