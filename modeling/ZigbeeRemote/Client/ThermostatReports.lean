import ZigbeeRemote.Client.ThermostatApp

/-!
# Where the application's data come from

What `thermostat_app::run` presents and which devices it turns to, whatever the interface answers.
Every report shows the answer to the last call before it, an answer that was not a failure unless the
call was one of `get_last_temp`, which has no way to report one; and that call is always followed by
its report. Every device it binds, subscribes or reads is one that `find_sensor` has found. It ends
with success exactly when `read_temp` has succeeded, and nothing is called after `read_temp`.

`holds_run` is all of this, put together from one statement for each part of the application.
-/

set_option autoImplicit false
set_option relaxedAutoImplicit false

namespace ZigbeeRemote.Client.ThermostatApp

open Foundation Zigbee

/-! ### What a step may do after the steps before it -/

/-- The last call among the steps. -/
def lastCall (events : List Event) : Option Call := (calls events).getLast?

/-- A report shows what a call has answered. -/
def Shows : Call → Report → Prop
  | ⟨.getLastTemp, value⟩, .lastTemp shown => shown = value
  | ⟨.readBasic _ _ _, basic⟩, .model text => text = basic.model
  | ⟨.readBasic _ _ _, basic⟩, .manufacturer text => text = basic.manufacturer
  | ⟨.readTemp _ _ _, attrs⟩, .temperatures measured minMeasured maxMeasured =>
    measured = attrs.measured ∧ minMeasured = attrs.minMeasured ∧ maxMeasured = attrs.maxMeasured
  | _, _ => False

/-- The device a call reads, binds, subscribes to or configures. -/
def deviceOf : ApiCall → Option (UInt16 × UInt8)
  | .readBasic shortAddr ep _ => some (shortAddr, ep)
  | .bindSensor shortAddr ep _ => some (shortAddr, ep)
  | .subscribeSensor shortAddr ep _ => some (shortAddr, ep)
  | .configReport shortAddr ep _ => some (shortAddr, ep)
  | .readTemp shortAddr ep _ => some (shortAddr, ep)
  | _ => none

/-- `find_sensor` has found this device. -/
def Found (events : List Event) (device : UInt16 × UInt8) : Prop :=
  ∃ shortAddr timeoutMs, ∃ sensor : ZigbeeAddr,
    .asked (.findSensor shortAddr timeoutMs) sensor ∈ events ∧ sensor.err = 0 ∧
      device = (sensor.shortAddr, sensor.ep)

/-- A call of `read_temp` that succeeded. -/
def Event.isReading : Event → Bool
  | .asked (.readTemp _ _ _) attrs => decide (attrs.err = 0)
  | _ => false

/-- A call of `read_temp`. -/
def Event.readsTemp : Event → Bool
  | .asked (.readTemp _ _ _) _ => true
  | _ => false

/-- A call of `get_last_temp`. -/
def Event.getsLastTemp : Event → Bool
  | .asked .getLastTemp _ => true
  | _ => false

/-- Steps after which another call can be made: `read_temp` has not been called, and the last answer
of `get_last_temp` has been reported. -/
structure Ready (events : List Event) : Prop where
  unread : ∀ event ∈ events, Event.readsTemp event = false
  reported : ∀ event, events.getLast? = some event → Event.getsLastTemp event = false

/-- The calls that may follow given steps. -/
def MayAsk (events : List Event) (call : ApiCall) : Prop :=
  Ready events ∧ ∀ device, deviceOf call = some device → Found events device

/-- The reports that may follow given steps. -/
def MayTell (events : List Event) (report : Report) : Prop :=
  ∃ call, lastCall events = some call ∧ Shows call report ∧
    (call.1 = .getLastTemp ∨ failed call = false)

/-- How the application may end after given steps. -/
def MayEnd (events : List Event) (result : Result) : Prop :=
  (∀ event, events.getLast? = some event → Event.getsLastTemp event = false) ∧
    (result = .success ↔ ∃ event ∈ events, Event.isReading event = true)

/-! ### Steps are added -/

section Steps

variable {events : List Event}

theorem Ready.nil : Ready [] := ⟨by simp, by simp⟩

theorem reported_concat {event : Event} (hgets : Event.getsLastTemp event = false) :
    ∀ last, (events ++ [event]).getLast? = some last → Event.getsLastTemp last = false := by
  intro last hlast
  rw [List.getLast?_concat, Option.some.injEq] at hlast
  rw [← hlast]
  exact hgets

theorem unread_concat (hunread : ∀ event ∈ events, Event.readsTemp event = false) {event : Event}
    (hreads : Event.readsTemp event = false) :
    ∀ other ∈ events ++ [event], Event.readsTemp other = false := by
  rw [List.forall_mem_append, List.forall_mem_singleton]
  exact ⟨hunread, hreads⟩

theorem Ready.asked (hready : Ready events) (call : ApiCall) (answer : call.Result)
    (hreads : Event.readsTemp (.asked call answer) = false)
    (hgets : Event.getsLastTemp (.asked call answer) = false) :
    Ready (events ++ [.asked call answer]) :=
  ⟨unread_concat hready.unread hreads, reported_concat hgets⟩

theorem unread_append_noted (hunread : ∀ event ∈ events, Event.readsTemp event = false)
    (report : Report) : Ready (events ++ [.noted report]) :=
  ⟨unread_concat hunread rfl, reported_concat rfl⟩

theorem Found.append {device : UInt16 × UInt8} (hfound : Found events device) (event : Event) :
    Found (events ++ [event]) device := by
  obtain ⟨shortAddr, timeoutMs, sensor, hmem, hrest⟩ := hfound
  exact ⟨shortAddr, timeoutMs, sensor, List.mem_append_left _ hmem, hrest⟩

theorem found_of_findSensor (events : List Event) {shortAddr : UInt16} {timeoutMs : UInt32}
    {sensor : ZigbeeAddr} (hsensor : sensor.err = 0) :
    Found (events ++ [.asked (.findSensor shortAddr timeoutMs) sensor])
      (sensor.shortAddr, sensor.ep) :=
  ⟨shortAddr, timeoutMs, sensor, List.mem_append_right _ (List.mem_singleton.mpr rfl), hsensor, rfl⟩

@[simp] theorem lastCall_append_asked (call : ApiCall) (answer : call.Result) :
    lastCall (events ++ [.asked call answer]) = some ⟨call, answer⟩ := by
  simp [lastCall]

@[simp] theorem lastCall_append_noted (report : Report) :
    lastCall (events ++ [.noted report]) = lastCall events := by
  simp [lastCall]

theorem Ready.not_isReading (hready : Ready events) (event : Event) (hmem : event ∈ events) :
    ¬ Event.isReading event = true := by
  intro hreading
  have hunread := hready.unread event hmem
  match event with
  | .asked (.readTemp _ _ _) _ => cases hunread

/-- Before `read_temp`, an end without success. -/
theorem Ready.mayEnd (hready : Ready events) {result : Result} (hresult : result ≠ .success) :
    MayEnd events result := by
  refine ⟨hready.reported, iff_of_false hresult ?_⟩
  rintro ⟨event, hmem, hreading⟩
  exact hready.not_isReading event hmem hreading

end Steps

/-! ### The parts of the application -/

section Parts

variable {α : Type} {events : List Event} {asks : List Event → ApiCall → Prop}
  {tells : List Event → Report → Prop} {post : List Event → α → Prop}

theorem holds_ask_bind {call : ApiCall} {next : call.Result → App α} (hmay : asks events call)
    (hnext : ∀ answer, (next answer).Holds asks tells post (events ++ [.asked call answer])) :
    (ask call >>= next).Holds asks tells post events := ⟨hmay, hnext⟩

theorem holds_tell_bind {report : Report} {next : Unit → App α} (hmay : tells events report)
    (hnext : (next ()).Holds asks tells post (events ++ [.noted report])) :
    (Script.tell report >>= next).Holds asks tells post events := ⟨hmay, hnext⟩

theorem holds_return {value : α} (hpost : post events value) :
    (return value : App α).Holds asks tells post events := hpost

theorem mayAsk_of_noDevice (hready : Ready events) {call : ApiCall} (hcall : deviceOf call = none) :
    MayAsk events call :=
  ⟨hready, fun device hdevice ↦ by rw [hcall] at hdevice; cases hdevice⟩

theorem mayAsk_of_found (hready : Ready events) {call : ApiCall} {device : UInt16 × UInt8}
    (hcall : deviceOf call = some device) (hfound : Found events device) : MayAsk events call := by
  refine ⟨hready, fun other hother ↦ ?_⟩
  rw [hcall, Option.some.injEq] at hother
  rw [← hother]
  exact hfound

theorem holds_readSensor {sensor : ZigbeeAddr} (hready : Ready events)
    (hfound : Found events (sensor.shortAddr, sensor.ep)) :
    (readSensor sensor).Holds MayAsk MayTell MayEnd events := by
  refine holds_ask_bind (mayAsk_of_found hready rfl hfound) fun attrs ↦ ?_
  by_cases hattrs : attrs.err ≠ 0
  · rw [if_pos hattrs]
    refine holds_return ⟨reported_concat rfl, iff_of_false (by simp) ?_⟩
    rintro ⟨event, hmem, hreading⟩
    rcases List.mem_append.mp hmem with hearlier | hnow
    · exact absurd hreading (hready.not_isReading event hearlier)
    · rw [List.mem_singleton.mp hnow] at hreading
      exact hattrs (of_decide_eq_true hreading)
  · rw [if_neg hattrs]
    have hsuccess : attrs.err = 0 := not_not.mp hattrs
    refine holds_tell_bind ?_ (holds_return ⟨reported_concat rfl, iff_of_true rfl ?_⟩)
    · refine ⟨_, lastCall_append_asked _ _, ⟨rfl, rfl, rfl⟩, Or.inr ?_⟩
      simp [failed, hsuccess]
    · refine ⟨.asked (.readTemp sensor.shortAddr sensor.ep kRequestTimeoutMs) attrs, by simp, ?_⟩
      exact decide_eq_true hsuccess

/-- The loop leaves a device found and another call possible. -/
theorem holds_reportTemperatures {device : UInt16 × UInt8} (count : ℕ) (hready : Ready events)
    (hfound : Found events device) :
    (reportTemperatures count).Holds MayAsk MayTell
      (fun later _ ↦ Ready later ∧ Found later device) events := by
  induction count generalizing events with
  | zero => exact holds_return ⟨hready, hfound⟩
  | succ count ih =>
    refine holds_ask_bind (mayAsk_of_noDevice hready rfl) fun last ↦ ?_
    refine holds_tell_bind ⟨_, lastCall_append_asked _ _, rfl, Or.inl rfl⟩ ?_
    exact ih (unread_append_noted (unread_concat hready.unread rfl) _) ((hfound.append _).append _)

theorem holds_configure {sensor : ZigbeeAddr} (hready : Ready events)
    (hfound : Found events (sensor.shortAddr, sensor.ep)) :
    (configure sensor).Holds MayAsk MayTell
      (fun later _ ↦ Ready later ∧ Found later (sensor.shortAddr, sensor.ep)) events := by
  refine holds_ask_bind (mayAsk_of_found hready rfl hfound) fun basic ↦ ?_
  have hread := hready.asked (.readBasic sensor.shortAddr sensor.ep kRequestTimeoutMs) basic rfl rfl
  have hkept := hfound.append (.asked (.readBasic sensor.shortAddr sensor.ep kRequestTimeoutMs) basic)
  by_cases hbasic : basic.err ≠ 0
  · rw [if_pos hbasic]
    exact holds_return ⟨hread, hkept⟩
  rw [if_neg hbasic]
  have hnotFailed : failed ⟨.readBasic sensor.shortAddr sensor.ep kRequestTimeoutMs, basic⟩ = false := by
    simp [failed, not_not.mp hbasic]
  refine holds_tell_bind ⟨_, lastCall_append_asked _ _, rfl, Or.inr hnotFailed⟩ ?_
  refine holds_tell_bind ⟨⟨.readBasic sensor.shortAddr sensor.ep kRequestTimeoutMs, basic⟩,
    by rw [lastCall_append_noted, lastCall_append_asked], rfl, Or.inr hnotFailed⟩ ?_
  have hnamed := unread_append_noted
    (unread_append_noted hread.unread (.model basic.model)).unread (.manufacturer basic.manufacturer)
  have hstill := (hkept.append (.noted (.model basic.model))).append
    (.noted (.manufacturer basic.manufacturer))
  refine holds_ask_bind (mayAsk_of_found hnamed rfl hstill) fun bindStatus ↦ ?_
  have hbound := hnamed.asked (.bindSensor sensor.shortAddr sensor.ep kRequestTimeoutMs) bindStatus
    rfl rfl
  by_cases hbind : bindStatus ≠ 0
  · rw [if_pos hbind]
    exact holds_return ⟨hbound, hstill.append _⟩
  rw [if_neg hbind]
  refine holds_ask_bind (mayAsk_of_found hbound rfl (hstill.append _)) fun subscribeStatus ↦ ?_
  have hsubscribed := hbound.asked (.subscribeSensor sensor.shortAddr sensor.ep kRequestTimeoutMs)
    subscribeStatus rfl rfl
  by_cases hsubscribe : subscribeStatus ≠ 0
  · rw [if_pos hsubscribe]
    exact holds_return ⟨hsubscribed, (hstill.append _).append _⟩
  rw [if_neg hsubscribe]
  refine holds_ask_bind (mayAsk_of_found hsubscribed rfl ((hstill.append _).append _))
    fun reportStatus ↦ ?_
  exact holds_return ⟨hsubscribed.asked _ reportStatus rfl rfl,
    ((hstill.append _).append _).append _⟩

theorem holds_commission (hready : Ready events) :
    commission.Holds MayAsk MayTell (fun later found ↦ Ready later ∧
      ∀ sensor, found = some sensor → Found later (sensor.shortAddr, sensor.ep)) events := by
  refine holds_ask_bind (mayAsk_of_noDevice hready rfl) fun openStatus ↦ ?_
  have hopened := hready.asked (.openNetwork kOpenNetworkSeconds) openStatus rfl rfl
  by_cases hopen : openStatus ≠ 0
  · rw [if_pos hopen]
    exact holds_return ⟨hopened, by simp⟩
  rw [if_neg hopen]
  refine holds_ask_bind (mayAsk_of_noDevice hopened rfl) fun peer ↦ ?_
  have hannounced := hopened.asked (.waitAnnce kAnnceTimeoutMs) peer rfl rfl
  by_cases hpeer : peer = 0
  · rw [if_pos hpeer]
    exact holds_return ⟨hannounced, by simp⟩
  rw [if_neg hpeer]
  refine holds_ask_bind (mayAsk_of_noDevice hannounced rfl) fun sensor ↦ ?_
  have hsearched := hannounced.asked (.findSensor peer kRequestTimeoutMs) sensor rfl rfl
  by_cases hsensor : sensor.err ≠ 0
  · rw [if_pos hsensor]
    exact holds_return ⟨hsearched, by simp⟩
  rw [if_neg hsensor]
  refine Script.Holds.bind ((holds_configure hsearched
    (found_of_findSensor _ (not_not.mp hsensor))).imp fun later configured hlater ↦ ?_)
  refine holds_return ⟨hlater.1, fun other hother ↦ ?_⟩
  cases configured with
  | false => cases hother
  | true =>
    cases hother
    exact hlater.2

theorem holds_knownSensor (probe : Bool) (panid : UInt16) (hready : Ready events) :
    (knownSensor probe panid).Holds MayAsk MayTell (fun later known ↦ Ready later ∧
      ∀ sensor, known = .reused sensor → Found later (sensor.shortAddr, sensor.ep)) events := by
  unfold knownSensor
  by_cases hprobe : (probe && panid != 0) = true
  · rw [if_pos hprobe]
    refine holds_ask_bind (mayAsk_of_noDevice hready rfl) fun address ↦ ?_
    have hasked := hready.asked .getSensorAddr address rfl rfl
    by_cases hinvalid : address = kInvalidShortAddr
    · rw [if_pos hinvalid]
      exact holds_return ⟨hasked, by simp⟩
    rw [if_neg hinvalid]
    by_cases hzero : address ≠ 0
    · rw [if_pos hzero]
      refine holds_ask_bind (mayAsk_of_noDevice hasked rfl) fun sensor ↦ ?_
      refine holds_return ⟨hasked.asked _ sensor rfl rfl, fun other hother ↦ ?_⟩
      by_cases hsensor : sensor.err = 0
      · rw [if_pos hsensor] at hother
        cases hother
        exact found_of_findSensor _ hsensor
      · rw [if_neg hsensor] at hother
        cases hother
    · rw [if_neg hzero]
      exact holds_return ⟨hasked, by simp⟩
  · rw [if_neg hprobe]
    exact holds_return ⟨hready, by simp⟩

/-- What the application presents and which devices it turns to, whatever the interface answers. -/
theorem holds_run (probe : Bool) : (run probe).Holds MayAsk MayTell MayEnd [] := by
  refine holds_ask_bind (mayAsk_of_noDevice .nil rfl) fun panid ↦ ?_
  have hpanid := Ready.nil.asked .getPanid panid rfl rfl
  refine holds_ask_bind (mayAsk_of_noDevice hpanid rfl) fun channel ↦ ?_
  have hchannel := hpanid.asked .getChannel channel rfl rfl
  refine Script.Holds.bind ((holds_knownSensor probe panid hchannel).imp fun later known hlater ↦ ?_)
  obtain ⟨hready, hreused⟩ := hlater
  cases known with
  | retry => exact holds_return (hready.mayEnd (by simp))
  | reused sensor => exact holds_readSensor hready (hreused sensor rfl)
  | unknown =>
    refine Script.Holds.bind ((holds_commission hready).imp fun commissioned found hfound ↦ ?_)
    cases found with
    | none => exact holds_return (hfound.1.mayEnd (by simp))
    | some sensor =>
      refine Script.Holds.bind ((holds_reportTemperatures 5 hfound.1 (hfound.2 sensor rfl)).imp
        fun polled _ hpolled ↦ ?_)
      exact holds_readSensor hpolled.1 hpolled.2

end Parts

end ZigbeeRemote.Client.ThermostatApp
