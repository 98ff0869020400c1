import ZigbeeRemote.Foundation.Script
import ZigbeeRemote.Zigbee.Api

/-!
# The thermostat application

`thermostat_app::run` of `zb_rpc_client/include/thermostat_app.hpp`, as a script over the Zigbee
interface: the source calls nothing else. Of its log lines those that present data to the user are
notes, the others are left out, as are the pauses. The function has eight early exits; it is cut
here into the parts between which it can return.

`commissioning_order` is about every way the script can go, whatever the interface answers: what it
has done when it reports success, that it stops at the first failure of the commissioning chain, and
when it asks to be run again. Each part has one lemma that lists its ways, and the result is
assembled from these.
-/

set_option autoImplicit false
set_option relaxedAutoImplicit false

namespace ZigbeeRemote.Client.ThermostatApp

open Foundation Zigbee

/-! ### The application -/

/-- `k_request_timeout_ms`. -/
def kRequestTimeoutMs : UInt32 := 15000

/-- `k_annce_timeout_ms`. -/
def kAnnceTimeoutMs : UInt32 := 180000

/-- `k_open_network_seconds`. -/
def kOpenNetworkSeconds : UInt8 := 180

/-- `k_invalid_short_addr`. -/
def kInvalidShortAddr : UInt16 := 0xFFFF

/-- The log lines that present data. -/
inductive Report : Type
  /-- "Temperature sensor measured value". -/
  | lastTemp (value : Int16)
  /-- "Model identifier": the array of 16 bytes. What `%s` prints of it may be more where it has no
  zero. -/
  | model (text : FixedBytes 16)
  /-- "Manufacturer name", likewise. -/
  | manufacturer (text : FixedBytes 16)
  /-- The three values of `print_temp_attrs`. -/
  | temperatures (measured minMeasured maxMeasured : Int16)
  deriving DecidableEq

/-- `enum class Result`. -/
inductive Result : Type
  | success
  | failure
  | retryWithoutCache
  deriving DecidableEq

/-- A part of the application. -/
abbrev App := Script ApiCall ApiCall.Result Report

/-- Call a function of the interface. -/
def ask (call : ApiCall) : App call.Result := Script.ask call

/-- What the part about the cached sensor comes to. -/
inductive Known : Type
  | retry
  | reused (sensor : ZigbeeAddr)
  | unknown

/-- The part of `run` that tries the sensor the server knows. -/
def knownSensor (probeCachedSensor : Bool) (panid : UInt16) : App Known :=
  if probeCachedSensor && panid != 0 then do
    let known ← ask .getSensorAddr
    if known = kInvalidShortAddr then
      return .retry
    else if known ≠ 0 then do
      let sensor ← ask (.findSensor known kRequestTimeoutMs)
      return if sensor.err = 0 then .reused sensor else .unknown
    else
      return .unknown
  else
    return .unknown

/-- The part of `run` that binds and configures a sensor that has been found. -/
def configure (sensor : ZigbeeAddr) : App Bool := do
  let basic ← ask (.readBasic sensor.shortAddr sensor.ep kRequestTimeoutMs)
  if basic.err ≠ 0 then
    return false
  else do
    Script.tell (.model basic.model)
    Script.tell (.manufacturer basic.manufacturer)
    let bindStatus ← ask (.bindSensor sensor.shortAddr sensor.ep kRequestTimeoutMs)
    if bindStatus ≠ 0 then
      return false
    else do
      let subscribeStatus ←
        ask (.subscribeSensor sensor.shortAddr sensor.ep kRequestTimeoutMs)
      if subscribeStatus ≠ 0 then
        return false
      else do
        let reportStatus ← ask (.configReport sensor.shortAddr sensor.ep kRequestTimeoutMs)
        return decide (reportStatus = 0)

/-- The part of `run` that waits for a new sensor, up to the loop. -/
def commission : App (Option ZigbeeAddr) := do
  let openStatus ← ask (.openNetwork kOpenNetworkSeconds)
  if openStatus ≠ 0 then
    return none
  else do
    let peer ← ask (.waitAnnce kAnnceTimeoutMs)
    if peer = 0 then
      return none
    else do
      let sensor ← ask (.findSensor peer kRequestTimeoutMs)
      if sensor.err ≠ 0 then
        return none
      else do
        let configured ← configure sensor
        return if configured then some sensor else none

/-- The loop of `run`, for the given number of passes. -/
def reportTemperatures : ℕ → App Unit
  | 0 => return ()
  | count + 1 => do
    let last ← ask .getLastTemp
    Script.tell (.lastTemp last)
    reportTemperatures count

/-- The last part of `run`. -/
def readSensor (sensor : ZigbeeAddr) : App Result := do
  let attrs ← ask (.readTemp sensor.shortAddr sensor.ep kRequestTimeoutMs)
  if attrs.err ≠ 0 then
    return .failure
  else do
    Script.tell (.temperatures attrs.measured attrs.minMeasured attrs.maxMeasured)
    return .success

/-- `thermostat_app::run`. The channel is only logged. -/
def run (probeCachedSensor : Bool) : App Result := do
  let panid ← ask .getPanid
  let _channel ← ask .getChannel
  match ← knownSensor probeCachedSensor panid with
  | .retry => return .retryWithoutCache
  | .reused sensor => readSensor sensor
  | .unknown =>
    match ← commission with
    | none => return .failure
    | some sensor => do
      reportTemperatures 5
      readSensor sensor

/-! ### The ways each part can go -/

section Paths

/-- A call with its result. -/
abbrev Call := (call : ApiCall) × call.Result

/-- One step of the application. -/
abbrev Event := Script.Event ApiCall ApiCall.Result Report

/-- The calls among the steps. -/
def calls (events : List Event) : List Call :=
  events.filterMap fun
    | .asked call answer => some ⟨call, answer⟩
    | .noted _ => none

@[simp] theorem calls_nil : calls [] = [] := rfl

@[simp] theorem calls_append (first second : List Event) :
    calls (first ++ second) = calls first ++ calls second := List.filterMap_append

@[simp] theorem calls_asked (call : ApiCall) (answer : call.Result) (events : List Event) :
    calls (.asked call answer :: events) = ⟨call, answer⟩ :: calls events := rfl

@[simp] theorem calls_noted (report : Report) (events : List Event) :
    calls (.noted report :: events) = calls events := rfl

variable {events : List Event}

/-- A part that starts with a call. -/
theorem path_ask_bind {α : Type} (call : ApiCall) {next : call.Result → App α} {value : α} :
    Script.Path (ask call >>= next) events value ↔
      ∃ answer later, events = .asked call answer :: later ∧
        Script.Path (next answer) later value :=
  Script.path_call

/-- A part that starts with a note. -/
theorem path_tell_bind {α : Type} {report : Report} {next : Unit → App α} {value : α} :
    Script.Path (Script.tell report >>= next) events value ↔
      ∃ later, events = .noted report :: later ∧ Script.Path (next ()) later value :=
  Script.path_note

/-- A part that ends. -/
theorem path_return {α : Type} {value other : α} :
    Script.Path (return other : App α) events value ↔ events = [] ∧ value = other :=
  Script.path_done

/-- A call that reports a failure, in the way its function does. -/
def failed : Call → Bool
  | ⟨.openNetwork _, status⟩ => decide (status ≠ 0)
  | ⟨.waitAnnce _, peer⟩ => decide (peer = 0)
  | ⟨.findSensor _ _, sensor⟩ => decide (sensor.err ≠ 0)
  | ⟨.readBasic _ _ _, basic⟩ => decide (basic.err ≠ 0)
  | ⟨.bindSensor _ _ _, status⟩ => decide (status ≠ 0)
  | ⟨.subscribeSensor _ _ _, status⟩ => decide (status ≠ 0)
  | ⟨.configReport _ _ _, status⟩ => decide (status ≠ 0)
  | ⟨.readTemp _ _ _, attrs⟩ => decide (attrs.err ≠ 0)
  | _ => false

/-- Calls of which only the last can have failed. -/
def Guarded : List Call → Prop
  | [] => True
  | call :: calls => (failed call = true → calls = []) ∧ Guarded calls

theorem path_readSensor {sensor : ZigbeeAddr} {result : Result}
    (hpath : Script.Path (readSensor sensor) events result) :
    ∃ attrs, calls events = [⟨.readTemp sensor.shortAddr sensor.ep kRequestTimeoutMs, attrs⟩] ∧
      (result = .success → attrs.err = 0) ∧ result ≠ .retryWithoutCache := by
  obtain ⟨attrs, later, rfl, hnext⟩ := (path_ask_bind (.readTemp _ _ _)).mp hpath
  refine ⟨attrs, ?_⟩
  by_cases herr : attrs.err ≠ 0
  · rw [if_pos herr] at hnext
    obtain ⟨rfl, rfl⟩ := path_return.mp hnext
    exact ⟨rfl, by simp, by simp⟩
  · rw [if_neg herr] at hnext
    obtain ⟨_, rfl, hend⟩ := path_tell_bind.mp hnext
    obtain ⟨rfl, rfl⟩ := path_return.mp hend
    exact ⟨rfl, fun _ ↦ not_not.mp herr, by simp⟩

theorem path_reportTemperatures {count : ℕ}
    (hpath : Script.Path (reportTemperatures count) events ()) :
    ∀ call ∈ calls events, call.1 = .getLastTemp := by
  induction count generalizing events with
  | zero =>
    obtain ⟨rfl, -⟩ := path_return.mp hpath
    simp
  | succ count ih =>
    obtain ⟨last, _, rfl, hnext⟩ := (path_ask_bind .getLastTemp).mp hpath
    obtain ⟨later, rfl, hrest⟩ := path_tell_bind.mp hnext
    rw [calls_asked, calls_noted, List.forall_mem_cons]
    exact ⟨rfl, ih hrest⟩

/-- The calls that bind and configure a sensor, when all of them succeed. -/
def configureCalls (sensor : ZigbeeAddr) (basic : ZigbeeBasic) : List Call :=
  [⟨.readBasic sensor.shortAddr sensor.ep kRequestTimeoutMs, basic⟩,
    ⟨.bindSensor sensor.shortAddr sensor.ep kRequestTimeoutMs, (0 : Int32)⟩,
    ⟨.subscribeSensor sensor.shortAddr sensor.ep kRequestTimeoutMs, (0 : Int32)⟩,
    ⟨.configReport sensor.shortAddr sensor.ep kRequestTimeoutMs, (0 : Int32)⟩]

theorem path_configure {sensor : ZigbeeAddr} {configured : Bool}
    (hpath : Script.Path (configure sensor) events configured) :
    Guarded (calls events) ∧ (configured = true →
      ∃ basic, basic.err = 0 ∧ calls events = configureCalls sensor basic) := by
  obtain ⟨basic, _, rfl, hread⟩ := (path_ask_bind (.readBasic _ _ _)).mp hpath
  by_cases hbasic : basic.err ≠ 0
  · rw [if_pos hbasic] at hread
    obtain ⟨rfl, rfl⟩ := path_return.mp hread
    simp [Guarded]
  rw [if_neg hbasic] at hread
  obtain ⟨_, rfl, hmodel⟩ := path_tell_bind.mp hread
  obtain ⟨_, rfl, hnamed⟩ := path_tell_bind.mp hmodel
  obtain ⟨bindStatus, _, rfl, hbound⟩ := (path_ask_bind (.bindSensor _ _ _)).mp hnamed
  by_cases hbind : bindStatus ≠ 0
  · rw [if_pos hbind] at hbound
    obtain ⟨rfl, rfl⟩ := path_return.mp hbound
    simp [Guarded, failed, not_not.mp hbasic]
  rw [if_neg hbind] at hbound
  obtain ⟨subscribeStatus, _, rfl, hsubscribed⟩ :=
    (path_ask_bind (.subscribeSensor _ _ _)).mp hbound
  by_cases hsubscribe : subscribeStatus ≠ 0
  · rw [if_pos hsubscribe] at hsubscribed
    obtain ⟨rfl, rfl⟩ := path_return.mp hsubscribed
    simp [Guarded, failed, not_not.mp hbasic, not_not.mp hbind]
  rw [if_neg hsubscribe] at hsubscribed
  obtain ⟨reportStatus, _, rfl, hend⟩ := (path_ask_bind (.configReport _ _ _)).mp hsubscribed
  obtain ⟨rfl, rfl⟩ := path_return.mp hend
  obtain rfl := not_not.mp hbind
  obtain rfl := not_not.mp hsubscribe
  refine ⟨by simp [Guarded, failed, not_not.mp hbasic], fun hreport ↦ ?_⟩
  obtain rfl : reportStatus = 0 := of_decide_eq_true hreport
  exact ⟨basic, not_not.mp hbasic, rfl⟩

/-- The calls that commission a sensor, when all of them succeed. -/
def commissionCalls (peer : UInt16) (sensor : ZigbeeAddr) (basic : ZigbeeBasic) : List Call :=
  ⟨.openNetwork kOpenNetworkSeconds, (0 : Int32)⟩ :: ⟨.waitAnnce kAnnceTimeoutMs, peer⟩ ::
    ⟨.findSensor peer kRequestTimeoutMs, sensor⟩ :: configureCalls sensor basic

theorem path_commission {found : Option ZigbeeAddr}
    (hpath : Script.Path commission events found) :
    Guarded (calls events) ∧ ∀ sensor, found = some sensor →
      ∃ peer basic, peer ≠ 0 ∧ sensor.err = 0 ∧ basic.err = 0 ∧
        calls events = commissionCalls peer sensor basic := by
  obtain ⟨openStatus, _, rfl, hopened⟩ := (path_ask_bind (.openNetwork _)).mp hpath
  by_cases hopen : openStatus ≠ 0
  · rw [if_pos hopen] at hopened
    obtain ⟨rfl, rfl⟩ := path_return.mp hopened
    simp [Guarded]
  rw [if_neg hopen] at hopened
  obtain ⟨peer, _, rfl, hannounced⟩ := (path_ask_bind (.waitAnnce _)).mp hopened
  by_cases hpeer : peer = 0
  · rw [if_pos hpeer] at hannounced
    obtain ⟨rfl, rfl⟩ := path_return.mp hannounced
    simp [Guarded, failed, not_not.mp hopen]
  rw [if_neg hpeer] at hannounced
  obtain ⟨sensor, _, rfl, hfound⟩ := (path_ask_bind (.findSensor _ _)).mp hannounced
  by_cases hfind : sensor.err ≠ 0
  · rw [if_pos hfind] at hfound
    obtain ⟨rfl, rfl⟩ := path_return.mp hfound
    simp [Guarded, failed, not_not.mp hopen, hpeer]
  rw [if_neg hfind] at hfound
  obtain ⟨earlier, later, configured, rfl, hconfigure, hend⟩ := Script.path_bind.mp hfound
  obtain ⟨rfl, rfl⟩ := path_return.mp hend
  obtain ⟨hguarded, hcalls⟩ := path_configure hconfigure
  obtain rfl := not_not.mp hopen
  refine ⟨?_, fun other hother ↦ ?_⟩
  · simpa [Guarded, failed, hpeer, not_not.mp hfind] using hguarded
  · cases configured with
    | false => simp at hother
    | true =>
      obtain rfl : sensor = other := by simpa using hother
      obtain ⟨basic, hbasic, hall⟩ := hcalls rfl
      refine ⟨peer, basic, hpeer, not_not.mp hfind, hbasic, ?_⟩
      simp [commissionCalls, hall]

/-- The cached sensor is tried before anything is changed. -/
theorem path_knownSensor {probe : Bool} {panid : UInt16} {known : Known}
    (hpath : Script.Path (knownSensor probe panid) events known) :
    (known = .retry ∧ probe = true ∧ ∃ address, calls events = [⟨.getSensorAddr, address⟩]) ∨
      (∃ address sensor, known = .reused sensor ∧ sensor.err = 0 ∧
        calls events = [⟨.getSensorAddr, address⟩, ⟨.findSensor address kRequestTimeoutMs, sensor⟩]) ∨
      (known = .unknown ∧ (calls events = [] ∨
        (∃ address, calls events = [⟨.getSensorAddr, address⟩]) ∨
        ∃ address sensor, calls events =
          [⟨.getSensorAddr, address⟩, ⟨.findSensor address kRequestTimeoutMs, sensor⟩])) := by
  unfold knownSensor at hpath
  by_cases hprobe : (probe && panid != 0) = true
  · rw [if_pos hprobe] at hpath
    obtain ⟨address, _, rfl, hnext⟩ := (path_ask_bind .getSensorAddr).mp hpath
    by_cases hinvalid : address = kInvalidShortAddr
    · rw [if_pos hinvalid] at hnext
      obtain ⟨rfl, rfl⟩ := path_return.mp hnext
      exact Or.inl ⟨rfl, (Bool.and_eq_true _ _ ▸ hprobe).1, address, rfl⟩
    rw [if_neg hinvalid] at hnext
    by_cases hzero : address ≠ 0
    · rw [if_pos hzero] at hnext
      obtain ⟨sensor, _, rfl, hend⟩ := (path_ask_bind (.findSensor _ _)).mp hnext
      obtain ⟨rfl, rfl⟩ := path_return.mp hend
      by_cases herr : sensor.err = 0
      · exact Or.inr (Or.inl ⟨address, sensor, if_pos herr, herr, rfl⟩)
      · exact Or.inr (Or.inr ⟨if_neg herr, Or.inr (Or.inr ⟨address, sensor, rfl⟩)⟩)
    · rw [if_neg hzero] at hnext
      obtain ⟨rfl, rfl⟩ := path_return.mp hnext
      exact Or.inr (Or.inr ⟨rfl, Or.inr (Or.inl ⟨address, rfl⟩)⟩)
  · rw [if_neg hprobe] at hpath
    obtain ⟨rfl, rfl⟩ := path_return.mp hpath
    exact Or.inr (Or.inr ⟨rfl, Or.inl rfl⟩)

end Paths

/-! ### The order of the calls -/

section Order

/-- A call of `open_network`. -/
def opens (call : Call) : Bool :=
  match call.1 with
  | .openNetwork _ => true
  | _ => false

/-- A call that opens the network, binds or configures. -/
def configures (call : Call) : Bool :=
  match call.1 with
  | .openNetwork _ => true
  | .bindSensor _ _ _ => true
  | .subscribeSensor _ _ _ => true
  | .configReport _ _ _ => true
  | _ => false

/-- A call of the commissioning chain, of which `find_sensor` is part once the network has been
opened. -/
def inChain (opened : Bool) (call : Call) : Bool :=
  match call.1 with
  | .openNetwork _ => true
  | .waitAnnce _ => true
  | .findSensor _ _ => opened
  | .readBasic _ _ _ => true
  | .bindSensor _ _ _ => true
  | .subscribeSensor _ _ _ => true
  | .configReport _ _ _ => true
  | _ => false

/-- The calls of `find_sensor`, with the address they were made on and their results. -/
def finds (calls : List Call) : List (UInt16 × ZigbeeAddr) :=
  calls.filterMap fun
    | ⟨.findSensor shortAddr _, sensor⟩ => some (shortAddr, sensor)
    | _ => none

/-- The last call is a successful `read_temp` on what the last `find_sensor` has found. -/
def EndsWithReading (calls : List Call) : Prop :=
  ∃ earlier address sensor attrs,
    calls = earlier ++ [⟨.readTemp sensor.shortAddr sensor.ep kRequestTimeoutMs, attrs⟩] ∧
      attrs.err = 0 ∧ (finds calls).getLast? = some (address, sensor) ∧ sensor.err = 0

/-- The network was not opened, and the only `find_sensor` was on the address the server knew. -/
def Reused (calls : List Call) : Prop :=
  (∀ call ∈ calls, opens call = false) ∧
    ∃ address sensor, finds calls = [(address, sensor)] ∧
      (⟨.getSensorAddr, address⟩ : Call) ∈ calls

/-- From the first call of the chain on, the calls were those that commission a sensor, each of them
once and successful, then some of `get_last_temp`, and one of `read_temp`. -/
def Commissioned (calls : List Call) : Prop :=
  ∃ earlier peer sensor basic polls attrs,
    calls = earlier ++ commissionCalls peer sensor basic ++ polls ++
        [⟨.readTemp sensor.shortAddr sensor.ep kRequestTimeoutMs, attrs⟩] ∧
      (∀ call ∈ earlier, inChain false call = false) ∧ peer ≠ 0 ∧ sensor.err = 0 ∧
      basic.err = 0 ∧ ∀ call ∈ polls, call.1 = .getLastTemp

/-- Nothing is called after a call of the commissioning chain that failed. -/
def StopsAtFailure (opened : Bool) : List Call → Prop
  | [] => True
  | call :: calls =>
    (inChain opened call = true → failed call = true → calls = []) ∧
      StopsAtFailure (opened || opens call) calls

/-- `StopsAtFailure`, for a failure anywhere among the calls. -/
theorem StopsAtFailure.after_failure {opened : Bool} {earlier later : List Call} {call : Call}
    (hstops : StopsAtFailure opened (earlier ++ call :: later))
    (hchain : inChain (opened || earlier.any opens) call = true) (hfailed : failed call = true) :
    later = [] := by
  induction earlier generalizing opened with
  | nil =>
    rw [List.any_nil, Bool.or_false] at hchain
    exact hstops.1 hchain hfailed
  | cons first earlier ih =>
    rw [List.any_cons, ← Bool.or_assoc] at hchain
    exact ih hstops.2 hchain

theorem stopsAtFailure_of_not_inChain {calls : List Call}
    (haside : ∀ call ∈ calls, ∀ opened, inChain opened call = false) (opened : Bool) :
    StopsAtFailure opened calls := by
  induction calls generalizing opened with
  | nil => trivial
  | cons call calls ih =>
    refine ⟨fun hchain ↦ ?_, ih (fun other hother ↦ haside other (List.mem_cons_of_mem _ hother)) _⟩
    rw [haside call List.mem_cons_self] at hchain
    exact absurd hchain Bool.false_ne_true

theorem Guarded.stopsAtFailure {calls : List Call} (hguarded : Guarded calls) (opened : Bool) :
    StopsAtFailure opened calls := by
  induction calls generalizing opened with
  | nil => trivial
  | cons call calls ih => exact ⟨fun _ ↦ hguarded.1, ih hguarded.2 _⟩

/-- Calls none of which failed can be followed by anything. -/
theorem stopsAtFailure_append {first second : List Call}
    (hsucceeded : ∀ call ∈ first, failed call = false)
    (hsecond : ∀ opened, StopsAtFailure opened second) (opened : Bool) :
    StopsAtFailure opened (first ++ second) := by
  induction first generalizing opened with
  | nil => exact hsecond opened
  | cons call first ih =>
    refine ⟨fun _ hfailed ↦ ?_, ih (fun other hother ↦
      hsucceeded other (List.mem_cons_of_mem _ hother)) _⟩
    rw [hsucceeded call List.mem_cons_self] at hfailed
    exact absurd hfailed Bool.false_ne_true

theorem commissionCalls_succeed {peer : UInt16} {sensor : ZigbeeAddr} {basic : ZigbeeBasic}
    (hpeer : peer ≠ 0) (hsensor : sensor.err = 0) (hbasic : basic.err = 0) :
    ∀ call ∈ commissionCalls peer sensor basic, failed call = false := by
  simp [commissionCalls, configureCalls, failed, hpeer, hsensor, hbasic]

/-- What `run` promises about the order of its calls. -/
structure InOrder (probe : Bool) (calls : List Call) (result : Result) : Prop where
  reading : result = .success → EndsWithReading calls
  prepared : result = .success → Reused calls ∨ Commissioned calls
  stops : ∀ earlier call later, calls = earlier ++ call :: later →
    inChain (earlier.any opens) call = true → failed call = true → later = []
  retry : result = .retryWithoutCache →
    probe = true ∧ ∀ call ∈ calls, configures call = false

/-- The calls before the chain. -/
theorem stopsAtFailure_of_aside {first second : List Call}
    (haside : ∀ call ∈ first, inChain false call = false)
    (hsecond : StopsAtFailure false second) : StopsAtFailure false (first ++ second) := by
  induction first with
  | nil => exact hsecond
  | cons call first ih =>
    have hcall := haside call List.mem_cons_self
    have hopens : opens call = false := by
      obtain ⟨call, answer⟩ := call
      cases call <;> first | rfl | exact absurd hcall (by simp [inChain])
    refine ⟨fun hchain ↦ ?_, ?_⟩
    · rw [hcall] at hchain
      exact absurd hchain Bool.false_ne_true
    · rw [hopens]
      exact ih fun other hother ↦ haside other (List.mem_cons_of_mem _ hother)

theorem finds_append (first second : List Call) :
    finds (first ++ second) = finds first ++ finds second := List.filterMap_append

theorem finds_of_getLastTemp {polls : List Call} (hpolls : ∀ call ∈ polls, call.1 = .getLastTemp) :
    finds polls = [] := by
  refine List.filterMap_eq_nil_iff.mpr fun call hcall ↦ ?_
  obtain ⟨_, answer⟩ := call
  obtain rfl := hpolls _ hcall
  rfl

/-- A run that reuses the sensor the server knows. -/
theorem inOrder_reused {probe : Bool} {panid : UInt16} {channel : UInt8} {address : UInt16}
    {sensor : ZigbeeAddr} {attrs : ZigbeeTemp} {result : Result} (hsensor : sensor.err = 0)
    (hsuccess : result = .success → attrs.err = 0) (hretry : result ≠ .retryWithoutCache) :
    InOrder probe [⟨.getPanid, panid⟩, ⟨.getChannel, channel⟩, ⟨.getSensorAddr, address⟩,
      ⟨.findSensor address kRequestTimeoutMs, sensor⟩,
      ⟨.readTemp sensor.shortAddr sensor.ep kRequestTimeoutMs, attrs⟩] result := by
  refine ⟨fun hresult ↦ ?_, fun _ ↦ Or.inl ⟨by simp [opens], address, sensor, rfl, by simp⟩, ?_,
    fun hresult ↦ absurd hresult hretry⟩
  · exact ⟨[⟨.getPanid, panid⟩, ⟨.getChannel, channel⟩, ⟨.getSensorAddr, address⟩,
      ⟨.findSensor address kRequestTimeoutMs, sensor⟩], address, sensor, attrs, rfl,
      hsuccess hresult, rfl, hsensor⟩
  · intro earlier call later hcalls hchain hfailed
    have hstops : StopsAtFailure false ([⟨.getPanid, panid⟩, ⟨.getChannel, channel⟩,
        ⟨.getSensorAddr, address⟩, ⟨.findSensor address kRequestTimeoutMs, sensor⟩,
        ⟨.readTemp sensor.shortAddr sensor.ep kRequestTimeoutMs, attrs⟩] : List Call) := by
      simp [StopsAtFailure, inChain, opens]
    rw [hcalls] at hstops
    exact hstops.after_failure hchain hfailed

/-- The calls of `run` from `open_network` on, with its result: the chain fails, or a sensor is
commissioned and read. -/
inductive Fresh : List Call → Result → Prop
  | failed {chain : List Call} (hguarded : Guarded chain) : Fresh chain .failure
  | finished {peer : UInt16} {sensor : ZigbeeAddr} {basic : ZigbeeBasic} {polls : List Call}
      {attrs : ZigbeeTemp} {result : Result} (hpeer : peer ≠ 0) (hsensor : sensor.err = 0)
      (hbasic : basic.err = 0) (hpolls : ∀ call ∈ polls, call.1 = .getLastTemp)
      (hsuccess : result = .success → attrs.err = 0) (hretry : result ≠ .retryWithoutCache) :
      Fresh (commissionCalls peer sensor basic ++ (polls ++
        [⟨.readTemp sensor.shortAddr sensor.ep kRequestTimeoutMs, attrs⟩])) result

theorem path_fresh {events : List Event} {result : Result}
    (hpath : Script.Path (do
      match ← commission with
      | none => return .failure
      | some sensor => do
        reportTemperatures 5
        readSensor sensor) events result) :
    Fresh (calls events) result := by
  obtain ⟨earlier, later, found, rfl, hcommission, hnext⟩ := Script.path_bind.mp hpath
  obtain ⟨hguarded, hfound⟩ := path_commission hcommission
  rw [calls_append]
  cases found with
  | none =>
    obtain ⟨rfl, rfl⟩ := path_return.mp hnext
    rw [calls_nil, List.append_nil]
    exact .failed hguarded
  | some sensor =>
    obtain ⟨polling, reading, _, rfl, hpolls, hread⟩ := Script.path_bind.mp hnext
    obtain ⟨attrs, hcalls, hsuccess, hretry⟩ := path_readSensor hread
    obtain ⟨peer, basic, hpeer, hsensor, hbasic, hchain⟩ := hfound sensor rfl
    rw [hchain, calls_append, hcalls]
    exact .finished hpeer hsensor hbasic (path_reportTemperatures hpolls) hsuccess hretry

/-- A run that commissions a sensor, or fails in doing so. -/
theorem Fresh.inOrder {probe : Bool} {earlier fresh : List Call} {result : Result}
    (hfresh : Fresh fresh result) (haside : ∀ call ∈ earlier, inChain false call = false) :
    InOrder probe (earlier ++ fresh) result := by
  cases hfresh with
  | failed hguarded =>
    refine ⟨by simp, by simp, ?_, by simp⟩
    intro before call later hcalls hchain hfailed
    have hstops := stopsAtFailure_of_aside haside (hguarded.stopsAtFailure false)
    rw [hcalls] at hstops
    exact hstops.after_failure hchain hfailed
  | @finished peer sensor basic polls attrs _ hpeer hsensor hbasic hpolls hsuccess hretry =>
    refine ⟨fun hresult ↦ ?_, fun _ ↦ Or.inr ?_, ?_, fun hresult ↦ absurd hresult hretry⟩
    · refine ⟨earlier ++ commissionCalls peer sensor basic ++ polls, peer, sensor, attrs,
        by simp only [List.append_assoc], hsuccess hresult, ?_, hsensor⟩
      have hlast : finds [⟨.readTemp sensor.shortAddr sensor.ep kRequestTimeoutMs, attrs⟩] = [] := rfl
      have hchain : finds (commissionCalls peer sensor basic) = [(peer, sensor)] := rfl
      rw [finds_append, finds_append, finds_append, finds_of_getLastTemp hpolls, hlast, hchain]
      simp
    · exact ⟨earlier, peer, sensor, basic, polls, attrs, by simp only [List.append_assoc], haside,
        hpeer, hsensor, hbasic, hpolls⟩
    · intro before call later hcalls hchain hfailed
      have htail : ∀ call ∈ polls ++ [⟨.readTemp sensor.shortAddr sensor.ep kRequestTimeoutMs,
          attrs⟩], ∀ opened, inChain opened call = false := by
        intro call hcall opened
        rcases List.mem_append.mp hcall with hpoll | hlast
        · rw [inChain, hpolls call hpoll]
        · rw [List.mem_singleton.mp hlast]
          rfl
      have hstops := stopsAtFailure_of_aside haside (stopsAtFailure_append
        (commissionCalls_succeed hpeer hsensor hbasic) (stopsAtFailure_of_not_inChain htail) false)
      rw [hcalls] at hstops
      exact hstops.after_failure hchain hfailed

/-- Whatever the interface answers: a run that reports success ends with a successful `read_temp` on
the sensor found last, which is the one the server knew or one that was commissioned in full; no run
goes on after a failure in the commissioning chain; and only a run that probes asks to be repeated,
before it has changed anything. -/
theorem commissioning_order (probe : Bool) {events : List Event} {result : Result}
    (hpath : Script.Path (run probe) events result) : InOrder probe (calls events) result := by
  obtain ⟨panid, _, rfl, hpanid⟩ := (path_ask_bind .getPanid).mp hpath
  obtain ⟨channel, _, rfl, hchannel⟩ := (path_ask_bind .getChannel).mp hpanid
  obtain ⟨probing, later, known, rfl, hknown, hnext⟩ := Script.path_bind.mp hchannel
  simp only [calls_asked, calls_append]
  rcases path_knownSensor hknown with ⟨rfl, hprobe, address, hcalls⟩ |
      ⟨address, sensor, rfl, hsensor, hcalls⟩ | ⟨rfl, hcalls⟩
  · obtain ⟨rfl, rfl⟩ := path_return.mp hnext
    rw [hcalls]
    refine ⟨by simp, by simp, ?_, fun _ ↦ ⟨hprobe, by simp [configures]⟩⟩
    intro earlier call later hsame hchain hfailed
    have hstops : StopsAtFailure false
        ([⟨.getPanid, panid⟩, ⟨.getChannel, channel⟩, ⟨.getSensorAddr, address⟩] : List Call) := by
      simp [StopsAtFailure, inChain]
    have hsplit : ([⟨.getPanid, panid⟩, ⟨.getChannel, channel⟩, ⟨.getSensorAddr, address⟩] :
        List Call) = earlier ++ call :: later := hsame
    rw [hsplit] at hstops
    exact hstops.after_failure hchain hfailed
  · obtain ⟨attrs, hread, hsuccess, hretry⟩ := path_readSensor hnext
    rw [hcalls, hread]
    exact inOrder_reused hsensor hsuccess hretry
  · rw [← List.cons_append, ← List.cons_append]
    refine (path_fresh hnext).inOrder ?_
    rcases hcalls with hnone | ⟨address, hone⟩ | ⟨address, sensor, hboth⟩
    · simp [hnone, inChain]
    · simp [hone, inChain]
    · simp [hboth, inChain]

/-- An interface that knows a sensor and answers every call successfully. -/
def knownSensorAnswers : (call : ApiCall) → call.Result
  | .getShortAddr => (0 : UInt16)
  | .getPanid => (0x1234 : UInt16)
  | .getChannel => (11 : UInt8)
  | .getSensorAddr => (0x1956 : UInt16)
  | .openNetwork _ => (0 : Int32)
  | .waitAnnce _ => (0x1956 : UInt16)
  | .findSensor shortAddr _ => (⟨0, shortAddr, 10⟩ : ZigbeeAddr)
  | .readBasic _ _ _ => (⟨0, .zero 16, .zero 16⟩ : ZigbeeBasic)
  | .bindSensor _ _ _ => (0 : Int32)
  | .subscribeSensor _ _ _ => (0 : Int32)
  | .configReport _ _ _ => (0 : Int32)
  | .readTemp _ _ _ => (⟨0, 2150, -4000, 12500, 10⟩ : ZigbeeTemp)
  | .getLastTemp => (2150 : Int16)

theorem commissioning_order_known :
    ((run true).follow knownSensorAnswers).2 = .success ∧
      InOrder true (calls ((run true).follow knownSensorAnswers).1) .success :=
  ⟨rfl, commissioning_order true (Script.path_follow knownSensorAnswers (run true))⟩

end Order

end ZigbeeRemote.Client.ThermostatApp
