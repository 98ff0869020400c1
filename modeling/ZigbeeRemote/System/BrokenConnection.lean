import ZigbeeRemote.Client.Main
import ZigbeeRemote.Client.ThermostatReports
import ZigbeeRemote.Rpc.Framing
import ZigbeeRemote.System.Transparency

/-!
# The application on a connection that breaks

`thermostat_app::run` on the client's implementation of the interface, on a descriptor that may do
anything: bytes of any server arrive in any portions, and from any point on nothing arrives and
nothing can be written. A function of the client that gets no response returns a fixed value. What
the application then makes of that value is the question here.

`session` is a run of the application with, for each call, the response it got; `execute_remote` says
that the program does exactly this. What the application presents, and the devices it turns to, come
from responses that were received in full if and only if `get_last_temp` is always answered and no
reading follows a call that was not (`honest_iff`): the fixed value of `get_last_temp` is a
temperature, and the application reports it (`unanswered_temperature_reported`).
-/

set_option autoImplicit false
set_option relaxedAutoImplicit false

namespace ZigbeeRemote.System

open Foundation Rpc Zigbee Client WireType
open Client.ThermostatApp (App Report Result Shows MayAsk MayTell MayEnd Found deviceOf failed)

/-! ### The client's functions, each with its own values -/

/-- What a function of the client returns without a response. -/
def fallback : (call : ApiCall) → call.Result
  | .getShortAddr => (0 : UInt16)
  | .getPanid => (0 : UInt16)
  | .getChannel => (0 : UInt8)
  | .getSensorAddr => kInvalidShortAddr
  | .openNetwork _ => (-1 : Int32)
  | .waitAnnce _ => (0 : UInt16)
  | .findSensor _ _ => (⟨-1, 0, 0⟩ : ZigbeeAddr)
  | .readBasic _ _ _ => (⟨-1, .zero 16, .zero 16⟩ : ZigbeeBasic)
  | .bindSensor _ _ _ => (-1 : Int32)
  | .subscribeSensor _ _ _ => (-1 : Int32)
  | .configReport _ _ _ => (-1 : Int32)
  | .readTemp _ _ _ => (⟨-1, 0, 0, 0, 0⟩ : ZigbeeTemp)
  | .getLastTemp => (0 : Int16)

/-- What a function of the client makes of a response. -/
def decode : (call : ApiCall) → (desc (apiOf call)).Resp → call.Result
  | .getShortAddr => fun response ↦ fromLe16 response.value
  | .getPanid => fun response ↦ fromLe16 response.value
  | .getChannel => fun response ↦ response.value
  | .getSensorAddr => fun response ↦ fromLe16 response.value
  | .openNetwork _ => fun response ↦ fromLe32S response.value
  | .waitAnnce _ => fun response ↦ fromLe16 response.value
  | .findSensor _ _ => fun response ↦
    ⟨fromLe32S response.err, fromLe16 response.shortAddr, response.ep⟩
  | .readBasic _ _ _ => fun response ↦
    ⟨fromLe32S response.err, response.manufacturer, response.model⟩
  | .bindSensor _ _ _ => fun response ↦ fromLe32S response.value
  | .subscribeSensor _ _ _ => fun response ↦ fromLe32S response.value
  | .configReport _ _ _ => fun response ↦ fromLe32S response.value
  | .readTemp _ _ _ => fun response ↦
    ⟨fromLe32S response.err, fromLe16S response.measured, fromLe16S response.minMeasured,
      fromLe16S response.maxMeasured, fromLe16S response.tolerance⟩
  | .getLastTemp => fun response ↦ fromLe16S response.value

/-- What a function of the client returns. -/
def valueOf (call : ApiCall) : Option (desc (apiOf call)).Resp → call.Result :=
  stubValue (desc (apiOf call)) (fallback call) (decode call)

theorem ask_eq_stub {μ : Type} (call : ApiCall) :
    (rpcApi.ask call : Prog ClientState μ call.Result) =
      stub (desc (apiOf call)) (requestOf call) (fallback call) (decode call) := by
  cases call <;> rfl

/-! ### A run of the application, with the responses -/

/-- A call with the response it got, or a report. -/
inductive Entry : Type
  | called (call : ApiCall) (reply : Option (desc (apiOf call)).Resp)
  | reported (report : Report)

/-- The step of the application behind an entry. -/
def Entry.event : Entry → ThermostatApp.Event
  | .called call reply => .asked call (valueOf call reply)
  | .reported report => .noted report

/-- A run: what happened, the result, and what is left on the descriptor. -/
structure Session (α : Type) where
  entries : List Entry
  value : α
  fd : Descriptor

def Session.after {α : Type} (session : Session α) (entry : Entry) : Session α :=
  { session with entries := entry :: session.entries }

/-- `call` for one function of the client, with a new engine. -/
def exchange (client : ClientState) (call : ApiCall) (fd : Descriptor) :
    Executed ClientState Report (Option (desc (apiOf call)).Resp × ErrorCode) :=
  execute ((Rpc.call (desc (apiOf call)) (requestOf call)).run .none) client fd

/-- Run a script on a descriptor. -/
def session {α : Type} (client : ClientState) : App α → Descriptor → Session α
  | .done value, fd => ⟨[], value, fd⟩
  | .call call next, fd =>
    let reply := exchange client call fd
    (session client (next (valueOf call reply.value.1)) reply.fd).after (.called call reply.value.1)
  | .note report next, fd => (session client next fd).after (.reported report)

/-- The reports of a run. -/
def reports (entries : List Entry) : List Report :=
  entries.filterMap fun
    | .called _ _ => none
    | .reported report => some report

/-- The frames that the responses of a run came in. -/
def responseFrames (entries : List Entry) : List Bytes :=
  entries.filterMap fun
    | .called call (some response) => some (frame (apiOf call).id (wireBytes response))
    | .called _ none => none
    | .reported _ => none

section Session

variable {α : Type} {client : ClientState}

/-- A function of the client on an attached descriptor. -/
theorem execute_ask (hattached : client.attached = true) (call : ApiCall) (fd : Descriptor) :
    execute (rpcApi.ask call : Prog ClientState Report call.Result) client fd =
      ⟨valueOf call (exchange client call fd).value.1, client, [], (exchange client call fd).fd⟩ := by
  obtain ⟨result, code, after, hcall, -⟩ := execute_call (ε := Report) client .none fd
    (desc (apiOf call)) (requestOf call)
  have hexchange : exchange client call fd = ⟨(result, code), client, [], after⟩ := hcall
  have hquery : execute (Prog.lift (ClientState.attached <$> get) : Prog ClientState Report Bool)
      client fd = ⟨true, client, [], fd⟩ := by
    rw [← hattached]
    rfl
  rw [ask_eq_stub, stub, Prog.bind_eq_bind, execute_bind, hquery]
  simp only [Bool.not_true, Bool.false_eq_true, if_false, Prog.bind_eq_bind, execute_bind, hcall,
    hexchange]
  cases result <;> rfl

/-- The program does what the run says. Assumes: a descriptor is attached. -/
theorem execute_remote (hattached : client.attached = true) (script : App α) (fd : Descriptor) :
    execute (script.interpret rpcApi.ask Prog.mark) client fd =
      ⟨(session client script fd).value, client, reports (session client script fd).entries,
        (session client script fd).fd⟩ := by
  induction script generalizing fd with
  | done value => rfl
  | call call next ih =>
    rw [Script.interpret, Prog.bind_eq_bind, execute_bind, execute_ask hattached, ih]
    rfl
  | note report next ih =>
    rw [Script.interpret, Prog.bind_eq_bind, execute_bind]
    show (execute (next.interpret rpcApi.ask Prog.mark) client fd).after [report] = _
    rw [ih]
    rfl

/-- A run is one of the ways of its script. -/
theorem path_session (script : App α) (fd : Descriptor) :
    Script.Path script ((session client script fd).entries.map Entry.event)
      (session client script fd).value := by
  induction script generalizing fd with
  | done value => exact .done
  | call call next ih => exact .call (ih _ _)
  | note report next ih => exact .note (ih _)

end Session

/-! ### Frames on the stream -/

/-- Runs of bytes that occur on a stream one after the other, without overlap. -/
def InTurn : List Bytes → Bytes → Prop
  | [], _ => True
  | first :: others, input =>
    ∃ skipped rest, input = skipped ++ (first ++ rest) ∧ InTurn others rest

theorem InTurn.of_suffix {frames : List Bytes} {input longer : Bytes} (hinTurn : InTurn frames input)
    (hsuffix : input <:+ longer) : InTurn frames longer := by
  cases frames with
  | nil => trivial
  | cons first others =>
    obtain ⟨before, rfl⟩ := hsuffix
    obtain ⟨skipped, rest, rfl, hothers⟩ := hinTurn
    exact ⟨before ++ skipped, rest, by rw [List.append_assoc], hothers⟩

/-- The responses of a run came in complete frames, in the order of the calls. -/
theorem responseFrames_session {α : Type} {client : ClientState} (script : App α) (fd : Descriptor) :
    InTurn (responseFrames (session client script fd).entries) fd.incoming := by
  induction script generalizing fd with
  | done value => trivial
  | call call next ih =>
    obtain ⟨result, code, after, hcall, hresponse⟩ := execute_call (ε := Report) client .none fd
      (desc (apiOf call)) (requestOf call)
    have hexchange : exchange client call fd = ⟨(result, code), client, [], after⟩ := hcall
    have hsuffix := execute_incoming_suffix
      ((Rpc.call (desc (apiOf call)) (requestOf call)).run .none : Prog ClientState Report _) client fd
    rw [hcall] at hsuffix
    simp only [session, hexchange]
    cases result with
    | none => exact (ih (valueOf call none) after).of_suffix hsuffix
    | some response =>
      refine ⟨[], after.incoming, ?_, ih (valueOf call (some response)) after⟩
      rw [hresponse response rfl, desc_id]
      rfl
  | note report next ih => exact ih fd

/-! ### Data and success -/

/-- The last call of a run, with its response. -/
def lastCalled (entries : List Entry) :
    Option ((call : ApiCall) × Option (desc (apiOf call)).Resp) :=
  (entries.filterMap fun
    | .called call reply => some ⟨call, reply⟩
    | .reported _ => none).getLast?

/-- A run that presents and uses only what it has received: every report shows the response to the
last call before it, every device was in a response to `find_sensor`, the responses came in complete
frames, and the run is a success only if every call got its response. -/
structure Honest (entries : List Entry) (result : Result) (incoming : Bytes) : Prop where
  reports : ∀ earlier report later, entries = earlier ++ .reported report :: later →
    ∃ call response, lastCalled earlier = some ⟨call, some response⟩ ∧
      Shows ⟨call, decode call response⟩ report
  devices : ∀ earlier call reply later, entries = earlier ++ .called call reply :: later →
    ∀ device, deviceOf call = some device → ∃ shortAddr timeoutMs response,
      .called (.findSensor shortAddr timeoutMs) (some response) ∈ earlier ∧
        device = ((decode (.findSensor shortAddr timeoutMs) response).shortAddr,
          (decode (.findSensor shortAddr timeoutMs) response).ep)
  frames : InTurn (responseFrames entries) incoming
  success : result = .success → ∀ call reply, .called call reply ∈ entries → reply.isSome = true

/-- What has to arrive: a response to every `get_last_temp`, and, once a call has gone without its
response, none to `read_temp` that reports no error. -/
structure Supplied (entries : List Entry) : Prop where
  temperatures : ∀ reply, .called .getLastTemp reply ∈ entries → reply.isSome = true
  broken : ∀ earlier call later, entries = earlier ++ .called call none :: later →
    ∀ shortAddr ep timeoutMs response,
      .called (.readTemp shortAddr ep timeoutMs) (some response) ∈ later →
        (decode (.readTemp shortAddr ep timeoutMs) response).err ≠ 0

/-- A function that can report a failure does so when it gets no response. -/
theorem failed_fallback {call : ApiCall} {report : Report} (hshows : Shows ⟨call, fallback call⟩ report)
    (hcall : call ≠ .getLastTemp) : failed ⟨call, fallback call⟩ = true := by
  cases call with
  | getLastTemp => exact absurd rfl hcall
  | readBasic shortAddr ep timeoutMs => rfl
  | readTemp shortAddr ep timeoutMs => rfl
  | _ => cases hshows

theorem lastCall_map_event (entries : List Entry) :
    ThermostatApp.lastCall (entries.map Entry.event) =
      (lastCalled entries).map fun called ↦ ⟨called.1, valueOf called.1 called.2⟩ := by
  rw [ThermostatApp.lastCall, lastCalled, ← List.getLast?_map]
  congr 1
  induction entries with
  | nil => rfl
  | cons entry entries ih =>
    cases entry with
    | called call reply => exact congrArg (_ :: ·) ih
    | reported report => exact ih

theorem lastCalled_mem {entries : List Entry} {call : ApiCall}
    {reply : Option (desc (apiOf call)).Resp} (hlast : lastCalled entries = some ⟨call, reply⟩) :
    .called call reply ∈ entries := by
  obtain ⟨entry, hmem, hentry⟩ := List.mem_filterMap.mp (List.mem_of_getLast? hlast)
  cases entry with
  | called other otherReply =>
    obtain ⟨rfl, hreply⟩ := Sigma.mk.inj (Option.some.inj hentry)
    exact eq_of_heq hreply ▸ hmem
  | reported report => cases hentry

/-- A step that has found a device got its response. -/
theorem called_of_asked_findSensor {entries : List Entry} {shortAddr : UInt16} {timeoutMs : UInt32}
    {sensor : ZigbeeAddr}
    (hmem : .asked (.findSensor shortAddr timeoutMs) sensor ∈ entries.map Entry.event)
    (hsensor : sensor.err = 0) :
    ∃ response, .called (.findSensor shortAddr timeoutMs) (some response) ∈ entries ∧
      decode (.findSensor shortAddr timeoutMs) response = sensor := by
  obtain ⟨entry, hentry, hevent⟩ := List.mem_map.mp hmem
  cases entry with
  | called call reply =>
    cases hevent
    cases reply with
    | none => exact absurd (show (-1 : Int32) = 0 from hsensor) (by decide)
    | some response => exact ⟨response, hentry, rfl⟩
  | reported report => cases hevent

theorem called_of_isReading {entries : List Entry} {event : ThermostatApp.Event}
    (hmem : event ∈ entries.map Entry.event) (hreading : event.isReading = true) :
    ∃ shortAddr ep timeoutMs response,
      .called (.readTemp shortAddr ep timeoutMs) (some response) ∈ entries ∧
        (decode (.readTemp shortAddr ep timeoutMs) response).err = 0 := by
  obtain ⟨entry, hentry, rfl⟩ := List.mem_map.mp hmem
  match entry with
  | .called (.readTemp shortAddr ep timeoutMs) none => cases hreading
  | .called (.readTemp shortAddr ep timeoutMs) (some response) =>
    exact ⟨shortAddr, ep, timeoutMs, response, hentry, of_decide_eq_true hreading⟩

section Honesty

variable {client : ClientState} {probe : Bool} {fd : Descriptor}

/-- A run does what the application may do. -/
theorem allowed_session (client : ClientState) (probe : Bool) (fd : Descriptor) :
    Script.Allowed MayAsk MayTell []
        ((session client (ThermostatApp.run probe) fd).entries.map Entry.event) ∧
      MayEnd ((session client (ThermostatApp.run probe) fd).entries.map Entry.event)
        (session client (ThermostatApp.run probe) fd).value :=
  (ThermostatApp.holds_run probe).path (path_session (ThermostatApp.run probe) fd)

theorem mayAsk_of_called {entries earlier later : List Entry} {call : ApiCall}
    {reply : Option (desc (apiOf call)).Resp}
    (hallowed : Script.Allowed MayAsk MayTell [] (entries.map Entry.event))
    (hsplit : entries = earlier ++ .called call reply :: later) :
    MayAsk (earlier.map Entry.event) call := by
  refine hallowed.asked (earlier.map Entry.event) call (valueOf call reply)
    (later.map Entry.event) ?_
  rw [hsplit, List.map_append, List.map_cons]
  rfl

theorem mayTell_of_reported {entries earlier later : List Entry} {report : Report}
    (hallowed : Script.Allowed MayAsk MayTell [] (entries.map Entry.event))
    (hsplit : entries = earlier ++ .reported report :: later) :
    MayTell (earlier.map Entry.event) report := by
  refine hallowed.noted (earlier.map Entry.event) report (later.map Entry.event) ?_
  rw [hsplit, List.map_append, List.map_cons]
  rfl

/-- Nothing is called after `read_temp`. -/
theorem not_called_after_readTemp {entries earlier later : List Entry} {shortAddr : UInt16}
    {ep : UInt8} {timeoutMs : UInt32} {reply : Option (desc (apiOf (.readTemp shortAddr ep timeoutMs))).Resp}
    (hallowed : Script.Allowed MayAsk MayTell [] (entries.map Entry.event))
    (hsplit : entries = earlier ++ .called (.readTemp shortAddr ep timeoutMs) reply :: later)
    {call : ApiCall} {other : Option (desc (apiOf call)).Resp} : .called call other ∉ later := by
  intro hmem
  obtain ⟨between, after, rfl⟩ := List.append_of_mem hmem
  rw [← List.cons_append, ← List.append_assoc] at hsplit
  have hunread := (mayAsk_of_called hallowed hsplit).1.unread
    (.asked (.readTemp shortAddr ep timeoutMs) (valueOf _ reply))
    (List.mem_map_of_mem (f := Entry.event)
      (a := .called (.readTemp shortAddr ep timeoutMs) reply) (by simp))
  cases hunread

/-- A run is honest when it is supplied. -/
theorem honest_of_supplied
    (hsupplied : Supplied (session client (ThermostatApp.run probe) fd).entries) :
    Honest (session client (ThermostatApp.run probe) fd).entries
      (session client (ThermostatApp.run probe) fd).value fd.incoming := by
  obtain ⟨hallowed, -, hsuccess⟩ := allowed_session client probe fd
  constructor
  · intro earlier report later hsplit
    obtain ⟨⟨call, answer⟩, hlast, hshows, hsource⟩ := mayTell_of_reported hallowed hsplit
    rw [lastCall_map_event] at hlast
    obtain ⟨⟨other, reply⟩, hcalled, hsame⟩ := Option.map_eq_some_iff.mp hlast
    cases hsame
    cases reply with
    | some response => exact ⟨other, response, hcalled, hshows⟩
    | none =>
      have hmem : .called other none ∈ (session client (ThermostatApp.run probe) fd).entries := by
        rw [hsplit]
        exact List.mem_append_left _ (lastCalled_mem hcalled)
      by_cases hpoll : other = .getLastTemp
      · subst hpoll
        exact absurd (hsupplied.temperatures none hmem) (by simp)
      · rcases hsource with hsame | hnotFailed
        · exact absurd hsame hpoll
        · exact absurd ((failed_fallback hshows hpoll).symm.trans hnotFailed) (by simp)
  · intro earlier call reply later hsplit device hdevice
    obtain ⟨shortAddr, timeoutMs, sensor, hmem, hsensor, rfl⟩ :=
      (mayAsk_of_called hallowed hsplit).2 device hdevice
    obtain ⟨response, hcalled, rfl⟩ := called_of_asked_findSensor hmem hsensor
    exact ⟨shortAddr, timeoutMs, response, hcalled, rfl⟩
  · exact responseFrames_session _ fd
  · intro hresult call reply hcalled
    obtain ⟨event, hmem, hreading⟩ := hsuccess.mp hresult
    obtain ⟨shortAddr, ep, timeoutMs, response, hread, hok⟩ := called_of_isReading hmem hreading
    by_contra hnone
    obtain rfl : reply = none := by simpa using hnone
    obtain ⟨earlier, later, hsplit⟩ := List.append_of_mem hread
    rw [hsplit] at hcalled
    rcases List.mem_append.mp hcalled with hbefore | hafter
    · obtain ⟨first, between, rfl⟩ := List.append_of_mem hbefore
      rw [List.append_assoc, List.cons_append] at hsplit
      exact hsupplied.broken first call _ hsplit shortAddr ep timeoutMs response (by simp) hok
    · rcases List.mem_cons.mp hafter with hsame | hlater
      · cases hsame
      · exact not_called_after_readTemp hallowed hsplit hlater

/-- A run that is honest was supplied. -/
theorem supplied_of_honest
    (hhonest : Honest (session client (ThermostatApp.run probe) fd).entries
      (session client (ThermostatApp.run probe) fd).value fd.incoming) :
    Supplied (session client (ThermostatApp.run probe) fd).entries := by
  obtain ⟨hallowed, hended, hsuccess⟩ := allowed_session client probe fd
  constructor
  · intro reply hmem
    obtain ⟨earlier, later, hsplit⟩ := List.append_of_mem hmem
    -- The call is followed by its report, since nothing else may follow it.
    cases later with
    | nil =>
      have hlast := hended (.asked .getLastTemp (valueOf .getLastTemp reply)) (by
        rw [hsplit, List.map_append, List.map_singleton, List.getLast?_concat]
        rfl)
      cases hlast
    | cons next later =>
      rw [List.append_cons] at hsplit
      cases next with
      | called call other =>
        have hready := (mayAsk_of_called hallowed hsplit).1.reported
          (.asked .getLastTemp (valueOf .getLastTemp reply)) (by
            rw [List.map_append, List.map_singleton, List.getLast?_concat]
            rfl)
        cases hready
      | reported report =>
        obtain ⟨call, response, hlast, -⟩ := hhonest.reports _ report later hsplit
        rw [lastCalled, List.filterMap_append, List.filterMap_cons, List.filterMap_nil] at hlast
        simp only [List.getLast?_concat, Option.some.injEq] at hlast
        cases hlast
        rfl
  · intro earlier call later hsplit shortAddr ep timeoutMs response hmem hok
    have hread : .called (.readTemp shortAddr ep timeoutMs) (some response) ∈
        (session client (ThermostatApp.run probe) fd).entries := by
      rw [hsplit]
      exact List.mem_append_right _ (List.mem_cons_of_mem _ hmem)
    have hresult := hsuccess.mpr ⟨_, List.mem_map_of_mem hread, decide_eq_true hok⟩
    have hunanswered : .called call none ∈
        (session client (ThermostatApp.run probe) fd).entries := by
      rw [hsplit]
      exact List.mem_append_right _ List.mem_cons_self
    exact absurd (hhonest.success hresult call none hunanswered) (by simp)

/-- Whatever the server sends and wherever the connection breaks: the application presents as data, and
turns to, only what came in complete responses, and reports success only when every call was answered,
if and only if every `get_last_temp` is answered and no reading arrives once a call has gone without
its response. Assumes: a descriptor is attached. -/
theorem honest_iff (client : ClientState) (hattached : client.attached = true) (probe : Bool)
    (fd : Descriptor) :
    execute (remoteRun probe) client fd =
        ⟨(session client (ThermostatApp.run probe) fd).value, client,
          reports (session client (ThermostatApp.run probe) fd).entries,
          (session client (ThermostatApp.run probe) fd).fd⟩ ∧
      (Honest (session client (ThermostatApp.run probe) fd).entries
          (session client (ThermostatApp.run probe) fd).value fd.incoming ↔
        Supplied (session client (ThermostatApp.run probe) fd).entries) :=
  ⟨execute_remote hattached _ fd, supplied_of_honest, honest_of_supplied⟩

/-- A descriptor on which given bytes arrive and a number of writes succeed before the connection
breaks. -/
def brokenAfter (incoming : Bytes) (writes : ℕ) : Descriptor where
  incoming := incoming
  reads := ⟨fun _ ↦ .moved 63, 0, by simp⟩
  sent := []
  writes := ⟨fun n ↦ if n < writes then .moved 63 else .failed, 0, fun n _ ↦ by split <;> simp⟩

/-- Responses that commission a sensor. -/
def commissioningResponses : Bytes :=
  frame Api.getPanid.id [0x34, 0x12] ++ frame Api.getChannel.id [11] ++
    frame Api.openNetwork.id [0, 0, 0, 0] ++ frame Api.waitAnnce.id [0x56, 0x19] ++
    frame Api.findSensor.id [0, 0, 0, 0, 0x56, 0x19, 10] ++
    frame Api.readBasic.id (List.replicate 36 0) ++ frame Api.bindSensor.id [0, 0, 0, 0] ++
    frame Api.subscribeSensor.id [0, 0, 0, 0] ++ frame Api.configReport.id [0, 0, 0, 0]

/-- Five responses to `get_last_temp`, and one to `read_temp`. -/
def temperatureResponses : Bytes :=
  (List.replicate 5 (frame Api.getLastTemp.id [0x66, 0x08])).flatten ++
    frame Api.readTemp.id [0, 0, 0, 0, 0x66, 0x08, 0x60, 0xF0, 0xD4, 0x30, 0x0A, 0x00]

def Entry.isUnanswered : Entry → Bool
  | .called _ none => true
  | _ => false

def Entry.isUnansweredTemp : Entry → Bool
  | .called .getLastTemp none => true
  | _ => false

/-- A run all of whose calls are answered. -/
theorem honest_commissioning :
    (execute (remoteRun false) ⟨3⟩ (brokenAfter (commissioningResponses ++ temperatureResponses)
        22)).value = .success ∧
      Honest (session ⟨3⟩ (ThermostatApp.run false)
          (brokenAfter (commissioningResponses ++ temperatureResponses) 22)).entries
        (session ⟨3⟩ (ThermostatApp.run false)
          (brokenAfter (commissioningResponses ++ temperatureResponses) 22)).value
        (commissioningResponses ++ temperatureResponses) := by
  have hanswered : ∀ entry ∈ (session ⟨3⟩ (ThermostatApp.run false)
      (brokenAfter (commissioningResponses ++ temperatureResponses) 22)).entries,
      entry.isUnanswered = false := by
    decide +kernel
  obtain ⟨hexecute, hhonest⟩ := honest_iff ⟨3⟩ rfl false
    (brokenAfter (commissioningResponses ++ temperatureResponses) 22)
  refine ⟨?_, hhonest.mpr ⟨fun reply hmem ↦ ?_, fun earlier call later hsplit ↦ ?_⟩⟩
  · rw [hexecute]
    decide +kernel
  · cases reply with
    | none => cases hanswered _ hmem
    | some response => rfl
  · have hmem := hanswered (.called call none) (by rw [hsplit]; simp)
    cases hmem

/-- The connection breaks before the first `get_last_temp`: the application reports five measurements
of zero degrees that nobody has made. -/
theorem unanswered_temperature_reported :
    (execute (remoteRun false) ⟨3⟩ (brokenAfter commissioningResponses 15)).marks =
        .model (.zero 16) :: .manufacturer (.zero 16) :: List.replicate 5 (.lastTemp 0) ∧
      ¬ Honest (session ⟨3⟩ (ThermostatApp.run false)
          (brokenAfter commissioningResponses 15)).entries
        (session ⟨3⟩ (ThermostatApp.run false) (brokenAfter commissioningResponses 15)).value
        commissioningResponses := by
  constructor
  · decide +kernel
  · intro hhonest
    have hunanswered : (session ⟨3⟩ (ThermostatApp.run false)
        (brokenAfter commissioningResponses 15)).entries.any Entry.isUnansweredTemp = true := by
      decide +kernel
    obtain ⟨entry, hmem, htest⟩ := List.any_eq_true.mp hunanswered
    match entry with
    | .called .getLastTemp none =>
      exact absurd ((supplied_of_honest hhonest).temperatures none hmem) (by simp)

end Honesty

end ZigbeeRemote.System
