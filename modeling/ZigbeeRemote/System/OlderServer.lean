import ZigbeeRemote.Client.Main
import ZigbeeRemote.Foundation.Reconnection
import ZigbeeRemote.Server.SessionOutlook
import ZigbeeRemote.System.BrokenConnection

/-!
# The client and an older server

An older server does not know `get_sensor_addr`. The main program of the client finds that out by
calling it: the server answers with an error and closes, the function returns the address that is
none, and the application asks to be run again. The main program then connects once more and runs it
without the call.

A `Conversation` is a run of the application on the functions of a server, without the network
between them. `session_inevitable` is the same over a connection, in any interleaving and
fragmentation, for an application all of whose calls the server knows, and `probe_inevitable` the
session that ends with the unknown call, of whose answer any part may be lost.

`probe_unnoticed` compares the main program with one run of the application without the probe: both
come to their end with the same result, and the server has been called in the same way and is in the
same state. The two connections of the main program overlap as they may, `Redial` in `Foundation`.
-/

set_option autoImplicit false
set_option relaxedAutoImplicit false

namespace ZigbeeRemote.System

open Foundation Rpc Zigbee Client Server WireType
open Client.ThermostatApp (App Report Result)

/-! ### The application and a server that knows its calls -/

section Conversation

variable {σ α : Type}

/-- A run of the application on a server: its value and reports, the calls it has made, and the state
of the server afterwards. -/
structure Conversation (σ α : Type) where
  value : α
  reports : List Report
  calls : List ApiCall
  state : σ

/-- Run a script on the functions of a server. -/
def converse (functions : Functions σ) : App α → σ → Conversation σ α
  | .done value, state => ⟨value, [], [], state⟩
  | .call call next, state =>
    let answer := (functions (apiOf call) (requestOf call)).run state
    let later := converse functions (next (decode call answer.1)) answer.2
    { later with calls := call :: later.calls }
  | .note report next, state =>
    let later := converse functions next state
    { later with reports := report :: later.reports }

/-- The requests of a run. -/
def Conversation.requests (conversation : Conversation σ α) : List Request :=
  conversation.calls.map wireRequest

variable (functions : Functions σ)

theorem stateAfter_converse (script : App α) (state : σ) :
    stateAfter functions (converse functions script state).requests state =
      (converse functions script state).state := by
  induction script generalizing state with
  | done value => rfl
  | call call next ih =>
    show stateAfter functions _ (serve functions (wireRequest call) state).2 = _
    rw [serve_wireRequest]
    exact ih _ _
  | note report next ih => exact ih state

variable {client : ClientState}

/-- A function of the client takes exactly its response off the stream. -/
theorem behave_ask (hattached : client.attached = true) (call : ApiCall) {response : Bytes}
    (rest : Bytes) (hresponse : response.length = wireSize (desc (apiOf call)).Resp) :
    behave false (rpcApi.ask call : Prog ClientState Report _) client
        (frame (apiOf call).id response ++ rest) =
      ⟨(wireRequest call).frame, [],
        1 + sendCost (desc (apiOf call)).Req + (1 + payloadCost (desc (apiOf call)).Resp), client,
        .finished (decode call (ofWire (desc (apiOf call)).Resp response)) rest⟩ := by
  rw [ask_eq_stub]
  exact behave_stub_response hattached call (fallback call) (decode call) rest hresponse

/-- The client on the responses of the server. -/
theorem behave_remote (hattached : client.attached = true) (script : App α) (state : σ)
    (rest : Bytes) :
    ∃ cost, behave false (script.interpret rpcApi.ask Prog.mark) client
        ((exchanges functions (converse functions script state).requests state).flatMap
          responseFrame ++ rest) =
      ⟨(converse functions script state).requests.flatMap Request.frame,
        (converse functions script state).reports, cost, client,
        .finished (converse functions script state).value rest⟩ := by
  induction script generalizing state with
  | done value => exact ⟨0, rfl⟩
  | call call next ih =>
    obtain ⟨cost, hlater⟩ := ih (decode call ((functions (apiOf call) (requestOf call)).run state).1)
      ((functions (apiOf call) (requestOf call)).run state).2
    have hresponse := behave_ask hattached call
      ((exchanges functions (converse functions
        (next (decode call ((functions (apiOf call) (requestOf call)).run state).1))
        ((functions (apiOf call) (requestOf call)).run state).2).requests
          ((functions (apiOf call) (requestOf call)).run state).2).flatMap responseFrame ++ rest)
      (length_wireBytes ((functions (apiOf call) (requestOf call)).run state).1)
    rw [ofWire_wireBytes] at hresponse
    refine ⟨1 + sendCost (desc (apiOf call)).Req + (1 + payloadCost (desc (apiOf call)).Resp) + cost,
      ?_⟩
    simp only [Script.interpret, Prog.bind_eq_bind, Conversation.requests, converse, List.map_cons,
      exchanges, serve_wireRequest, List.flatMap_cons, responseFrame_wireRequest, List.append_assoc,
      behave_bind] at hresponse hlater ⊢
    rw [hresponse, Behaviour.andThen_finished, hlater]
    simp [Behaviour.after]
  | note report next ih =>
    obtain ⟨cost, hlater⟩ := ih state
    refine ⟨1 + cost, ?_⟩
    rw [Script.interpret, Prog.bind_eq_bind, behave_bind, behave_mark, Behaviour.andThen_finished]
    simp only [Conversation.requests, converse] at hlater ⊢
    rw [hlater]
    rfl

end Conversation

/-! ### No deadlock -/

section DeadlockFree

variable {σ α : Type} {client : ClientState} (pppUartIsConnected : StateM σ Bool)
  (functions : Functions σ) (apis : List Api)

/-- A function of the client writes its request whatever it reads. -/
theorem request_prefix_ask (hattached : client.attached = true) (call : ApiCall) (input : Bytes) :
    (wireRequest call).frame <+:
      (behave false (rpcApi.ask call : Prog ClientState Report _) client input).output := by
  rw [ask_eq_stub]
  exact request_prefix_stub hattached call (fallback call) (decode call) input

/-- The application and a session cannot both wait when each has read all that the other has
written. -/
theorem no_common_block_remote (hattached : client.attached = true) (script : App α)
    {serverState : σ} {error : ErrorCode} {toServer toClient : Bytes}
    {behaviour : Behaviour σ ServerMark (Bool × ErrorCode)}
    (hwritten : (behave false (script.interpret rpcApi.ask Prog.mark) client toClient).output =
      toServer)
    (hwaits : (behave false (script.interpret rpcApi.ask Prog.mark) client toClient).ending =
      .blocked)
    (hserver : Reacts false (serveAgain pppUartIsConnected (handlersOf functions apis))
      ((serveRound pppUartIsConnected (handlersOf functions apis)).run error) serverState toServer
      behaviour)
    (hanswered : behaviour.output = toClient) (hblocked : behaviour.ending = .blocked) : False := by
  induction script generalizing serverState error toServer toClient behaviour with
  | done value => cases hwaits
  | call call next ih =>
    have hbind : behave false ((Script.call call next).interpret rpcApi.ask Prog.mark) client toClient =
        (behave false (rpcApi.ask call : Prog ClientState Report _) client toClient).andThen
          fun answer later rest ↦
            behave false ((next answer).interpret rpcApi.ask Prog.mark) later rest :=
      behave_bind false client _ _ toClient
    obtain ⟨more, hmore⟩ := (request_prefix_ask hattached call toClient).trans
      (Behaviour.output_prefix_andThen _ fun answer later rest ↦
        behave false ((next answer).interpret rpcApi.ask Prog.mark) later rest)
    rw [← hbind, hwritten] at hmore
    subst hmore
    obtain ⟨response, after, later, marks, cost, hlength, hlater, rfl⟩ :=
      served_of_blocked pppUartIsConnected functions apis hserver hblocked
    rw [Behaviour.after_output] at hanswered
    subst hanswered
    have hresponse : behave false (rpcApi.ask call : Prog ClientState Report _) client
        (frame (wireRequest call).api.id response ++ later.output) = _ :=
      behave_ask hattached call later.output hlength
    rw [hbind, hresponse, Behaviour.andThen_finished] at hwritten hwaits
    exact ih _ (List.append_cancel_left hwritten) hwaits hlater rfl hblocked
  | note report next ih =>
    rw [Script.interpret, Prog.bind_eq_bind, behave_bind, behave_mark, Behaviour.andThen_finished]
      at hwritten hwaits
    exact ih hwritten hwaits hserver hanswered hblocked

/-- No reachable state of the application and a session has both waiting for each other. -/
theorem remote_deadlock_free (hattached : client.attached = true) (script : App α) (state : σ)
    {connection : Connection ClientState Report α σ ServerMark (Bool × ErrorCode)}
    (hreach : Reachable
      (Connection.Step (serveAgain pppUartIsConnected (handlersOf functions apis)))
      (Connection.start (script.interpret rpcApi.ask Prog.mark) client
        (serveClient pppUartIsConnected (handlersOf functions apis)) state) connection) :
    ¬ connection.Deadlocked := by
  intro hdeadlocked
  obtain ⟨toServer, toClient, serverAll, hwritten, hwaits, hserver, hanswered, hblocked⟩ :=
    hdeadlocked.behaviours hreach
  exact no_common_block_remote pppUartIsConnected functions apis hattached script hwritten hwaits hserver
    hanswered hblocked

end DeadlockFree

/-! ### A call that the server does not know -/

section Refused

variable {σ α : Type} {client : ClientState}

/-- A reply that is an error, of which the server may leave any part unsent, is no response. -/
theorem keeps_callReply_refused {κ μ : Type} (d : RpcDesc) (code error : ErrorCode) {state : κ}
    {marks : List μ} :
    ((callReply d : EngineM κ μ _).run error).Keeps true
      (fun result later ↦ result.1 = none ∧ later.state = state ∧ later.marks = marks ∧
        later.output = [] ∧ (later.lost = true ∨ later.input = []))
      ⟨state, marks, errorFrame code, [], 1 + (1 + 0), false⟩ := by
  have hlength : (wireBytes (⟨toLe32 code.code⟩ : ErrorResp)).length = wireSize ErrorResp :=
    length_wireBytes _
  have hle : (wireBytes (⟨toLe32 code.code⟩ : ErrorResp)).length ≤ kMaxPayload.toNat :=
    hlength ▸ wireSize_le
  have hheader := behave_receiveHeader (ε := μ) false state error kMagic ApiId.error
    (UInt32.ofNat (wireBytes (⟨toLe32 code.code⟩ : ErrorResp)).length)
    (wireBytes (⟨toLe32 code.code⟩ : ErrorResp))
  rw [headerVerdict_of_le _ (ofNat_le_kMaxPayload hle)] at hheader
  have hsize : (⟨ApiId.error, UInt32.ofNat (wireBytes (⟨toLe32 code.code⟩ : ErrorResp)).length⟩ :
      FrameHeader).size.toNat = wireSize ErrorResp := (toNat_ofNat_of_le hle).trans hlength
  have hpayload := behave_receivePayload (ε := μ) false state .none [] hsize hlength
  rw [List.append_nil] at hpayload
  refine keeps_run_bind (Prog.keeps_of_single_read hheader ?_ fun left ↦ ?_)
  · refine keeps_run_bind (Prog.keeps_of_single_read hpayload ?_ fun left ↦ ?_)
    · exact ⟨rfl, rfl, rfl, rfl, Or.inr rfl⟩
    · exact ⟨rfl, rfl, rfl, rfl, Or.inl rfl⟩
  · exact ⟨rfl, rfl, rfl, rfl, Or.inl rfl⟩

/-- A function of the client that gets an error returns its fixed value, and so it does when the
connection ends on the way. -/
theorem keeps_ask_refused (hattached : client.attached = true) (call : ApiCall) (code : ErrorCode)
    {marks : List Report} :
    (rpcApi.ask call : Prog ClientState Report _).Keeps true
      (fun value later ↦ value = fallback call ∧ later.state = client ∧ later.marks = marks ∧
        later.output = [] ∧ (later.lost = true ∨ later.input = []))
      ⟨client, marks, errorFrame code, (wireRequest call).frame,
        1 + (sendCost (desc (apiOf call)).Req + (1 + (1 + 0))), false⟩ := by
  have hquery : ((ClientState.attached <$> get : StateM ClientState Bool).run client) =
      (true, client) := by
    rw [← hattached]
    rfl
  rw [ask_eq_stub, frame_wireRequest, stub, Prog.bind_eq_bind]
  refine Prog.Keeps.bind (Prog.keeps_lift ?_)
  rw [hquery]
  refine Prog.Keeps.bind (keeps_run_bind ?_)
  rw [← List.append_nil (frame (desc (apiOf call)).id _)]
  refine keeps_run_send ((keeps_callReply_refused _ code _).imp ?_)
  rintro ⟨result, left⟩ later ⟨hnone, hlater⟩
  obtain rfl : result = none := hnone
  exact ⟨rfl, hlater⟩

end Refused

/-! ### Sessions from start to end -/

section Sessions

variable {σ α : Type} {client : ClientState} {pppUartIsConnected : StateM σ Bool}
  {functions : Functions σ} {apis : List Api}

/-- Two sides that keep to outlooks which fit together bring the session to its end. -/
theorem settled_of_keeps (hattached : client.attached = true) (script : App α) {state after : σ}
    {serverLeaves : Bool} {value : α} {marks : List ServerMark} {clientOutput serverOutput : Bytes}
    {clientCost serverCost : ℕ}
    (hclient : (script.interpret rpcApi.ask Prog.mark).Keeps serverLeaves
      (fun result later ↦ result = value ∧ (later.lost = true ∨ later.input = []))
      ⟨client, [], serverOutput, clientOutput, clientCost, false⟩)
    (hserver : (serveClient pppUartIsConnected (handlersOf functions apis)).KeepsOn true
      (serveAgain pppUartIsConnected (handlersOf functions apis))
      (fun _ later ↦ later.marks = marks ∧ later.state = after ∧
        (later.lost = true ∨ serverLeaves = true ∧ later.input = []))
      ⟨state, [], clientOutput, serverOutput, serverCost, false⟩) :
    Inevitable (Connection.Step (serveAgain pppUartIsConnected (handlersOf functions apis)))
      (Connection.Settled value marks after)
      (Connection.start (script.interpret rpcApi.ask Prog.mark) client
        (serveClient pppUartIsConnected (handlersOf functions apis)) state) := by
  refine ((Agreement.start hclient hserver).inevitable (fun _ _ hpost ↦ hpost.2)
    (fun _ _ hpost ↦ hpost.2.2)
    (fun _ hreach ↦ remote_deadlock_free pppUartIsConnected functions apis hattached script state hreach)
    (Reachable.refl _)).imp ?_
  rintro connection ⟨hclientClosed, hserverClosed, ⟨result, _, _, _, _, hdone, rfl, -⟩,
    _, _, _, _, _, -, -, hmarks, hstate, -⟩
  exact ⟨hclientClosed, hserverClosed, hdone, hmarks, hstate⟩

/-- The marks of a run on a server that knows all its calls. -/
def Conversation.marks (functions : Functions σ) (conversation : Conversation σ α) (state : σ) :
    List ServerMark :=
  (exchanges functions conversation.requests state).flatMap exchangeMarks

/-- An application all of whose calls the server knows comes to its end, in any interleaving and
fragmentation, and the server serves exactly its calls. -/
theorem session_inevitable (hlink : ∀ state, pppUartIsConnected.run state = (true, state))
    (hattached : client.attached = true) (script : App α) (state : σ)
    (hknown : ∀ call ∈ (converse functions script state).calls, apiOf call ∈ apis) :
    Inevitable (Connection.Step (serveAgain pppUartIsConnected (handlersOf functions apis)))
      (Connection.Settled (converse functions script state).value
        ((converse functions script state).marks functions state)
        (converse functions script state).state)
      (Connection.start (script.interpret rpcApi.ask Prog.mark) client
        (serveClient pppUartIsConnected (handlersOf functions apis)) state) := by
  obtain ⟨clientCost, hbehave⟩ := behave_remote functions hattached script state []
  have hclient : (script.interpret rpcApi.ask Prog.mark).Keeps false
      (fun result later ↦ result = (converse functions script state).value ∧
        (later.lost = true ∨ later.input = []))
      ⟨client, [], (exchanges functions (converse functions script state).requests state).flatMap
          responseFrame ++ [],
        (converse functions script state).requests.flatMap Request.frame ++ [], clientCost + 0,
        false⟩ := Prog.keeps_of_behave hbehave nofun ⟨rfl, Or.inr rfl⟩
  have hrequests : ∀ request ∈ (converse functions script state).requests, request.api ∈ apis := by
    intro request hrequest
    obtain ⟨call, hcall, rfl⟩ := List.mem_map.mp hrequest
    exact hknown call hcall
  have hlast : ∀ error, ((serveRound pppUartIsConnected (handlersOf functions apis)).run error).KeepsOn
      true (serveAgain pppUartIsConnected (handlersOf functions apis))
      (fun _ later ↦ later.marks = (converse functions script state).marks functions state ∧
        later.state = (converse functions script state).state ∧
        (later.lost = true ∨ false = true ∧ later.input = []))
      ⟨stateAfter functions (converse functions script state).requests state,
        [] ++ (converse functions script state).marks functions state, [], [], 2, false⟩ :=
    fun error ↦ keepsOn_wait hlink _ error
      ⟨rfl, stateAfter_converse functions script state, Or.inl rfl⟩
  obtain ⟨serverCost, hserver⟩ := keepsOn_requests hlink _ hrequests hlast
  exact settled_of_keeps hattached script hclient (hserver .none)

end Sessions

/-! ### The application without the probe -/

section Application

open Client.ThermostatApp hiding run kInvalidShortAddr

/-- `run` from the point on where no sensor is reused. -/
def commissionAndRead : App Result := do
  match ← commission with
  | none => return .failure
  | some sensor => do
    reportTemperatures 5
    readSensor sensor

/-- `run` once the network has been asked for its identifier and channel. -/
def proceed (probeCachedSensor : Bool) (panid : UInt16) : App Result := do
  match ← knownSensor probeCachedSensor panid with
  | .retry => return .retryWithoutCache
  | .reused sensor => readSensor sensor
  | .unknown => commissionAndRead

theorem run_eq_proceed (probe : Bool) :
    ThermostatApp.run probe =
      .call .getPanid fun panid ↦ .call .getChannel fun _ ↦ proceed probe panid := rfl

/-- Without the probe, and on a network that is not up, `run` goes straight to commissioning. -/
theorem proceed_of_skipped {probe : Bool} {panid : UInt16} (hskipped : (probe && panid != 0) = false) :
    proceed probe panid = commissionAndRead := by
  rw [proceed, knownSensor, if_neg (by rw [hskipped]; exact Bool.false_ne_true)]
  rfl

/-- The probe, answered by the address that is none. -/
theorem proceed_of_probed {panid : UInt16} (hpanid : panid ≠ 0) :
    ∃ next : UInt16 → App Result, proceed true panid = .call .getSensorAddr next ∧
      next kInvalidShortAddr = .done .retryWithoutCache := by
  have hprobed : (true && panid != 0) = true := by simpa using hpanid
  rw [proceed, knownSensor, if_pos hprobed]
  exact ⟨_, rfl, rfl⟩

/-- The call is not the probe. -/
def NoProbe (_ : List Event) (call : ApiCall) : Prop := call ≠ .getSensorAddr

theorem holds_readSensor_noProbe (sensor : ZigbeeAddr) (events : List Event) :
    (readSensor sensor).Holds NoProbe (fun _ _ ↦ True)
      (fun _ result ↦ result ≠ .retryWithoutCache) events := by
  refine holds_ask_bind nofun fun attrs ↦ ?_
  by_cases hattrs : attrs.err ≠ 0
  · rw [if_pos hattrs]
    exact holds_return nofun
  · rw [if_neg hattrs]
    exact holds_tell_bind trivial (holds_return nofun)

theorem holds_reportTemperatures_noProbe (count : ℕ) (events : List Event) :
    (reportTemperatures count).Holds NoProbe (fun _ _ ↦ True) (fun _ _ ↦ True) events := by
  induction count generalizing events with
  | zero => exact holds_return trivial
  | succ count ih => exact holds_ask_bind nofun fun last ↦ holds_tell_bind trivial (ih _)

theorem holds_configure_noProbe (sensor : ZigbeeAddr) (events : List Event) :
    (configure sensor).Holds NoProbe (fun _ _ ↦ True) (fun _ _ ↦ True) events := by
  refine holds_ask_bind nofun fun basic ↦ ?_
  by_cases hbasic : basic.err ≠ 0
  · rw [if_pos hbasic]
    exact holds_return trivial
  rw [if_neg hbasic]
  refine holds_tell_bind trivial (holds_tell_bind trivial (holds_ask_bind nofun fun bindStatus ↦ ?_))
  by_cases hbind : bindStatus ≠ 0
  · rw [if_pos hbind]
    exact holds_return trivial
  rw [if_neg hbind]
  refine holds_ask_bind nofun fun subscribeStatus ↦ ?_
  by_cases hsubscribe : subscribeStatus ≠ 0
  · rw [if_pos hsubscribe]
    exact holds_return trivial
  rw [if_neg hsubscribe]
  exact holds_ask_bind nofun fun reportStatus ↦ holds_return trivial

theorem holds_commission_noProbe (events : List Event) :
    commission.Holds NoProbe (fun _ _ ↦ True) (fun _ _ ↦ True) events := by
  refine holds_ask_bind nofun fun openStatus ↦ ?_
  by_cases hopen : openStatus ≠ 0
  · rw [if_pos hopen]
    exact holds_return trivial
  rw [if_neg hopen]
  refine holds_ask_bind nofun fun peer ↦ ?_
  by_cases hpeer : peer = 0
  · rw [if_pos hpeer]
    exact holds_return trivial
  rw [if_neg hpeer]
  refine holds_ask_bind nofun fun sensor ↦ ?_
  by_cases hsensor : sensor.err ≠ 0
  · rw [if_pos hsensor]
    exact holds_return trivial
  rw [if_neg hsensor]
  exact Script.Holds.bind ((holds_configure_noProbe sensor _).imp fun _ _ _ ↦ holds_return trivial)

/-- Commissioning does not use the probe and does not ask to be run again. -/
theorem holds_commissionAndRead (events : List Event) :
    commissionAndRead.Holds NoProbe (fun _ _ ↦ True)
      (fun _ result ↦ result ≠ .retryWithoutCache) events := by
  refine Script.Holds.bind ((holds_commission_noProbe _).imp fun _ found _ ↦ ?_)
  cases found with
  | none => exact holds_return nofun
  | some sensor =>
    exact Script.Holds.bind ((holds_reportTemperatures_noProbe 5 _).imp fun _ _ _ ↦
      holds_readSensor_noProbe sensor _)

/-- What a script does whatever the answers it does on the functions of a server. -/
theorem converse_of_holds {σ α : Type} (functions : Functions σ) (state : σ) {may : ApiCall → Prop}
    {ends : α → Prop} {script : App α} {events : List Event}
    (hholds : script.Holds (fun _ call ↦ may call) (fun _ _ ↦ True) (fun _ value ↦ ends value)
      events) :
    (∀ call ∈ (converse functions script state).calls, may call) ∧
      ends (converse functions script state).value := by
  induction script generalizing events state with
  | done value => exact ⟨by simp [converse], hholds⟩
  | call call next ih =>
    obtain ⟨hlater, hends⟩ := ih _ _ (hholds.2 _)
    exact ⟨List.forall_mem_cons.mpr ⟨hholds.1, hlater⟩, hends⟩
  | note report next ih => exact ih state hholds.2

end Application

/-! ### The probe -/

section Probe

variable {σ : Type} {client : ClientState} {pppUartIsConnected : StateM σ Bool}
  {functions : Functions σ} {apis : List Api}

/-- A function of the client that gets its response, when the server may leave later. -/
theorem keeps_ask_bind {α : Type} (hattached : client.attached = true) (call : ApiCall) (state : σ)
    {next : call.Result → Prog ClientState Report α} {post : α → Outlook ClientState Report → Prop}
    {marks : List Report} {input more : Bytes} {cost : ℕ} (hmore : more ≠ [])
    (hnext : (next (decode call ((functions (apiOf call) (requestOf call)).run state).1)).Keeps true post
      ⟨client, marks, input, more, cost, false⟩) :
    ((rpcApi.ask call).bind next).Keeps true post
      ⟨client, marks, responseFrame (wireRequest call, (serve functions (wireRequest call) state).1) ++
          input, (wireRequest call).frame ++ more,
        1 + sendCost (desc (apiOf call)).Req + (1 + payloadCost (desc (apiOf call)).Resp) + cost,
        false⟩ := by
  rw [serve_wireRequest, responseFrame_wireRequest]
  refine Prog.Keeps.bind (Prog.keeps_of_behave (behave_ask hattached call input (length_wireBytes _))
    (fun _ ↦ hmore) ?_)
  rw [ofWire_wireBytes, List.append_nil]
  exact hnext

/-- The identifier of the network, as the client reads it. -/
def panidOf (functions : Functions σ) (state : σ) : UInt16 :=
  decode .getPanid ((functions .getPanid (requestOf .getPanid)).run state).1

theorem exchanges_append (functions : Functions σ) (first second : List Request) (state : σ) :
    exchanges functions (first ++ second) state =
      exchanges functions first state ++
        exchanges functions second (stateAfter functions first state) := by
  induction first generalizing state with
  | nil => rfl
  | cons request first ih => exact congrArg (_ :: ·) (ih _)

/-- The requests before the probe. -/
def networkRequests : List Request := [wireRequest .getPanid, wireRequest .getChannel]

/-- The client with the probe: it gets its first two responses, then an error or nothing. -/
theorem keeps_probe (hattached : client.attached = true) (state : σ)
    (hpanid : panidOf functions state ≠ 0) :
    ∃ cost, (remoteRun true).Keeps true
      (fun result later ↦ result = .retryWithoutCache ∧ (later.lost = true ∨ later.input = []))
      ⟨client, [], (exchanges functions networkRequests state).flatMap responseFrame ++
          errorFrame .unknownApi,
        networkRequests.flatMap Request.frame ++ (wireRequest .getSensorAddr).frame, cost, false⟩ := by
  obtain ⟨next, hproceed, hretry⟩ := proceed_of_probed hpanid
  have hframe : (wireRequest .getSensorAddr).frame ≠ [] := frame_ne_nil _ _
  obtain ⟨cost, hprobe⟩ : ∃ cost,
      ((proceed true (panidOf functions state)).interpret rpcApi.ask Prog.mark).Keeps true
        (fun result later ↦ result = .retryWithoutCache ∧ (later.lost = true ∨ later.input = []))
        ⟨client, [], errorFrame .unknownApi, (wireRequest .getSensorAddr).frame, cost, false⟩ := by
    rw [hproceed]
    refine ⟨_, Prog.Keeps.bind ((keeps_ask_refused hattached .getSensorAddr .unknownApi).imp ?_)⟩
    rintro value later ⟨rfl, -, -, -, hend⟩
    show ((next kInvalidShortAddr).interpret rpcApi.ask Prog.mark).Keeps true _ later
    rw [hretry]
    exact ⟨rfl, hend⟩
  constructor
  rw [remoteRun, run_eq_proceed]
  simp only [Script.interpret, Prog.bind_eq_bind, networkRequests, exchanges, List.flatMap_cons,
    List.flatMap_nil, List.append_assoc, List.nil_append]
  exact keeps_ask_bind hattached .getPanid state (List.append_ne_nil_of_right_ne_nil _ hframe)
    (keeps_ask_bind hattached .getChannel _ hframe hprobe)

/-- On an older server whose network is up, the application with the probe comes to ask to be run
again, and the server has served the two calls before the probe. -/
theorem probe_inevitable (hlink : ∀ state, pppUartIsConnected.run state = (true, state))
    (htable : ∀ api, api ∈ apis ↔ api ≠ .getSensorAddr) (hattached : client.attached = true) (state : σ)
    (hpanid : panidOf functions state ≠ 0) :
    Inevitable (Connection.Step (serveAgain pppUartIsConnected (handlersOf functions apis)))
      (Connection.Settled Result.retryWithoutCache
        ((exchanges functions networkRequests state).flatMap exchangeMarks)
        (stateAfter functions networkRequests state))
      (Connection.start (remoteRun true) client
        (serveClient pppUartIsConnected (handlersOf functions apis)) state) := by
  have hknown : ∀ request ∈ networkRequests, request.api ∈ apis := by
    intro request hrequest
    refine (htable _).mpr ?_
    rcases List.mem_pair.mp hrequest with rfl | rfl <;> decide
  have hunknown : ∀ api ∈ apis, Api.getSensorAddr.id ≠ api.id := by
    intro api hapi hsame
    exact (htable api).mp hapi (Api.id_injective hsame).symm
  obtain ⟨clientCost, hclient⟩ := keeps_probe hattached state hpanid
  obtain ⟨serverCost, hserver⟩ := keepsOn_refused hlink [] (fun _ later ↦
      later.marks = (exchanges functions networkRequests state).flatMap exchangeMarks ∧
      later.state = stateAfter functions networkRequests state ∧
      (later.lost = true ∨ true = true ∧ later.input = [])) networkRequests hknown
    (wireRequest .getSensorAddr).payload_le hunknown ⟨rfl, rfl, Or.inr ⟨rfl, rfl⟩⟩
  exact settled_of_keeps hattached (ThermostatApp.run true) hclient (hserver .none)

end Probe

/-! ### The main program -/

section Main

variable {σ : Type} {pppUartIsConnected : StateM σ Bool} {functions : Functions σ} {apis : List Api}

/-- An older server: its link is up, its table has every call but `get_sensor_addr`, and reading the
identifier or the channel of the network changes nothing. -/
structure IsOlder (pppUartIsConnected : StateM σ Bool) (functions : Functions σ) (apis : List Api) :
    Prop where
  link : ∀ state, pppUartIsConnected.run state = (true, state)
  table : ∀ api, api ∈ apis ↔ api ≠ .getSensorAddr
  panid : ∀ request state, ((functions .getPanid request).run state).2 = state
  channel : ∀ request state, ((functions .getChannel request).run state).2 = state

/-- The calls that were handed to a handler, but for `get_panid` and `get_channel`. -/
def changes (marks : List ServerMark) : List (ApiId × Bytes) :=
  (invocations marks).filter fun call ↦
    decide (call.1 ≠ Api.getPanid.id ∧ call.1 ≠ Api.getChannel.id)

theorem changes_append (first second : List ServerMark) :
    changes (first ++ second) = changes first ++ changes second := by
  rw [changes, invocations, List.filterMap_append, List.filter_append]
  rfl

theorem changes_networkRequests (state : σ) :
    changes ((exchanges functions networkRequests state).flatMap exchangeMarks) = [] := by
  rw [changes, invocations_exchanges]
  decide

/-- The application on a server on which reading the identifier and the channel of the network changes
nothing. -/
theorem converse_run (holder : IsOlder pppUartIsConnected functions apis) (probe : Bool) (state : σ) :
    converse functions (ThermostatApp.run probe) state =
      { converse functions (proceed probe (panidOf functions state)) state with
        calls := .getPanid :: .getChannel ::
          (converse functions (proceed probe (panidOf functions state)) state).calls } := by
  have hfirst := holder.panid (requestOf .getPanid) state
  have hsecond := holder.channel (requestOf .getChannel) state
  rw [run_eq_proceed]
  simp only [converse, apiOf, hfirst, hsecond]
  rfl

theorem stateAfter_networkRequests (holder : IsOlder pppUartIsConnected functions apis) (state : σ) :
    stateAfter functions networkRequests state = state := by
  have hfirst : (serve functions (wireRequest .getPanid) state).2 = state := by
    rw [serve_wireRequest]
    exact holder.panid _ state
  have hsecond : (serve functions (wireRequest .getChannel) state).2 = state := by
    rw [serve_wireRequest]
    exact holder.channel _ state
  rw [networkRequests, stateAfter, hfirst, stateAfter, hsecond, stateAfter]

theorem apiOf_ne_getSensorAddr {call : ApiCall} (hcall : call ≠ .getSensorAddr) :
    apiOf call ≠ .getSensorAddr := by
  cases call <;> simp [apiOf] at hcall ⊢

/-- The application where it goes straight to commissioning. -/
theorem commission_inevitable (holder : IsOlder pppUartIsConnected functions apis)
    {client : ClientState} (hattached : client.attached = true) (state : σ) {probe : Bool}
    (hskipped : (probe && panidOf functions state != 0) = false) :
    Inevitable (Connection.Step (serveAgain pppUartIsConnected (handlersOf functions apis)))
      (Connection.Settled (converse functions commissionAndRead state).value
        ((exchanges functions networkRequests state).flatMap exchangeMarks ++
          (converse functions commissionAndRead state).marks functions state)
        (converse functions commissionAndRead state).state)
      (Connection.start (remoteRun probe) client
        (serveClient pppUartIsConnected (handlersOf functions apis)) state) := by
  have hrun := converse_run holder probe state
  rw [proceed_of_skipped hskipped] at hrun
  obtain ⟨hnoProbe, -⟩ := converse_of_holds functions state (holds_commissionAndRead [])
  have hcalls : ∀ call ∈ (converse functions (ThermostatApp.run probe) state).calls,
      apiOf call ∈ apis := by
    rw [hrun]
    refine List.forall_mem_cons.mpr ⟨(holder.table _).mpr nofun,
      List.forall_mem_cons.mpr ⟨(holder.table _).mpr nofun, fun call hcall ↦ ?_⟩⟩
    exact (holder.table _).mpr (apiOf_ne_getSensorAddr (hnoProbe call hcall))
  have hmarks : (converse functions (ThermostatApp.run probe) state).marks functions state =
      (exchanges functions networkRequests state).flatMap exchangeMarks ++
        (converse functions commissionAndRead state).marks functions state := by
    have hrequests : (converse functions (ThermostatApp.run probe) state).requests =
        networkRequests ++ (converse functions commissionAndRead state).requests := by
      rw [hrun]
      rfl
    rw [Conversation.marks, hrequests, exchanges_append, List.flatMap_append,
      stateAfter_networkRequests holder]
    rfl
  have hsession := session_inevitable holder.link hattached (ThermostatApp.run probe) state hcalls
  rw [hmarks, hrun] at hsession
  exact hsession

/-- An older server behaves as if it had never been probed. The main program, whichever way it goes,
comes to the same result as one run of the application without the probe on a new connection, the
server's functions that may change its state are called in the same order with the same arguments,
and the server is left in the same state. Assumes: the server is an older one, and the sockets are
attached. -/
theorem probe_unnoticed (holder : IsOlder pppUartIsConnected functions apis)
    {first second fresh : ClientState} (hfirst : first.attached = true)
    (hsecond : second.attached = true) (hfresh : fresh.attached = true) (state : σ) :
    ∃ result calls after, result ≠ .retryWithoutCache ∧
      Inevitable (Connection.Step (serveAgain pppUartIsConnected (handlersOf functions apis)))
        (fun connection ↦ ∃ marks, changes marks = calls ∧ connection.Settled result marks after)
        (.start (remoteRun false) fresh
          (serveClient pppUartIsConnected (handlersOf functions apis)) state) ∧
      Inevitable (Redial.Step (serveAgain pppUartIsConnected (handlersOf functions apis))
          (serveClient pppUartIsConnected (handlersOf functions apis)) (mainRedial second))
        (fun main ↦ ∃ marks, changes marks = calls ∧ main.Settled result marks after)
        (.first (.start (remoteRun true) first
          (serveClient pppUartIsConnected (handlersOf functions apis)) state)) := by
  obtain ⟨-, hresult⟩ := converse_of_holds functions state (holds_commissionAndRead [])
  have hfreshRun := commission_inevitable holder hfresh state (Bool.false_and _)
  refine ⟨_, _, _, hresult, hfreshRun.imp fun _ hsettled ↦ ⟨_, rfl, hsettled⟩, ?_⟩
  by_cases hup : panidOf functions state = 0
  · have hskipped : (true && panidOf functions state != 0) = false := by simp [hup]
    have honly := commission_inevitable holder hfirst state hskipped
    have hnone : mainRedial second (converse functions commissionAndRead state).value = none :=
      if_neg hresult
    exact (Redial.inevitable_only hnone honly).imp fun _ hsettled ↦ ⟨_, rfl, hsettled⟩
  · have hprobe := probe_inevitable holder.link holder.table hfirst state hup
    have hagain := commission_inevitable holder hsecond state (Bool.false_and _)
    rw [stateAfter_networkRequests holder] at hprobe
    have hsome : mainRedial second .retryWithoutCache = some (remoteRun false, second) := if_pos rfl
    refine (Redial.inevitable_first hsome hprobe hagain).imp fun _ hsettled ↦ ⟨_, ?_, hsettled⟩
    rw [changes_append, changes_networkRequests, List.nil_append]

/-- A server whose network is up and that counts how often it has been opened. -/
def countingFunctions : Functions ℕ
  | .getPanid, _ => pure (⟨toLe16 0x1a62⟩ : U16Resp)
  | .openNetwork, _ => do
    modify (· + 1)
    return (⟨toLe32S 0⟩ : I32Resp)
  | api, _ => pure (init (desc api).Resp)

theorem probe_unnoticed_counting :
    ∃ result calls after, result ≠ .retryWithoutCache ∧
      Inevitable (Connection.Step (serveAgain (pure true)
          (handlersOf countingFunctions (dispatchOrder.erase .getSensorAddr))))
        (fun connection ↦ ∃ marks, changes marks = calls ∧ connection.Settled result marks after)
        (.start (remoteRun false) ⟨3⟩ (serveClient (pure true)
          (handlersOf countingFunctions (dispatchOrder.erase .getSensorAddr))) 0) ∧
      Inevitable (Redial.Step (serveAgain (pure true)
            (handlersOf countingFunctions (dispatchOrder.erase .getSensorAddr)))
          (serveClient (pure true)
            (handlersOf countingFunctions (dispatchOrder.erase .getSensorAddr))) (mainRedial ⟨4⟩))
        (fun main ↦ ∃ marks, changes marks = calls ∧ main.Settled result marks after)
        (.first (.start (remoteRun true) ⟨3⟩ (serveClient (pure true)
          (handlersOf countingFunctions (dispatchOrder.erase .getSensorAddr))) 0)) := by
  have holder : IsOlder (pure true) countingFunctions (dispatchOrder.erase .getSensorAddr) := by
    refine ⟨fun _ ↦ rfl, fun api ↦ ?_, fun _ _ ↦ rfl, fun _ _ ↦ rfl⟩
    cases api <;> decide
  exact probe_unnoticed holder (by decide) (by decide) (by decide) 0

end Main

end ZigbeeRemote.System
