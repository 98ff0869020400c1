import ZigbeeRemote.Foundation.Reconnection
import ZigbeeRemote.Sim.Client
import ZigbeeRemote.Sim.Server

/-!
# The demonstration, client and server

The client of `zb_rpc` and its server over one connection. `remote` carries a script out with the
functions of namespace `api`, that is with `call` on an engine. `script_inevitable` is for any script,
any namespace and any functions behind it: in every interleaving and fragmentation the script comes to
the end it has in its rehearsal, with the same value and log, and the functions have been called as in
the rehearsal. The next call of a script may depend on all earlier answers.

`demo_inevitable` is the demonstration itself, from any state of the simulated coordinator.
-/

set_option autoImplicit false
set_option relaxedAutoImplicit false

namespace ZigbeeRemote.System

open Foundation Rpc Server Sim WireType

/-! ### A script on an engine -/

section Remote

variable {κ σ α : Type}

/-- Carry out a script on an engine. -/
def remote (script : ClientScript α) : EngineM κ LogLine α :=
  script.interpret (fun (next : CatalogueCall) ↦ call (desc next.api) next.request)
    fun line ↦ EngineM.lift (.mark line)

theorem behave_remote_call (next : CatalogueCall) (following : Answer next → ClientScript α)
    (error : ErrorCode) (state : κ) (input : Bytes) :
    behave false ((remote (.call next following)).run error) state input =
      (behave false ((call (desc next.api) next.request : EngineM κ LogLine _).run error) state
        input).andThen fun result later rest ↦
          behave false ((remote (following result.1)).run result.2) later rest := by
  rw [remote, Script.interpret, behave_run_bind]
  rfl

theorem behave_remote_note (line : LogLine) (following : ClientScript α) (error : ErrorCode)
    (state : κ) (input : Bytes) :
    behave false ((remote (.note line following)).run error) state input =
      (behave false ((remote following).run error) state input).after [] [line] 1 := by
  rw [remote, Script.interpret, behave_run_bind, behave_run_lift, behave_mark,
    Behaviour.andThen_finished, Behaviour.after_andThen, Behaviour.andThen_finished,
    Behaviour.after_nil]
  rfl

/-- The requests of a rehearsal. -/
def requestsOf (rehearsal : Rehearsal σ α) : List Request :=
  rehearsal.calls.map CatalogueCall.toRequest

variable (functions : Functions σ)

theorem serve_toRequest (next : CatalogueCall) (state : σ) :
    serve functions next.toRequest state =
      (wireBytes ((functions next.api next.request).run state).1,
        ((functions next.api next.request).run state).2) := by
  rw [serve, CatalogueCall.toRequest, Request.ofValue, ofWire_wireBytes]

theorem stateAfter_rehearse (script : ClientScript α) (state : σ) :
    stateAfter functions (requestsOf (rehearse functions script state)) state =
      (rehearse functions script state).state := by
  induction script generalizing state with
  | done value => rfl
  | call next rest ih =>
    show stateAfter functions _ (serve functions next.toRequest state).2 = _
    rw [serve_toRequest]
    exact ih _ _
  | note line rest ih => exact ih state

/-- A call takes exactly its response off the stream. -/
theorem behave_call_response (next : CatalogueCall) (state : κ) (error : ErrorCode)
    {response : Bytes} (rest : Bytes) (hresponse : response.length = wireSize (desc next.api).Resp) :
    behave false ((call (desc next.api) next.request : EngineM κ LogLine _).run error) state
        (frame next.api.id response ++ rest) =
      ⟨next.toRequest.frame, [],
        sendCost (desc next.api).Req + (1 + payloadCost (desc next.api).Resp), state,
        .finished (some (ofWire (desc next.api).Resp response), .none) rest⟩ := by
  have hid : (desc next.api).id ≠ ApiId.error := by
    rw [desc_id]
    exact next.api.id_ne_error
  have hreply := behave_callReply_response (ε := LogLine) false state error rest hid hresponse
  rw [desc_id] at hreply
  rw [behave_call, hreply, frame_toRequest, Behaviour.after]
  simp

/-- The client on the responses of the server. -/
theorem behave_remote_rehearse (script : ClientScript α) (client : κ) (state : σ) (rest : Bytes) :
    ∃ cost, behave false ((remote script).run .none) client
        ((exchanges functions (requestsOf (rehearse functions script state)) state).flatMap
          responseFrame ++ rest) =
      ⟨(requestsOf (rehearse functions script state)).flatMap Request.frame,
        (rehearse functions script state).log, cost, client,
        .finished ((rehearse functions script state).value, .none) rest⟩ := by
  induction script generalizing state with
  | done value => exact ⟨0, rfl⟩
  | call next following ih =>
    obtain ⟨cost, hlater⟩ := ih (some ((functions next.api next.request).run state).1)
      ((functions next.api next.request).run state).2
    have hexchanges : (exchanges functions
          (requestsOf (rehearse functions (.call next following) state)) state).flatMap
          responseFrame ++ rest =
        frame next.api.id (wireBytes ((functions next.api next.request).run state).1) ++
          ((exchanges functions (requestsOf (rehearse functions
            (following (some ((functions next.api next.request).run state).1))
            ((functions next.api next.request).run state).2))
            ((functions next.api next.request).run state).2).flatMap responseFrame ++ rest) := by
      show (exchanges functions (next.toRequest :: _) state).flatMap responseFrame ++ rest = _
      rw [exchanges, serve_toRequest, List.flatMap_cons, List.append_assoc]
      rfl
    refine ⟨sendCost (desc next.api).Req + (1 + payloadCost (desc next.api).Resp) + cost, ?_⟩
    rw [hexchanges, behave_remote_call, behave_call_response next client .none _ (length_wireBytes _),
      ofWire_wireBytes, Behaviour.andThen_finished, hlater]
    rfl
  | note line following ih =>
    obtain ⟨cost, hlater⟩ := ih state
    refine ⟨1 + cost, ?_⟩
    simp only [rehearse, requestsOf] at hlater ⊢
    rw [behave_remote_note, hlater]
    rfl

/-- A call writes its request whatever it reads. -/
theorem request_prefix_call (next : CatalogueCall) (state : κ) (error : ErrorCode) (input : Bytes) :
    next.toRequest.frame <+:
      (behave false ((call (desc next.api) next.request : EngineM κ LogLine _).run error) state
        input).output := by
  rw [behave_call, Behaviour.after_output, frame_toRequest]
  exact List.prefix_append _ _

end Remote

/-! ### No deadlock -/

section DeadlockFree

variable {κ σ α : Type} (functions : Functions σ) (apis : List Api)

/-- Client and server cannot both wait when each has read all that the other has written. -/
theorem no_common_block_script (script : ClientScript α) {client : κ} {clientError error : ErrorCode}
    {serverState : σ} {toServer toClient : Bytes}
    {behaviour : Behaviour σ ServerMark (Bool × ErrorCode)}
    (hwritten : (behave false ((remote script).run clientError) client toClient).output = toServer)
    (hwaits : (behave false ((remote script).run clientError) client toClient).ending = .blocked)
    (hserver : Reacts false (commandsAgain (invokeFirst (handlersOf functions apis)))
      ((handleCommands (invokeFirst (handlersOf functions apis))).run error) serverState toServer
      behaviour)
    (hanswered : behaviour.output = toClient) (hblocked : behaviour.ending = .blocked) : False := by
  induction script generalizing clientError error serverState toServer toClient behaviour with
  | done value => cases hwaits
  | call next following ih =>
    have hbind := behave_remote_call next following clientError client toClient
    obtain ⟨more, hmore⟩ := (request_prefix_call next client clientError toClient).trans
      (Behaviour.output_prefix_andThen _ fun result later rest ↦
        behave false ((remote (following result.1)).run result.2) later rest)
    rw [← hbind, hwritten] at hmore
    subst hmore
    obtain ⟨response, after, later, marks, cost, hlength, hlater, rfl⟩ :=
      answered_of_blocked hserver hblocked
    rw [Behaviour.after_output] at hanswered
    subst hanswered
    have hresponse := behave_call_response next client clientError later.output hlength
    have hframe : frame next.toRequest.api.id response = frame next.api.id response := rfl
    rw [hbind, hframe, hresponse, Behaviour.andThen_finished] at hwritten hwaits
    exact ih _ (List.append_cancel_left hwritten) hwaits hlater rfl hblocked
  | note line following ih =>
    rw [behave_remote_note] at hwritten hwaits
    exact ih hwritten hwaits hserver hanswered hblocked

theorem script_deadlock_free (script : ClientScript α) (client : κ) (state : σ)
    {connection : Connection κ LogLine (α × ErrorCode) σ ServerMark (Bool × ErrorCode)}
    (hreach : Reachable
      (Connection.Step (commandsAgain (invokeFirst (handlersOf functions apis))))
      (Connection.start ((remote script).run .none) client
        (commands (invokeFirst (handlersOf functions apis))) state) connection) :
    ¬ connection.Deadlocked := by
  intro hdeadlocked
  obtain ⟨toServer, toClient, serverAll, hwritten, hwaits, hserver, hanswered, hblocked⟩ :=
    hdeadlocked.behaviours hreach
  exact no_common_block_script functions apis script hwritten hwaits hserver hanswered hblocked

end DeadlockFree

/-! ### The end of a session -/

section Inevitable

variable {κ σ α : Type} {functions : Functions σ} {apis : List Api}

/-- Both sides have closed, and all has gone as in a rehearsal. -/
structure Played (functions : Functions σ) (state : σ) (rehearsal : Rehearsal σ α)
    (connection : Connection κ LogLine (α × ErrorCode) σ ServerMark (Bool × ErrorCode)) : Prop where
  clientClosed : connection.clientOpen = false
  serverClosed : connection.serverOpen = false
  value : connection.client.prog = .done (rehearsal.value, .none)
  log : connection.client.marks = rehearsal.log
  calls : connection.server.marks =
    (exchanges functions (requestsOf rehearsal) state).flatMap exchangeMarks
  state : connection.server.state = rehearsal.state

/-- In every interleaving and fragmentation, a script comes to the end it has in its rehearsal, and the
functions of the namespace are called as in the rehearsal. Assumes: the namespace serves the calls
that the script makes there. -/
theorem script_inevitable {enumeration : Enumeration} {members : List (Member σ)}
    {dispatcher : Dispatcher σ} (hserves : Serves enumeration members dispatcher functions apis)
    (script : ClientScript α) (client : κ) (state : σ)
    (hserved : ∀ next ∈ (rehearse functions script state).calls, next.api ∈ apis) :
    Inevitable (Connection.Step (commandsAgain dispatcher))
      (Played functions state (rehearse functions script state))
      (Connection.start ((remote script).run .none) client (commands dispatcher) state) := by
  obtain rfl := hserves.dispatcher_eq
  let rehearsal := rehearse functions script state
  let marks := (exchanges functions (requestsOf rehearsal) state).flatMap exchangeMarks
  obtain ⟨clientCost, hbehave⟩ := behave_remote_rehearse functions script client state []
  have hclient : ((remote script).run .none).Keeps false
      (fun result later ↦ result = (rehearsal.value, .none) ∧ later.marks = rehearsal.log ∧
        (later.lost = true ∨ later.input = []))
      ⟨client, [], (exchanges functions (requestsOf rehearsal) state).flatMap responseFrame ++ [],
        (requestsOf rehearsal).flatMap Request.frame ++ [], clientCost + 0, false⟩ :=
    Prog.keeps_of_behave hbehave nofun ⟨rfl, rfl, Or.inr rfl⟩
  have hrequests : ∀ request ∈ requestsOf rehearsal, request.api ∈ apis := by
    intro request hrequest
    obtain ⟨next, hnext, rfl⟩ := List.mem_map.mp hrequest
    exact hserved next hnext
  have hlast : ∀ error,
      ((handleCommands (invokeFirst (handlersOf functions apis))).run error).KeepsOn true
        (commandsAgain (invokeFirst (handlersOf functions apis)))
        (fun _ later ↦ later.marks = marks ∧ later.state = rehearsal.state ∧
          (later.lost = true ∨ false = true ∧ later.input = []))
        ⟨stateAfter functions (requestsOf rehearsal) state, [] ++ marks, [], [], 1, false⟩ :=
    fun error ↦ keepsOn_idle _ error ⟨rfl, stateAfter_rehearse functions script state, Or.inl rfl⟩
  obtain ⟨serverCost, hserver⟩ := keepsOn_commands _ hrequests hlast
  refine ((Agreement.start hclient (hserver .none)).inevitable (fun _ _ hpost ↦ hpost.2.2)
    (fun _ _ hpost ↦ hpost.2.2)
    (fun _ hreach ↦ script_deadlock_free functions apis script client state hreach)
    (Reachable.refl _)).imp ?_
  rintro connection ⟨hclientClosed, hserverClosed, ⟨_, _, _, _, _, hdone, rfl, hlog, -⟩,
    _, _, _, _, _, -, -, hmarks, hstate, -⟩
  exact ⟨hclientClosed, hserverClosed, hdone, hlog, hmarks, hstate⟩

theorem Played.stays {state : σ} {rehearsal : Rehearsal σ α} {dispatcher : Dispatcher σ}
    {before after : Connection κ LogLine (α × ErrorCode) σ ServerMark (Bool × ErrorCode)}
    {label : Happening} (hplayed : Played functions state rehearsal before)
    (hstep : Connection.Step (commandsAgain dispatcher) before label after) : after = before :=
  hstep.eq_of_closed hplayed.clientClosed hplayed.serverClosed

/-- A script of any calls against a namespace that serves them, in every interleaving and
fragmentation. At no time do both sides wait for each other. What the client has logged, and what the
functions have been called with and have answered, is always the beginning of what it is in the
rehearsal. The session comes to its end, and there it is the whole of it. Assumes: the namespace
serves the calls that the script makes in its rehearsal. -/
theorem script_transparent {enumeration : Enumeration} {members : List (Member σ)}
    {dispatcher : Dispatcher σ} (hserves : Serves enumeration members dispatcher functions apis)
    (script : ClientScript α) (client : κ) (state : σ)
    (hserved : ∀ next ∈ (rehearse functions script state).calls, next.api ∈ apis)
    {connection : Connection κ LogLine (α × ErrorCode) σ ServerMark (Bool × ErrorCode)}
    (hreach : Reachable (Connection.Step (commandsAgain dispatcher))
      (Connection.start ((remote script).run .none) client (commands dispatcher) state) connection) :
    ¬ connection.Deadlocked ∧
      connection.client.marks <+: (rehearse functions script state).log ∧
      connection.server.marks <+:
        (exchanges functions (requestsOf (rehearse functions script state)) state).flatMap
          exchangeMarks ∧
      Inevitable (Connection.Step (commandsAgain dispatcher))
        (Played functions state (rehearse functions script state)) connection := by
  have hends := (script_inevitable hserves script client state hserved).of_reachable
    (fun _ _ _ hplayed hstep ↦ hplayed.stays hstep) hreach
  obtain ⟨finish, hlater, hplayed⟩ := hends.exists_reachable
  obtain ⟨hlog, hcalls⟩ := hlater.marks_prefix
  rw [hplayed.log] at hlog
  rw [hplayed.calls] at hcalls
  refine ⟨?_, hlog, hcalls, hends⟩
  obtain rfl := hserves.dispatcher_eq
  exact script_deadlock_free functions apis script client state hreach

end Inevitable

/-! ### The demonstration -/

/-- The calls of the demonstration are those of the namespace. -/
theorem api_mem_simOrder {state : SimState} {next : CatalogueCall} (hnext : next ∈ demoCalls state) :
    next.api ∈ simOrder := by
  simp only [demoCalls, sensorCalls, List.mem_cons, List.mem_append, List.mem_replicate,
    List.not_mem_nil, or_false] at hnext
  rcases hnext with rfl | rfl | rfl | rfl | rfl | rfl | rfl | rfl | rfl | rfl | ⟨-, rfl⟩ | rfl
  all_goals simp [simOrder]

/-- The demonstration, in every interleaving and fragmentation and from any state of the simulated
coordinator: both programs come to their end, the client with exit code 0, the log `demoLog` and
exactly the calls `demoCalls`. -/
theorem demo_inevitable (state : SimState) :
    ∃ dispatcher, dispatchNs simApiId simNamespace = some dispatcher ∧
      Inevitable (Connection.Step (commandsAgain dispatcher))
        (Played simFunctions state ⟨0, demoLog state, demoCalls state, state.demonstrated⟩)
        (Connection.start ((remote clientMain).run .none) () (commands dispatcher) state) := by
  have hserved : ∀ next ∈ (rehearse simFunctions clientMain state).calls, next.api ∈ simOrder := by
    intro next hnext
    rw [rehearse_clientMain] at hnext
    exact api_mem_simOrder hnext
  have hends := script_inevitable serves_simNamespace clientMain () state hserved
  rw [rehearse_clientMain] at hends
  exact ⟨_, dispatchNs_simNamespace, hends⟩

/-- The temperatures the client reports when the server has just been started. -/
example : bumps 5 SimState.initial.gTemp = [1400, 1500, 1600, 1700, 1800] ∧
    SimState.initial.demonstrated.gTemp = 1800 := by
  decide

/-- A client that asks for the channel, before the first step. -/
theorem script_transparent_channel :
    Inevitable (Connection.Step (commandsAgain (invokeFirst (handlersOf simFunctions simOrder))))
      (Played simFunctions .initial
        (rehearse simFunctions (ask .getChannel ⟨⟩) .initial))
      (Connection.start ((remote (ask .getChannel ⟨⟩)).run .none) ()
        (commands (invokeFirst (handlersOf simFunctions simOrder))) .initial) := by
  have hserved : ∀ next ∈ (rehearse simFunctions (ask .getChannel ⟨⟩) .initial).calls,
      next.api ∈ simOrder := by
    intro next hnext
    obtain rfl : next = ⟨.getChannel, ⟨⟩⟩ := List.mem_singleton.mp hnext
    decide
  exact (script_transparent serves_simNamespace (ask .getChannel ⟨⟩) () .initial hserved
    (Reachable.refl _)).2.2.2

end ZigbeeRemote.System
