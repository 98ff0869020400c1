import ZigbeeRemote.System.OlderServer

/-!
# An application over the connection

An application of the client is a script: its next call may depend on all answers so far, and it
reports as it goes on. `converse` is a run of it that is linked with the functions of a server, with
no network in between. `application_transparent` compares the two: on an attached connection to a
session of the server, in every interleaving of the two programs' single reads and writes and every
fragmentation of the bytes, the application makes the same calls in the same order, gets the same
answers, reports the same, and comes to its end with the same value, and the server is left in the
same state. What has been reported and called at any time in between is the beginning of it.
-/

set_option autoImplicit false
set_option relaxedAutoImplicit false

namespace ZigbeeRemote.System

open Foundation Rpc Zigbee Client Server WireType
open Client.ThermostatApp (App Report Result)

variable {σ α : Type} {pppUartIsConnected : StateM σ Bool} (functions : Functions σ)

/-- A connection that is closed on both sides, with everything as in the run without the network. -/
structure Conversed (state : σ) (conversation : Conversation σ α)
    (connection : Connection ClientState Report α σ ServerMark (Bool × ErrorCode)) : Prop where
  clientClosed : connection.clientOpen = false
  serverClosed : connection.serverOpen = false
  value : connection.client.prog = .done conversation.value
  reports : connection.client.marks = conversation.reports
  calls : connection.server.marks = conversation.marks functions state
  state : connection.server.state = conversation.state

variable {functions}

theorem Conversed.stays {state : σ} {conversation : Conversation σ α}
    {before after : Connection ClientState Report α σ ServerMark (Bool × ErrorCode)}
    {label : Happening} (hconversed : Conversed functions state conversation before)
    (hstep : Connection.Step
      (serveAgain pppUartIsConnected (handlersOf functions dispatchOrder)) before label after) :
    after = before :=
  hstep.eq_of_closed hconversed.clientClosed hconversed.serverClosed

/-- An application comes to the end it has without the network. -/
theorem conversed_inevitable (hlink : ∀ state, pppUartIsConnected.run state = (true, state))
    {client : ClientState} (hattached : client.attached = true) (script : App α) (state : σ) :
    Inevitable
      (Connection.Step (serveAgain pppUartIsConnected (handlersOf functions dispatchOrder)))
      (Conversed functions state (converse functions script state))
      (Connection.start (script.interpret rpcApi.ask Prog.mark) client
        (serveClient pppUartIsConnected (handlersOf functions dispatchOrder)) state) := by
  let conversation := converse functions script state
  obtain ⟨clientCost, hbehave⟩ := behave_remote functions hattached script state []
  have hclient : (script.interpret rpcApi.ask Prog.mark).Keeps false
      (fun result later ↦ result = conversation.value ∧ later.marks = conversation.reports ∧
        (later.lost = true ∨ later.input = []))
      ⟨client, [], (exchanges functions conversation.requests state).flatMap responseFrame ++ [],
        conversation.requests.flatMap Request.frame ++ [], clientCost + 0, false⟩ :=
    Prog.keeps_of_behave hbehave nofun ⟨rfl, rfl, Or.inr rfl⟩
  have hlast : ∀ error,
      ((serveRound pppUartIsConnected (handlersOf functions dispatchOrder)).run error).KeepsOn true
        (serveAgain pppUartIsConnected (handlersOf functions dispatchOrder))
        (fun _ later ↦ later.marks = conversation.marks functions state ∧
          later.state = conversation.state ∧ (later.lost = true ∨ false = true ∧ later.input = []))
        ⟨stateAfter functions conversation.requests state,
          [] ++ conversation.marks functions state, [], [], 2, false⟩ :=
    fun error ↦ keepsOn_wait hlink _ error
      ⟨rfl, stateAfter_converse functions script state, Or.inl rfl⟩
  obtain ⟨serverCost, hserver⟩ :=
    keepsOn_requests hlink _ (fun request _ ↦ mem_dispatchOrder request.api) hlast
  refine ((Agreement.start hclient (hserver .none)).inevitable (fun _ _ hpost ↦ hpost.2.2)
    (fun _ _ hpost ↦ hpost.2.2)
    (fun _ hreach ↦ remote_deadlock_free pppUartIsConnected functions dispatchOrder hattached script
      state hreach) (Reachable.refl _)).imp ?_
  rintro connection ⟨hclientClosed, hserverClosed, ⟨_, _, _, _, _, hdone, rfl, hreports, -⟩,
    _, _, _, _, _, -, -, hcalls, hstate, -⟩
  exact ⟨hclientClosed, hserverClosed, hdone, hreports, hcalls, hstate⟩

/-- Any application of the client on any functions of the server, in every interleaving and
fragmentation. At no time do both sides wait for each other; what has been reported, and what has
been called and answered, is the beginning of what it is without the network; and the session comes
to its end, where it is the whole of it. Assumes: the link stays up and the client is attached. -/
theorem application_transparent (hlink : ∀ state, pppUartIsConnected.run state = (true, state))
    {client : ClientState} (hattached : client.attached = true) (script : App α) (state : σ)
    {connection : Connection ClientState Report α σ ServerMark (Bool × ErrorCode)}
    (hreach : Reachable
      (Connection.Step (serveAgain pppUartIsConnected (handlersOf functions dispatchOrder)))
      (Connection.start (script.interpret rpcApi.ask Prog.mark) client
        (serveClient pppUartIsConnected (handlersOf functions dispatchOrder)) state) connection) :
    ¬ connection.Deadlocked ∧
      connection.client.marks <+: (converse functions script state).reports ∧
      connection.server.marks <+: (converse functions script state).marks functions state ∧
      Inevitable
        (Connection.Step (serveAgain pppUartIsConnected (handlersOf functions dispatchOrder)))
        (Conversed functions state (converse functions script state)) connection := by
  have hends := (conversed_inevitable hlink hattached script state).of_reachable
    (fun _ _ _ hconversed hstep ↦ hconversed.stays hstep) hreach
  obtain ⟨finish, hlater, hconversed⟩ := hends.exists_reachable
  obtain ⟨hreports, hcalls⟩ := hlater.marks_prefix
  rw [hconversed.reports] at hreports
  rw [hconversed.calls] at hcalls
  exact ⟨remote_deadlock_free pppUartIsConnected functions dispatchOrder hattached script state
    hreach, hreports, hcalls, hends⟩

/-- The thermostat application on a server that counts how often the network is opened: there is no
sensor, and the run ends in failure with the network opened once. -/
theorem application_transparent_counting :
    (converse countingFunctions (ThermostatApp.run false) 0).value = .failure ∧
      (converse countingFunctions (ThermostatApp.run false) 0).state = 1 ∧
      Inevitable
        (Connection.Step (serveAgain (pure true) (handlersOf countingFunctions dispatchOrder)))
        (Conversed countingFunctions 0 (converse countingFunctions (ThermostatApp.run false) 0))
        (Connection.start (remoteRun false) ⟨3⟩
          (serveClient (pure true) (handlersOf countingFunctions dispatchOrder)) 0) :=
  ⟨by decide +kernel, by decide +kernel,
    (application_transparent (fun _ ↦ rfl) rfl (ThermostatApp.run false) 0 (.refl _)).2.2.2⟩

end ZigbeeRemote.System
