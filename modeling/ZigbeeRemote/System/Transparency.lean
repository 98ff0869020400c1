import ZigbeeRemote.Client.Stubs
import ZigbeeRemote.Server.Handlers
import ZigbeeRemote.System.Dialogue

/-!
# Location transparency

An application that uses the Zigbee interface through the client gets what it would get from the
firmware's own implementation, called with the server's timeouts. `servedApi` is that implementation
as the server uses it; it differs from the native one in the timeouts and in `wait_annce`, which is
what `handle_wait_annce` computes.

`perform_eq_stub` is the part that is particular to the thirteen calls: the client's function is a
stub for the handler of the same name, and converting there and back gives the native result. The
rest is one induction over the calls for each side (`behave_performAll`, `reacts_session`), and
`Connection.lockstep` for all interleavings and fragmentations.
-/

set_option autoImplicit false
set_option relaxedAutoImplicit false

namespace ZigbeeRemote.System

open Foundation Rpc Zigbee Client Server WireType

/-! ### The native interface as the server uses it -/

section Served

variable {m : Type → Type} [Monad m]

/-- The native functions with the server's timeouts, and `wait_annce` as `handle_wait_annce`. -/
def servedApi (api : ZigbeeApi m) (pppUartIsConnected clientConnected : m Bool) : ZigbeeApi m where
  getShortAddr := api.getShortAddr
  getPanid := api.getPanid
  getChannel := api.getChannel
  getSensorAddr := api.getSensorAddr
  openNetwork := api.openNetwork
  waitAnnce := fun _ ↦ do
    let response ← handleWaitAnnce api pppUartIsConnected clientConnected
    return fromLe16 response.value
  findSensor := fun shortAddr _ ↦ api.findSensor shortAddr kRpcTimeoutMs
  readBasic := fun shortAddr ep _ ↦ api.readBasic shortAddr ep kRpcTimeoutMs
  bindSensor := fun shortAddr ep _ ↦ api.bindSensor shortAddr ep kRpcTimeoutMs
  subscribeSensor := fun shortAddr ep _ ↦ api.subscribeSensor shortAddr ep kRpcTimeoutMs
  configReport := fun shortAddr ep _ ↦ api.configReport shortAddr ep kRpcTimeoutMs
  readTemp := fun shortAddr ep _ ↦ api.readTemp shortAddr ep kRpcTimeoutMs
  getLastTemp := api.getLastTemp

end Served

/-- The catalogue entry of the same name. -/
def apiOf : ApiCall → Api
  | .getShortAddr => .getShortAddr
  | .getPanid => .getPanid
  | .getChannel => .getChannel
  | .getSensorAddr => .getSensorAddr
  | .openNetwork _ => .openNetwork
  | .waitAnnce _ => .waitAnnce
  | .findSensor _ _ => .findSensor
  | .readBasic _ _ _ => .readBasic
  | .bindSensor _ _ _ => .bindSensor
  | .subscribeSensor _ _ _ => .subscribeSensor
  | .configReport _ _ _ => .configReport
  | .readTemp _ _ _ => .readTemp
  | .getLastTemp => .getLastTemp

/-- The request that carries the arguments of a call. -/
def requestOf : (call : ApiCall) → (desc (apiOf call)).Req
  | .getShortAddr => ⟨⟩
  | .getPanid => ⟨⟩
  | .getChannel => ⟨⟩
  | .getSensorAddr => ⟨⟩
  | .openNetwork duration => ⟨duration⟩
  | .waitAnnce _ => ⟨⟩
  | .findSensor shortAddr _ => ⟨toLe16 shortAddr⟩
  | .readBasic shortAddr ep _ => toWire shortAddr ep
  | .bindSensor shortAddr ep _ => toWire shortAddr ep
  | .subscribeSensor shortAddr ep _ => toWire shortAddr ep
  | .configReport shortAddr ep _ => toWire shortAddr ep
  | .readTemp shortAddr ep _ => toWire shortAddr ep
  | .getLastTemp => ⟨⟩

/-- The request of a call on the stream. -/
def wireRequest (call : ApiCall) : Request := .ofValue (apiOf call) (requestOf call)

section Calls

variable {μ α β : Type}

theorem map_stub (f : α → β) (d : RpcDesc) (request : d.Req) (otherwise : α)
    (convert : d.Resp → α) :
    f <$> (stub d request otherwise convert : Prog ClientState μ α) =
      stub d request (f otherwise) fun response ↦ f (convert response) := by
  simp only [stub, Prog.map_eq_bind, Prog.bind_eq_bind, Prog.bind_assoc]
  congr 1
  funext attached
  cases attached with
  | false => rfl
  | true =>
    simp only [Bool.not_true, Bool.false_eq_true, if_false, Prog.bind_assoc]
    congr 1
    funext result
    cases hresult : result.1 <;> rfl

/-! The three structures survive the wire field by field. -/

theorem addr_round_trip (value : ZigbeeAddr) :
    (⟨fromLe32S (toLe32S value.err), fromLe16 (toLe16 value.shortAddr), value.ep⟩ : ZigbeeAddr) =
      value := by
  rw [fromLe32S_toLe32S, fromLe16_toLe16]

theorem basic_round_trip (value : ZigbeeBasic) :
    (⟨fromLe32S (toLe32S value.err), value.manufacturer, value.model⟩ : ZigbeeBasic) = value := by
  rw [fromLe32S_toLe32S]

theorem temp_round_trip (value : ZigbeeTemp) :
    (⟨fromLe32S (toLe32S value.err), fromLe16S (toLe16S value.measured),
      fromLe16S (toLe16S value.minMeasured), fromLe16S (toLe16S value.maxMeasured),
      fromLe16S (toLe16S value.tolerance)⟩ : ZigbeeTemp) = value := by
  simp only [fromLe32S_toLe32S, fromLe16S_toLe16S]

/-- Each client function is a stub for the handler of the same name, and what it makes of the
handler's response is the native result. -/
theorem perform_eq_stub (call : ApiCall) :
    ∃ otherwise convert,
      (rpcApi.perform call : Prog ClientState μ ApiValue) =
          stub (desc (apiOf call)) (requestOf call) otherwise convert ∧
        ∀ {σ : Type} (api : ZigbeeApi (StateM σ)) (pppUartIsConnected clientConnected : StateM σ Bool)
          (state : σ), ((servedApi api pppUartIsConnected clientConnected).perform call).run state =
          (convert ((handle api pppUartIsConnected clientConnected (apiOf call)
              (requestOf call)).run state).1,
            ((handle api pppUartIsConnected clientConnected (apiOf call)
              (requestOf call)).run state).2) := by
  cases call with
  | getShortAddr =>
    exact ⟨_, _, map_stub _ _ _ _ _, fun api _ _ state ↦
      Prod.ext (congrArg ApiValue.u16 (fromLe16_toLe16 _).symm) rfl⟩
  | getPanid =>
    exact ⟨_, _, map_stub _ _ _ _ _, fun api _ _ state ↦
      Prod.ext (congrArg ApiValue.u16 (fromLe16_toLe16 _).symm) rfl⟩
  | getChannel => exact ⟨_, _, map_stub _ _ _ _ _, fun api _ _ state ↦ rfl⟩
  | getSensorAddr =>
    exact ⟨_, _, map_stub _ _ _ _ _, fun api _ _ state ↦
      Prod.ext (congrArg ApiValue.u16 (fromLe16_toLe16 _).symm) rfl⟩
  | openNetwork duration =>
    exact ⟨_, _, map_stub _ _ _ _ _, fun api _ _ state ↦
      Prod.ext (congrArg ApiValue.i32 (fromLe32S_toLe32S _).symm) rfl⟩
  | waitAnnce timeoutMs => exact ⟨_, _, map_stub _ _ _ _ _, fun api _ _ state ↦ rfl⟩
  | findSensor shortAddr timeoutMs =>
    refine ⟨_, _, map_stub _ _ _ _ _, fun api _ _ state ↦ ?_⟩
    simp only [requestOf, apiOf, handle, handleFindSensor, fromLe16_toLe16]
    exact Prod.ext (congrArg ApiValue.addr (addr_round_trip _).symm) rfl
  | readBasic shortAddr ep timeoutMs =>
    refine ⟨_, _, map_stub _ _ _ _ _, fun api _ _ state ↦ ?_⟩
    simp only [requestOf, apiOf, handle, handleReadBasic, toWire, fromLe16_toLe16]
    exact Prod.ext (congrArg ApiValue.basic (basic_round_trip _).symm) rfl
  | bindSensor shortAddr ep timeoutMs =>
    refine ⟨_, _, map_stub _ _ _ _ _, fun api _ _ state ↦ ?_⟩
    simp only [requestOf, apiOf, handle, handleBindSensor, toWire, fromLe16_toLe16]
    exact Prod.ext (congrArg ApiValue.i32 (fromLe32S_toLe32S _).symm) rfl
  | subscribeSensor shortAddr ep timeoutMs =>
    refine ⟨_, _, map_stub _ _ _ _ _, fun api _ _ state ↦ ?_⟩
    simp only [requestOf, apiOf, handle, handleSubscribeSensor, toWire, fromLe16_toLe16]
    exact Prod.ext (congrArg ApiValue.i32 (fromLe32S_toLe32S _).symm) rfl
  | configReport shortAddr ep timeoutMs =>
    refine ⟨_, _, map_stub _ _ _ _ _, fun api _ _ state ↦ ?_⟩
    simp only [requestOf, apiOf, handle, handleConfigReport, toWire, fromLe16_toLe16]
    exact Prod.ext (congrArg ApiValue.i32 (fromLe32S_toLe32S _).symm) rfl
  | readTemp shortAddr ep timeoutMs =>
    refine ⟨_, _, map_stub _ _ _ _ _, fun api _ _ state ↦ ?_⟩
    simp only [requestOf, apiOf, handle, handleReadTemp, toWire, fromLe16_toLe16]
    exact Prod.ext (congrArg ApiValue.temp (temp_round_trip _).symm) rfl
  | getLastTemp =>
    exact ⟨_, _, map_stub _ _ _ _ _, fun api _ _ state ↦
      Prod.ext (congrArg ApiValue.i16 (fromLe16S_toLe16S _).symm) rfl⟩

end Calls

/-! ### Sequences of calls -/

/-- A client that makes calls one after the other and reports each result. -/
def performAll : List ApiCall → Prog ClientState ApiValue Unit
  | [] => return ()
  | call :: calls => do
    let value ← rpcApi.perform call
    .mark value
    performAll calls

/-- The results of calls made one after the other on the machine itself. -/
def nativeResults {σ : Type} (api : ZigbeeApi (StateM σ)) : List ApiCall → σ → List ApiValue
  | [], _ => []
  | call :: calls, state =>
    ((api.perform call).run state).1 :: nativeResults api calls ((api.perform call).run state).2

/-- The handlers a server has invoked, with the bytes of the requests. -/
def invocations (marks : List ServerMark) : List (ApiId × Bytes) :=
  marks.filterMap fun
    | .invoked id request => some (id, request)
    | .responded _ _ _ => none

theorem invocations_exchanges {σ : Type} (functions : Functions σ) (requests : List Request)
    (state : σ) :
    invocations ((exchanges functions requests state).flatMap exchangeMarks) =
      requests.map fun request ↦ (request.api.id, request.payload) := by
  induction requests generalizing state with
  | nil => rfl
  | cons request requests ih =>
    rw [exchanges, List.flatMap_cons, invocations, List.filterMap_append]
    exact congrArg ((request.api.id, request.payload) :: ·) (ih _)

section Sequences

variable {σ : Type} (api : ZigbeeApi (StateM σ)) (pppUartIsConnected clientConnected : StateM σ Bool)
  {client : ClientState}

/-- What the server computes for the request of a call. -/
theorem serve_wireRequest (functions : Functions σ) (call : ApiCall) (state : σ) :
    serve functions (wireRequest call) state =
      (wireBytes ((functions (apiOf call) (requestOf call)).run state).1,
        ((functions (apiOf call) (requestOf call)).run state).2) := by
  have hvalue : ofWire (desc (apiOf call)).Req (wireBytes (requestOf call)) = requestOf call :=
    ofWire_wireBytes _
  exact congrArg (fun value ↦ (wireBytes ((functions (apiOf call) value).run state).1,
    ((functions (apiOf call) value).run state).2)) hvalue

theorem frame_wireRequest (call : ApiCall) :
    (wireRequest call).frame = frame (desc (apiOf call)).id (wireBytes (requestOf call)) := by
  rw [desc_id]
  rfl

section Stub

variable {μ α : Type} (hattached : client.attached = true) (call : ApiCall) (otherwise : α)
  (convert : (desc (apiOf call)).Resp → α)

include hattached

/-- A function of the client writes its request whatever it reads. -/
theorem request_prefix_stub (input : Bytes) :
    (wireRequest call).frame <+:
      (behave false (stub (desc (apiOf call)) (requestOf call) otherwise convert :
        Prog ClientState μ α) client input).output := by
  rw [frame_wireRequest, behave_stub false _ _ _ _ hattached]
  exact List.prefix_append _ _

/-- A function of the client takes exactly its response off the stream. -/
theorem behave_stub_response {response : Bytes} (rest : Bytes)
    (hresponse : response.length = wireSize (desc (apiOf call)).Resp) :
    behave false (stub (desc (apiOf call)) (requestOf call) otherwise convert : Prog ClientState μ α)
        client (frame (apiOf call).id response ++ rest) =
      ⟨(wireRequest call).frame, [],
        1 + sendCost (desc (apiOf call)).Req + (1 + payloadCost (desc (apiOf call)).Resp), client,
        .finished (convert (ofWire (desc (apiOf call)).Resp response)) rest⟩ := by
  have hid : (desc (apiOf call)).id ≠ ApiId.error := by
    rw [desc_id]
    exact (apiOf call).id_ne_error
  have hreply := behave_callReply_response (ε := μ) false client .none rest hid hresponse
  rw [desc_id] at hreply
  rw [frame_wireRequest, behave_stub false _ _ _ _ hattached, hreply]
  simp [Behaviour.after, stubValue]

end Stub

/-- A call on the client writes its request whatever it reads. -/
theorem request_prefix_perform (hattached : client.attached = true) (call : ApiCall)
    (input : Bytes) :
    (wireRequest call).frame <+:
      (behave false (rpcApi.perform call : Prog ClientState ApiValue _) client input).output := by
  obtain ⟨otherwise, convert, hstub, -⟩ := perform_eq_stub (μ := ApiValue) call
  rw [hstub]
  exact request_prefix_stub hattached call otherwise convert input

/-- A call on the client takes exactly its response off the stream, and its value is the native
result when the response is the one the server computes. -/
theorem behave_perform (hattached : client.attached = true) (call : ApiCall) {response : Bytes}
    (rest : Bytes) (hresponse : response.length = wireSize (desc (apiOf call)).Resp) :
    ∃ value cost, behave false (rpcApi.perform call : Prog ClientState ApiValue _) client
        (frame (apiOf call).id response ++ rest) =
          ⟨(wireRequest call).frame, [], cost, client, .finished value rest⟩ ∧
      ∀ {σ : Type} (api : ZigbeeApi (StateM σ)) (pppUartIsConnected clientConnected : StateM σ Bool)
        (state : σ), response = (serve (handle api pppUartIsConnected clientConnected)
            (wireRequest call) state).1 →
          value = (((servedApi api pppUartIsConnected clientConnected).perform call).run
            state).1 := by
  obtain ⟨otherwise, convert, hstub, hvalue⟩ := perform_eq_stub (μ := ApiValue) call
  rw [hstub]
  refine ⟨_, _, behave_stub_response hattached call otherwise convert rest hresponse,
    fun api pppUartIsConnected clientConnected state hserved ↦ ?_⟩
  rw [hvalue, hserved, serve_wireRequest, ofWire_wireBytes]

/-- The server's machine after a call is the native one. -/
theorem serve_state (call : ApiCall) (state : σ) :
    (serve (handle api pppUartIsConnected clientConnected) (wireRequest call) state).2 =
      (((servedApi api pppUartIsConnected clientConnected).perform call).run state).2 := by
  obtain ⟨_, _, -, hnative⟩ := perform_eq_stub (μ := ApiValue) call
  rw [hnative, serve_wireRequest]

theorem responseFrame_wireRequest (call : ApiCall) (response : Bytes) :
    responseFrame (wireRequest call, response) = frame (apiOf call).id response := rfl

/-- The client on the responses of the server: it writes the requests and reports the native
results. -/
theorem behave_performAll (hattached : client.attached = true) (calls : List ApiCall) (state : σ)
    (rest : Bytes) :
    ∃ cost, behave false (performAll calls) client
        ((exchanges (handle api pppUartIsConnected clientConnected) (calls.map wireRequest)
          state).flatMap responseFrame ++ rest) =
      ⟨(calls.map wireRequest).flatMap Request.frame,
        nativeResults (servedApi api pppUartIsConnected clientConnected) calls state, cost, client,
        .finished () rest⟩ := by
  induction calls generalizing state with
  | nil => exact ⟨0, rfl⟩
  | cons call calls ih =>
    obtain ⟨later, hlater⟩ :=
      ih (((servedApi api pppUartIsConnected clientConnected).perform call).run state).2
    obtain ⟨value, cost, hbehave, hvalue⟩ :=
      behave_perform hattached call
        ((exchanges (handle api pppUartIsConnected clientConnected) (calls.map wireRequest)
          (((servedApi api pppUartIsConnected clientConnected).perform call).run
            state).2).flatMap responseFrame ++ rest)
        (length_serve (handle api pppUartIsConnected clientConnected) (wireRequest call) state)
    refine ⟨cost + (1 + later), ?_⟩
    rw [List.map_cons, exchanges, List.flatMap_cons, List.append_assoc, serve_state,
      responseFrame_wireRequest, performAll, Prog.bind_eq_bind, behave_bind, hbehave,
      Behaviour.andThen_finished, Prog.bind_eq_bind, behave_bind, behave_mark,
      Behaviour.andThen_finished, hlater, nativeResults, ← hvalue _ _ _ state rfl, List.flatMap_cons]
    simp [Behaviour.after]

theorem dialogue_performAll (hattached : client.attached = true) (calls : List ApiCall) :
    Dialogue (calls.map wireRequest) (performAll calls) client := by
  induction calls with
  | nil => exact fun input ↦ ⟨(), input, rfl⟩
  | cons call calls ih =>
    refine ⟨fun input ↦ ?_, fun response rest hresponse ↦ ?_⟩
    · have hfirst := request_prefix_perform hattached call input
      rw [performAll, Prog.bind_eq_bind, behave_bind]
      exact hfirst.trans (Behaviour.output_prefix_andThen _ _)
    · obtain ⟨value, cost, hbehave, -⟩ := behave_perform hattached call rest hresponse
      refine ⟨performAll calls, client, [value], cost + 1, ih, ?_⟩
      have hframe : behave false (rpcApi.perform call : Prog ClientState ApiValue _) client
          (frame (wireRequest call).api.id response ++ rest) =
          ⟨(wireRequest call).frame, [], cost, client, .finished value rest⟩ := hbehave
      rw [performAll, Prog.bind_eq_bind, behave_bind, hframe, Behaviour.andThen_finished,
        Prog.bind_eq_bind, behave_bind, behave_mark, Behaviour.andThen_finished,
        Behaviour.after_after, List.append_nil, List.nil_append]

/-- The session on the requests of the client: it writes the responses, invokes the handlers in
order and waits for more. -/
theorem reacts_session (hlink : ∀ state, pppUartIsConnected.run state = (true, state))
    (functions : Functions σ) (calls : List ApiCall) (state : σ) :
    ∃ behaviour, Reacts false (serveAgain pppUartIsConnected (handlersOf functions dispatchOrder))
        (serveClient pppUartIsConnected (handlersOf functions dispatchOrder)) state
        ((calls.map wireRequest).flatMap Request.frame) behaviour ∧
      behaviour.output =
        (exchanges functions (calls.map wireRequest) state).flatMap responseFrame ∧
      behaviour.marks =
        (exchanges functions (calls.map wireRequest) state).flatMap exchangeMarks ∧
      behaviour.ending = .blocked := by
  have hwait : ∀ code later, behave false
      ((serveRound pppUartIsConnected (handlersOf functions dispatchOrder)).run code) later [] =
      ⟨[], [], 1, later, .blocked⟩ := by
    intro code later
    rw [behave_serveRound, hlink, if_pos rfl, serveFrame, behave_run_bind,
      behave_receiveHeader_wait]
    rfl
  obtain ⟨code, cost, hreacts⟩ := reacts_requests functions state .none false hlink
    (calls.map wireRequest) [] fun code ↦ .blocked (by rw [hwait])
  rw [List.append_nil, hwait] at hreacts
  exact ⟨_, hreacts, by simp, by simp, rfl⟩

/-- Client and session would answer each other. -/
theorem matched_session (hlink : ∀ state, pppUartIsConnected.run state = (true, state))
    (hattached : client.attached = true) (calls : List ApiCall) (state : σ) :
    ∃ clientAll serverAll,
      Matched (serveAgain pppUartIsConnected
          (handlersOf (handle api pppUartIsConnected clientConnected) dispatchOrder))
        (performAll calls) client
        (serveClient pppUartIsConnected
          (handlersOf (handle api pppUartIsConnected clientConnected) dispatchOrder)) state
        clientAll serverAll ∧
      serverAll.ending = .blocked ∧
      clientAll.marks =
        nativeResults (servedApi api pppUartIsConnected clientConnected) calls state ∧
      serverAll.marks = (exchanges (handle api pppUartIsConnected clientConnected)
        (calls.map wireRequest) state).flatMap exchangeMarks := by
  obtain ⟨cost, hclient⟩ := behave_performAll api pppUartIsConnected clientConnected hattached calls
    state []
  obtain ⟨serverAll, hserver, houtput, hmarks, hblocked⟩ := reacts_session pppUartIsConnected hlink
    (handle api pppUartIsConnected clientConnected) calls state
  rw [List.append_nil, ← houtput] at hclient
  exact ⟨_, serverAll, ⟨.of_stopped hclient rfl rfl, hserver⟩, hblocked, rfl, hmarks⟩

/-- When nothing more can happen, the calls have all returned and all handlers have run. -/
theorem complete_of_stuck (hlink : ∀ state, pppUartIsConnected.run state = (true, state))
    (hattached : client.attached = true) (calls : List ApiCall) (state : σ)
    {labels : List Happening}
    {connection : Connection ClientState ApiValue Unit σ ServerMark (Bool × ErrorCode)}
    (hrun : Run (Connection.Step (serveAgain pppUartIsConnected
        (handlersOf (handle api pppUartIsConnected clientConnected) dispatchOrder)))
      (Connection.start (performAll calls) client (serveClient pppUartIsConnected
        (handlersOf (handle api pppUartIsConnected clientConnected) dispatchOrder)) state)
      labels connection)
    (hopen : connection.clientOpen = true)
    (hclientStuck : connection.client.Waits ∧ connection.toClient = [] ∨
      ∃ value, connection.client.prog = .done value)
    (hserverStuck : connection.server.Waits ∧ connection.toServer = []) :
    connection.client.prog = .done () ∧
      connection.server.marks = (exchanges (handle api pppUartIsConnected clientConnected)
        (calls.map wireRequest) state).flatMap exchangeMarks := by
  obtain ⟨clientAll, serverAll, hmatched, hblocked, -, hmarks⟩ := matched_session api
    pppUartIsConnected clientConnected hlink hattached calls state
  have hserverOpen := Connection.server_stays_open hmatched hblocked hrun hopen
  obtain ⟨hserverWaits, hserverEmpty⟩ := hserverStuck
  rcases hclientStuck with ⟨hclientWaits, hclientEmpty⟩ | ⟨value, hdone⟩
  · have hdeadlocked : connection.Deadlocked :=
      ⟨hopen, hserverOpen, hclientWaits, hclientEmpty, hserverWaits, hserverEmpty⟩
    obtain ⟨toServer, toClient, answers, hwritten, hwaits, hserver, hanswered, hends⟩ :=
      hdeadlocked.behaviours ⟨labels, hrun⟩
    exact (no_common_block pppUartIsConnected _ _ (dialogue_performAll hattached calls) hwritten hwaits
      hserver hanswered hends).elim
  · -- The client has written all its requests, and the server has read them.
    obtain ⟨clientIn, clientOut, serverIn, serverOut, clientCost, serverCost, hist, ⟨rest, hrest⟩,
      -, -⟩ := Connection.lockstep hmatched hrun hopen hserverOpen
    obtain ⟨serverMarks, hserverMarks, hserver⟩ := hist.server.reacts hserverWaits.reacts
    have htoServer := hist.toServer
    rw [hserverEmpty, List.append_nil] at htoServer
    rw [List.append_nil] at hserver
    have hreacts := hmatched.client
    rw [← hrest] at hreacts
    obtain ⟨_, later, -, hlater, hequal⟩ := hist.client.reacts_rest hreacts
    rw [hdone] at hlater
    have hwritten : clientAll.output = clientOut := by
      rw [hequal, hlater.eq_of_done rfl]
      simp
    have hall := hmatched.server
    rw [hwritten, htoServer] at hall
    refine ⟨hdone, ?_⟩
    rw [← hmarks, hall.unique hserver, hserverMarks]
    simp

/-- There is a step to make until the calls have all returned and all handlers have run. -/
theorem productive_or_complete (hlink : ∀ state, pppUartIsConnected.run state = (true, state))
    (hattached : client.attached = true) (calls : List ApiCall) (state : σ)
    {labels : List Happening}
    {connection : Connection ClientState ApiValue Unit σ ServerMark (Bool × ErrorCode)}
    (hrun : Run (Connection.Step (serveAgain pppUartIsConnected
        (handlersOf (handle api pppUartIsConnected clientConnected) dispatchOrder)))
      (Connection.start (performAll calls) client (serveClient pppUartIsConnected
        (handlersOf (handle api pppUartIsConnected clientConnected) dispatchOrder)) state)
      labels connection)
    (hopen : connection.clientOpen = true) :
    (∃ label after, Connection.Step (serveAgain pppUartIsConnected
        (handlersOf (handle api pppUartIsConnected clientConnected) dispatchOrder))
        connection label after ∧ label.productive = true) ∨
      connection.client.prog = .done () ∧
        connection.server.marks = (exchanges (handle api pppUartIsConnected clientConnected)
          (calls.map wireRequest) state).flatMap exchangeMarks := by
  obtain ⟨clientAll, serverAll, hmatched, hblocked, -, -⟩ := matched_session api
    pppUartIsConnected clientConnected hlink hattached calls state
  have hserverOpen := Connection.server_stays_open hmatched hblocked hrun hopen
  rcases Connection.productive_or_stuck hopen hserverOpen with hstep | ⟨hclient, hserver⟩
  · exact Or.inl hstep
  · have hwaits : connection.server.Waits ∧ connection.toServer = [] := by
      rcases hserver with hwaits | ⟨value, hdone, hrestart⟩
      · exact hwaits
      · exact absurd hrestart
          (Connection.server_not_done hmatched hblocked hrun hopen hserverOpen hdone)
    exact Or.inr (complete_of_stuck api pppUartIsConnected clientConnected hlink hattached calls
      state hrun hopen hclient hwaits)

/-- Location transparency: a client that makes any sequence of calls through the connection, in any
interleaving with the session and any fragmentation, gets the results that the native functions
return when they are called in the same order with the same arguments and the server's timeouts; the
handlers of the same names are invoked for them, once each and in the same order. In every state the
results and invocations so far are a prefix of these; a client that has returned from its last call
has all of the results; there is always a step to make until all calls have returned and all handlers
have run, and only boundedly many such steps. Assumes: the client is attached and the link stays
up. -/
theorem location_transparency (hlink : ∀ state, pppUartIsConnected.run state = (true, state))
    (hattached : client.attached = true) (calls : List ApiCall) (state : σ) :
    ∃ bound : ℕ, ∀ (labels : List Happening)
      (connection : Connection ClientState ApiValue Unit σ ServerMark (Bool × ErrorCode)),
      Run (Connection.Step (serveAgain pppUartIsConnected
          (handlersOf (handle api pppUartIsConnected clientConnected) dispatchOrder)))
        (Connection.start (performAll calls) client (serveClient pppUartIsConnected
          (handlersOf (handle api pppUartIsConnected clientConnected) dispatchOrder)) state)
        labels connection →
      connection.clientOpen = true →
      connection.client.marks <+:
          nativeResults (servedApi api pppUartIsConnected clientConnected) calls state ∧
        invocations connection.server.marks <+:
          calls.map (fun call ↦ ((apiOf call).id, wireBytes (requestOf call))) ∧
        (connection.client.prog = .done () → connection.client.marks =
          nativeResults (servedApi api pppUartIsConnected clientConnected) calls state) ∧
        labels.countP Happening.productive ≤ bound ∧
        ((∃ label after, Connection.Step (serveAgain pppUartIsConnected
            (handlersOf (handle api pppUartIsConnected clientConnected) dispatchOrder))
            connection label after ∧ label.productive = true) ∨
          connection.client.prog = .done () ∧
            invocations connection.server.marks =
              calls.map fun call ↦ ((apiOf call).id, wireBytes (requestOf call))) := by
  obtain ⟨clientAll, serverAll, hmatched, hblocked, hresults, hmarks⟩ := matched_session api
    pppUartIsConnected clientConnected hlink hattached calls state
  have hinvoked : invocations serverAll.marks =
      calls.map fun call ↦ ((apiOf call).id, wireBytes (requestOf call)) := by
    rw [hmarks, invocations_exchanges, List.map_map]
    rfl
  refine ⟨clientAll.cost + serverAll.cost +
    2 * (clientAll.output.length + serverAll.output.length), fun labels connection hrun hopen ↦ ?_⟩
  obtain ⟨hclientMarks, hserverMarks, hcount⟩ :=
    Connection.marks_prefix hmatched hblocked hrun hopen
  refine ⟨hresults ▸ hclientMarks, hinvoked ▸ hserverMarks.filterMap _, fun hdone ↦ ?_, hcount, ?_⟩
  · rw [← hresults]
    exact Connection.client_done hmatched hblocked hrun hopen hdone
  · refine (productive_or_complete api pppUartIsConnected clientConnected hlink hattached calls state
      hrun hopen).imp_right ?_
    rintro ⟨hdone, hall⟩
    exact ⟨hdone, by rw [hall, ← hmarks, hinvoked]⟩

end Sequences

/-- A machine whose functions always return the same values, some of them negative. -/
def fixedApi : ZigbeeApi (StateM Unit) where
  getShortAddr := pure 0
  getPanid := pure 0x1234
  getChannel := pure 11
  getSensorAddr := pure 0x1956
  openNetwork := fun _ ↦ pure 0
  waitAnnce := fun _ ↦ pure 0x1956
  findSensor := fun shortAddr _ ↦ pure ⟨-2, shortAddr, 1⟩
  readBasic := fun _ _ _ ↦ pure ⟨0, .zero 16, .zero 16⟩
  bindSensor := fun _ _ _ ↦ pure (-1)
  subscribeSensor := fun _ _ _ ↦ pure 0
  configReport := fun _ _ _ ↦ pure 0
  readTemp := fun _ _ _ ↦ pure ⟨0, -550, -4000, 12500, 10⟩
  getLastTemp := pure (-550)

theorem attached_three : ClientState.attached ⟨3⟩ = true := rfl

/-- Three calls on that machine. -/
theorem location_transparency_fixed :
    ∃ bound : ℕ, ∀ (labels : List Happening)
      (connection : Connection ClientState ApiValue Unit Unit ServerMark (Bool × ErrorCode)),
      Run (Connection.Step (serveAgain (pure true)
          (handlersOf (handle fixedApi (pure true) (pure true)) dispatchOrder)))
        (Connection.start
          (performAll [.getChannel, .findSensor 0x1956 1000, .readTemp 0x1956 1 1000]) ⟨3⟩
          (serveClient (pure true)
            (handlersOf (handle fixedApi (pure true) (pure true)) dispatchOrder)) ())
        labels connection →
      connection.clientOpen = true →
      labels.countP Happening.productive ≤ bound ∧
        (connection.client.prog = .done () → connection.client.marks =
          [.u8 11, .addr ⟨-2, 0x1956, 1⟩, .temp ⟨0, -550, -4000, 12500, 10⟩]) := by
  obtain ⟨bound, hall⟩ := location_transparency fixedApi (pure true) (pure true) linkUp_run
    attached_three [.getChannel, .findSensor 0x1956 1000, .readTemp 0x1956 1 1000] ()
  refine ⟨bound, fun labels connection hrun hopen ↦ ?_⟩
  obtain ⟨-, -, hresults, hcount, -⟩ := hall labels connection hrun hopen
  exact ⟨hcount, hresults⟩

end ZigbeeRemote.System
