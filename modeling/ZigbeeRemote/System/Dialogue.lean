import ZigbeeRemote.Foundation.StreamConnection
import ZigbeeRemote.Server.Session

/-!
# Client and server never wait for each other

A client and a session of the server over two byte channels. `Dialogue requests client` is what the
argument needs of the client: it writes each request in full before it waits for the response, and
takes exactly the response off the stream. A sequence of `call`s is such a client
(`dialogue_callAll`).

`no_common_block` is the reason there is no deadlock. Suppose each side has read all the other has
written and both wait. The client has written its first request in full; so the server has read it,
and either its session has ended, or the response is written in full; then the client has read it
and the two are as after one request less.

`deadlock_free` states it for every reachable state of the connection: any order of the two sides'
steps, any fragmentation, and a server that knows any part of the catalogue.
-/

set_option autoImplicit false
set_option relaxedAutoImplicit false

namespace ZigbeeRemote.System

open Foundation Rpc Server WireType

/-! ### Clients that wait for one response at a time -/

section Dialogue

variable {κ μ α : Type}

/-- A client that makes the given requests one after the other. -/
def Dialogue : List Request → Prog κ μ α → κ → Prop
  | [], client, state => ∀ input, ∃ value rest,
      (behave false client state input).ending = .finished value rest
  | request :: requests, client, state =>
    (∀ input, request.frame <+: (behave false client state input).output) ∧
      ∀ response rest, response.length = wireSize (desc request.api).Resp →
        ∃ next after marks cost, Dialogue requests next after ∧
          behave false client state (frame request.api.id response ++ rest) =
            (behave false next after rest).after request.frame marks cost

end Dialogue

/-- A call of the catalogue with its request. -/
structure CatalogueCall where
  api : Api
  request : (desc api).Req

/-- The bytes of a call's request. -/
def CatalogueCall.toRequest (call : CatalogueCall) : Request := .ofValue call.api call.request

section Calls

variable {κ μ : Type}

/-- A client that performs calls one after the other, whatever their results. -/
def callAll : List CatalogueCall → EngineM κ μ Unit
  | [] => return ()
  | next :: calls => do
    let _ ← call (desc next.api) next.request
    callAll calls

theorem frame_toRequest (call : CatalogueCall) :
    call.toRequest.frame = frame (desc call.api).id (wireBytes call.request) := by
  rw [desc_id]
  rfl

theorem dialogue_callAll (calls : List CatalogueCall) (error : ErrorCode) (state : κ) :
    Dialogue (calls.map CatalogueCall.toRequest) ((callAll calls : EngineM κ μ Unit).run error)
      state := by
  induction calls generalizing error with
  | nil => exact fun input ↦ ⟨_, input, rfl⟩
  | cons next calls ih =>
    refine ⟨fun input ↦ ?_, fun response rest hresponse ↦ ?_⟩
    · rw [callAll, behave_run_bind, behave_call, Behaviour.after_andThen, Behaviour.after_output,
        frame_toRequest]
      exact List.prefix_append _ _
    · have hid : (desc next.api).id ≠ ApiId.error := by
        rw [desc_id]
        exact next.api.id_ne_error
      have hreply := behave_callReply_response (ε := μ) false state error rest hid hresponse
      rw [desc_id] at hreply
      refine ⟨(callAll calls).run .none, state, [], sendCost (desc next.api).Req +
        (1 + payloadCost (desc next.api).Resp), ih .none, ?_⟩
      rw [callAll, behave_run_bind, behave_call, CatalogueCall.toRequest, Request.ofValue, hreply,
        Behaviour.after_andThen, Behaviour.andThen_finished, Behaviour.after_after,
        List.append_nil, List.append_nil, desc_id]
      rfl

end Calls

/-! ### No common block -/

section NoCommonBlock

variable {κ μ α σ : Type} (pppUartIsConnected : StateM σ Bool) (functions : Functions σ)
  (apis : List Api)

/-- The length of a response. -/
theorem length_serve (request : Request) (state : σ) :
    (serve functions request state).1.length = wireSize (desc request.api).Resp :=
  length_wireBytes _

/-- A session that blocks after a request has answered it in full and waits for the next. -/
theorem served_of_blocked {request : Request} {state : σ} {error : ErrorCode} {more : Bytes}
    {behaviour : Behaviour σ ServerMark (Bool × ErrorCode)}
    (hserver : Reacts false (serveAgain pppUartIsConnected (handlersOf functions apis))
      ((serveRound pppUartIsConnected (handlersOf functions apis)).run error) state
      (request.frame ++ more) behaviour)
    (hblocked : behaviour.ending = .blocked) :
    ∃ response after later marks cost,
      response.length = wireSize (desc request.api).Resp ∧
      Reacts false (serveAgain pppUartIsConnected (handlersOf functions apis))
        ((serveRound pppUartIsConnected (handlersOf functions apis)).run .none) after more later ∧
      behaviour = later.after (frame request.api.id response) marks cost := by
  have hround := behave_serveRound false state error pppUartIsConnected (handlersOf functions apis)
    (request.frame ++ more)
  -- A round that ends the session does not block.
  have hgoes : ∀ {output rest : Bytes} {marks : List ServerMark} {cost : ℕ} {after : σ}
      {code : ErrorCode}, behave false
        ((serveRound pppUartIsConnected (handlersOf functions apis)).run error) state
        (request.frame ++ more) ≠ ⟨output, marks, cost, after, .finished (false, code) rest⟩ := by
    intro output rest marks cost after code hends
    have hstopped : Reacts false (serveAgain pppUartIsConnected (handlersOf functions apis)) _ _ _ _ :=
      .of_stopped hends rfl rfl
    rw [hserver.unique hstopped] at hblocked
    simp at hblocked
  by_cases hlink : (pppUartIsConnected.run state).1 = true
  · rw [if_pos hlink] at hround
    by_cases hapi : request.api ∈ apis
    · obtain ⟨cost, hframe⟩ := behave_serveFrame_request false (pppUartIsConnected.run state).2 error
        functions hapi more
      rw [hframe, Behaviour.after_nodes] at hround
      obtain ⟨later, hlater, hequal⟩ := hserver.later hround rfl
      exact ⟨_, _, later, _, _, length_serve functions request _, hlater, hequal⟩
    · have hunknown : ∀ api ∈ apis, request.api.id ≠ api.id := by
        intro api hmember hsame
        exact hapi (Api.id_injective hsame ▸ hmember)
      obtain ⟨cost, hframe⟩ := behave_serveFrame_unknown false (pppUartIsConnected.run state).2 error
        functions more request.payload_le hunknown
      rw [Request.frame, hframe, Behaviour.after_nodes] at hround
      exact absurd hround hgoes
  · rw [if_neg hlink] at hround
    exact absurd hround hgoes

/-- Client and server cannot both wait when each has read all that the other has written. -/
theorem no_common_block {requests : List Request} {client : Prog κ μ α} {clientState : κ}
    {serverState : σ} {error : ErrorCode} {toServer toClient : Bytes}
    {behaviour : Behaviour σ ServerMark (Bool × ErrorCode)}
    (hdialogue : Dialogue requests client clientState)
    (hwritten : (behave false client clientState toClient).output = toServer)
    (hwaits : (behave false client clientState toClient).ending = .blocked)
    (hserver : Reacts false (serveAgain pppUartIsConnected (handlersOf functions apis))
      ((serveRound pppUartIsConnected (handlersOf functions apis)).run error) serverState toServer
      behaviour)
    (hanswered : behaviour.output = toClient) (hblocked : behaviour.ending = .blocked) : False := by
  induction requests generalizing client clientState serverState error toServer toClient
    behaviour with
  | nil =>
    obtain ⟨value, rest, hfinished⟩ := hdialogue toClient
    simp [hwaits] at hfinished
  | cons request requests ih =>
    obtain ⟨more, hmore⟩ := hdialogue.1 toClient
    rw [← hmore] at hwritten
    subst hwritten
    obtain ⟨response, after, later, marks, cost, hlength, hlater, rfl⟩ :=
      served_of_blocked pppUartIsConnected functions apis hserver hblocked
    rw [Behaviour.after_output] at hanswered
    subst hanswered
    obtain ⟨next, nextState, left, passed, hnext, hbehave⟩ :=
      hdialogue.2 response later.output hlength
    rw [hbehave] at hmore hwaits
    refine ih hnext ?_ hwaits hlater rfl hblocked
    exact (List.append_cancel_left hmore).symm

end NoCommonBlock

/-! ### Deadlock freedom -/

section DeadlockFree

variable {κ μ σ : Type}

/-- No reachable state of a client that performs calls and a session that knows any part of the
catalogue has both sides waiting for bytes with both channels empty and both ends open. -/
theorem deadlock_free (calls : List CatalogueCall) (apis : List Api) (functions : Functions σ)
    (pppUartIsConnected : StateM σ Bool) (clientState : κ) (serverState : σ)
    {connection : Connection κ μ (Unit × ErrorCode) σ ServerMark (Bool × ErrorCode)}
    (hreach : Reachable
      (Connection.Step (serveAgain pppUartIsConnected (handlersOf functions apis)))
      (Connection.start ((callAll calls).run .none) clientState
        (serveClient pppUartIsConnected (handlersOf functions apis)) serverState) connection) :
    ¬ connection.Deadlocked := by
  intro hdeadlocked
  obtain ⟨toServer, toClient, serverAll, hwritten, hwaits, hserver, hanswered, hblocked⟩ :=
    hdeadlocked.behaviours hreach
  exact no_common_block pppUartIsConnected functions apis (dialogue_callAll calls .none _) hwritten
    hwaits hserver hanswered hblocked

/-- The client waits for a response, and the server for the rest of the request. -/
def bothWait {α β : Type} (connection : Connection Unit Empty α Unit ServerMark β) : Bool :=
  match connection.client.prog, connection.server.prog with
  | .recv clientSize _, .recv serverSize _ =>
    clientSize == Packed.size WireHeader && serverSize == Packed.size WireHeader - 4
  | _, _ => false

/-- A client has asked for the channel, and the server has read the first four bytes of it: both sides
wait in a read, and the bytes that one of them waits for are on their way. -/
theorem deadlock_free_start :
    ∃ connection, Reachable (Connection.Step (serveAgain (pure true) (handlersOf zeroFunctions [])))
        (Connection.start ((callAll [⟨.getChannel, ⟨⟩⟩]).run .none : Prog Unit Empty _) ()
          (serveClient (pure true) (handlersOf zeroFunctions [])) ()) connection ∧
      bothWait connection = true ∧ ¬ connection.Deadlocked := by
  have hrun : ((execute (Connection.next (serveAgain (pure true) (handlersOf zeroFunctions [])))
      (fun _ _ ↦ true)
      (Connection.start ((callAll [⟨.getChannel, ⟨⟩⟩]).run .none : Prog Unit Empty _) ()
        (serveClient (pure true) (handlersOf zeroFunctions [])) ())
      [.client (.writes (headerBytes kMagic Api.getChannel.id 0)), .client .internal,
        .server .internal,
        .server (.reads ((headerBytes kMagic Api.getChannel.id 0).take 4))]).any bothWait) =
        true := by
    decide +kernel
  obtain ⟨connection, hreach, hwait⟩ := Reachable.exists_of_execute Connection.Step.of_next _ hrun
  exact ⟨connection, hreach.of_restrict, hwait,
    deadlock_free [⟨.getChannel, ⟨⟩⟩] [] zeroFunctions (pure true) () () hreach.of_restrict⟩

end DeadlockFree

end ZigbeeRemote.System
