import ZigbeeRemote.Rpc.Engine
import ZigbeeRemote.Rpc.Transfer
import Mathlib.Data.List.Infix

/-!
# A session of the server

`dispatch` and `serve_client` of `zb_rpc_server/main/rpc_server.cpp`, for any functions behind the
handlers. `serve_client` is a loop: its body is `serveRound`, and `serveAgain` says when it is
entered again. The chain of thirteen `invoke_one` calls is `invokeFirst` on a list of handlers in the
order of the source, `dispatchOrder`.

`serveClient_grammar` describes a whole session on any finite input, in terms of the grammar of the
protocol: the input is the longest run of well-formed requests followed by a rest; the handlers are
invoked for these requests in order, and the output is their responses followed by what the rest
calls for (`Closing`).
-/

set_option autoImplicit false
set_option relaxedAutoImplicit false

namespace ZigbeeRemote.Server

open Foundation Rpc WireType

/-! ### The loop of a session -/

section Definitions

variable {σ : Type}

/-- The chain of `invoke_one` calls in `dispatch`: each is made only when all before it reported
`no_match`. -/
def invokeFirst : List (Handler σ ServerMark) → FrameHeader → EngineM σ ServerMark InvokeResult
  | [], _ => return .noMatch
  | handler :: handlers, header => do
    let result ← invokeOne handler header
    if result = .noMatch then
      invokeFirst handlers header
    else
      return result

/-- `dispatch`. -/
def dispatch (handlers : List (Handler σ ServerMark)) (header : FrameHeader) :
    EngineM σ ServerMark Bool := do
  let result ← invokeFirst handlers header
  if result = .noMatch then
    if !(← EngineM.lift (discardPayload header.size)) then
      return false
    else
      let _ ← sendError .unknownApi
      return false
  else
    return decide (result = .handled)

/-- The body of the loop of `serve_client`; the result says whether the loop goes on. -/
def serveFrame (handlers : List (Handler σ ServerMark)) : EngineM σ ServerMark Bool := do
  match ← receiveHeader with
  | none =>
    if (← get) ≠ ErrorCode.none then
      let _ ← sendError (← get)
    return false
  | some header => dispatch handlers header

/-- One pass of the loop of `serve_client`, its condition included. -/
def serveRound (pppUartIsConnected : StateM σ Bool) (handlers : List (Handler σ ServerMark)) :
    EngineM σ ServerMark Bool := do
  if ← EngineM.lift (.lift pppUartIsConnected) then
    serveFrame handlers
  else
    return false

/-- `serve_client`, from the construction of its engine to the end of the first pass. -/
def serveClient (pppUartIsConnected : StateM σ Bool) (handlers : List (Handler σ ServerMark)) :
    Prog σ ServerMark (Bool × ErrorCode) :=
  (serveRound pppUartIsConnected handlers).run .none

/-- The passes of `serve_client` after the first, with the engine as the last one left it. -/
def serveAgain (pppUartIsConnected : StateM σ Bool) (handlers : List (Handler σ ServerMark))
    (result : Bool × ErrorCode) : Option (Prog σ ServerMark (Bool × ErrorCode)) :=
  if result.1 then some ((serveRound pppUartIsConnected handlers).run result.2) else none

/-- What serves the calls of the catalogue: a function with state for each of them. -/
abbrev Functions (σ : Type) := (api : Api) → (desc api).Req → StateM σ (desc api).Resp

/-- The handlers for the given calls. -/
def handlersOf (functions : Functions σ) (apis : List Api) : List (Handler σ ServerMark) :=
  apis.map fun api ↦ .ofStateM (desc api) (functions api)

/-- The order in which `dispatch` tries the calls. -/
def dispatchOrder : List Api :=
  [.getShortAddr, .getPanid, .getChannel, .openNetwork, .waitAnnce, .findSensor, .readBasic,
    .bindSensor, .subscribeSensor, .configReport, .readTemp, .getLastTemp, .getSensorAddr]

theorem mem_dispatchOrder (api : Api) : api ∈ dispatchOrder := by
  cases api <;> decide

end Definitions

/-! ### Requests -/

/-- A request of the catalogue: a call and a payload of the size its request type takes. -/
structure Request where
  api : Api
  payload : Bytes
  length_payload : payload.length = wireSize (desc api).Req

namespace Request

/-- The bytes of a request on the stream. -/
def frame (request : Request) : Bytes := Rpc.frame request.api.id request.payload

/-- The request with a given value. -/
def ofValue (api : Api) (value : (desc api).Req) : Request :=
  ⟨api, wireBytes value, length_wireBytes value⟩

theorem payload_le (request : Request) : request.payload.length ≤ kMaxPayload.toNat :=
  request.length_payload ▸ wireSize_le

/-- Requests can be told apart on a stream, whatever follows them. -/
theorem frame_append_inj {first second : Request} {rest more : Bytes}
    (hequal : first.frame ++ rest = second.frame ++ more) : first = second ∧ rest = more := by
  obtain ⟨api, payload, hpayload⟩ := first
  obtain ⟨other, bytes, hbytes⟩ := second
  simp only [frame, Rpc.frame, List.append_assoc] at hequal
  obtain ⟨hheader, hrest⟩ := List.append_inj hequal (by simp)
  obtain rfl : api = other := Api.id_injective (headerBytes_inj hheader).2.1
  obtain ⟨rfl, rfl⟩ := List.append_inj hrest (hpayload.trans hbytes.symm)
  exact ⟨rfl, rfl⟩

end Request

section Exchanges

variable {σ : Type}

/-- What the function behind a request returns, as bytes on the stream, and the state after it. -/
def serve (functions : Functions σ) (request : Request) (state : σ) : Bytes × σ :=
  let result := (functions request.api (ofWire (desc request.api).Req request.payload)).run state
  (wireBytes result.1, result.2)

/-- The requests of a list, served one after the other, with their responses. -/
def exchanges (functions : Functions σ) : List Request → σ → List (Request × Bytes)
  | [], _ => []
  | request :: requests, state =>
    (request, (serve functions request state).1) ::
      exchanges functions requests (serve functions request state).2

/-- The state after a list of requests. -/
def stateAfter (functions : Functions σ) : List Request → σ → σ
  | [], state => state
  | request :: requests, state =>
    stateAfter functions requests (serve functions request state).2

/-- The response to a request on the stream. -/
def responseFrame (exchange : Request × Bytes) : Bytes := Rpc.frame exchange.1.api.id exchange.2

/-- A request is handed to the handler of its call once, and the response is written once. -/
def exchangeMarks (exchange : Request × Bytes) : List ServerMark :=
  [.invoked exchange.1.api.id exchange.1.payload, .responded exchange.1.api.id exchange.2 true]

end Exchanges

/-! ### One pass of the loop -/

section Rounds

variable {σ : Type} (eof : Bool) (state : σ) (error : ErrorCode)

theorem behave_invokeFirst_noMatch {handlers : List (Handler σ ServerMark)} {header : FrameHeader}
    (input : Bytes) (hid : ∀ handler ∈ handlers, header.id ≠ handler.desc.id) :
    behave eof ((invokeFirst handlers header).run error) state input =
      ⟨[], [], 0, state, .finished (.noMatch, error) input⟩ := by
  induction handlers with
  | nil => rfl
  | cons handler handlers ih =>
    have hfirst := behave_invokeOne_noMatch eof state error input
      (hid handler List.mem_cons_self)
    have hothers := ih fun other hother ↦ hid other (List.mem_cons_of_mem handler hother)
    simp only [invokeFirst, behave_run_bind, hfirst, Behaviour.andThen_finished, if_true, hothers]
    rfl

/-- The chain does what the one handler with the right id does. -/
theorem behave_invokeFirst_match {handlers : List (Handler σ ServerMark)} {header : FrameHeader}
    {handler : Handler σ ServerMark} {input output rest : Bytes} {marks : List ServerMark}
    {cost : ℕ} {after : σ} {result : InvokeResult} {code : ErrorCode}
    (hmember : handler ∈ handlers) (hmatch : header.id = handler.desc.id)
    (honly : ∀ other ∈ handlers, header.id = other.desc.id → other = handler)
    (hinvoke : behave eof ((invokeOne handler header).run error) state input =
      ⟨output, marks, cost, after, .finished (result, code) rest⟩)
    (hresult : result ≠ .noMatch) :
    behave eof ((invokeFirst handlers header).run error) state input =
      ⟨output, marks, cost, after, .finished (result, code) rest⟩ := by
  induction handlers with
  | nil => simp at hmember
  | cons first handlers ih =>
    by_cases hid : header.id = first.desc.id
    · obtain rfl := honly first List.mem_cons_self hid
      simp only [invokeFirst, behave_run_bind, hinvoke, Behaviour.andThen_finished, if_neg hresult,
        behave_run_pure]
      simp [Behaviour.after]
    · have hother : handler ∈ handlers := by
        rcases List.mem_cons.mp hmember with rfl | hmem
        · exact absurd hmatch hid
        · exact hmem
      have hrest := ih hother fun other hmem ↦ honly other (List.mem_cons_of_mem first hmem)
      have hfirst := behave_invokeOne_noMatch eof state error input hid
      simp only [invokeFirst, behave_run_bind, hfirst, Behaviour.andThen_finished, if_true, hrest,
        Behaviour.after_nil]

/-- The one handler of a table that a known id leads to. -/
theorem behave_invokeFirst_api {functions : Functions σ} {apis : List Api} {api : Api}
    {header : FrameHeader} {input output rest : Bytes} {marks : List ServerMark} {cost : ℕ}
    {after : σ} {result : InvokeResult} {code : ErrorCode} (hapi : api ∈ apis)
    (hid : header.id = api.id)
    (hinvoke : behave eof ((invokeOne (.ofStateM (desc api) (functions api)) header).run error)
        state input = ⟨output, marks, cost, after, .finished (result, code) rest⟩)
    (hresult : result ≠ .noMatch) :
    behave eof ((invokeFirst (handlersOf functions apis) header).run error) state input =
      ⟨output, marks, cost, after, .finished (result, code) rest⟩ := by
  refine behave_invokeFirst_match eof state error (List.mem_map_of_mem hapi)
    (hid.trans (desc_id api).symm) ?_ hinvoke hresult
  intro other hother hsame
  obtain ⟨known, -, rfl⟩ := List.mem_map.mp hother
  have hknown : known.id = api.id := by
    rw [← hid, hsame]
    exact (desc_id known).symm
  obtain rfl := Api.id_injective hknown
  rfl

theorem behave_invokeFirst_unknown (functions : Functions σ) {apis : List Api}
    (header : FrameHeader) (input : Bytes) (hid : ∀ api ∈ apis, header.id ≠ api.id) :
    behave eof ((invokeFirst (handlersOf functions apis) header).run error) state input =
      ⟨[], [], 0, state, .finished (.noMatch, error) input⟩ := by
  refine behave_invokeFirst_noMatch eof state error input fun handler hhandler ↦ ?_
  obtain ⟨api, hapi, rfl⟩ := List.mem_map.mp hhandler
  intro hsame
  exact hid api hapi (hsame.trans (desc_id api))

/-- `dispatch` on the id of a call in the table. -/
theorem behave_dispatch_api {functions : Functions σ} {apis : List Api} {api : Api}
    {header : FrameHeader} {input output rest : Bytes} {marks : List ServerMark} {cost : ℕ}
    {after : σ} {result : InvokeResult} {code : ErrorCode} (hapi : api ∈ apis)
    (hid : header.id = api.id)
    (hinvoke : behave eof ((invokeOne (.ofStateM (desc api) (functions api)) header).run error)
        state input = ⟨output, marks, cost, after, .finished (result, code) rest⟩)
    (hresult : result ≠ .noMatch) :
    behave eof ((dispatch (handlersOf functions apis) header).run error) state input =
      ⟨output, marks, cost, after, .finished (decide (result = .handled), code) rest⟩ := by
  simp only [dispatch, behave_run_bind, Behaviour.andThen_finished, if_neg hresult,
    behave_invokeFirst_api eof state error hapi hid hinvoke hresult, behave_run_pure]
  simp [Behaviour.after]

/-- `dispatch` on an unknown id whose payload is there. -/
theorem behave_dispatch_unknown (functions : Functions σ) {apis : List Api} (header : FrameHeader)
    {payload : Bytes} (rest : Bytes) (hpayload : payload.length = header.size.toNat)
    (hid : ∀ api ∈ apis, header.id ≠ api.id) :
    ∃ cost, behave eof ((dispatch (handlersOf functions apis) header).run error) state
        (payload ++ rest) =
      ⟨errorFrame .unknownApi, [], cost, state, .finished (false, error) rest⟩ := by
  obtain ⟨cost, hdiscard⟩ :=
    behave_discardPayload (ε := ServerMark) eof state header.size rest hpayload
  refine ⟨cost + 2, ?_⟩
  simp only [dispatch, behave_run_bind, Behaviour.andThen_finished, if_true, behave_run_lift,
    behave_invokeFirst_unknown eof state error functions header _ hid, hdiscard,
    Behaviour.after_andThen, Bool.not_true, Bool.false_eq_true, if_false, behave_sendError,
    behave_run_pure]
  simp [Behaviour.after]

/-- `dispatch` on an unknown id whose payload the stream ends in. -/
theorem behave_dispatch_unknown_eof (functions : Functions σ) {apis : List Api}
    (header : FrameHeader) {input : Bytes} (hshort : input.length < header.size.toNat)
    (hid : ∀ api ∈ apis, header.id ≠ api.id) :
    ∃ cost, behave true ((dispatch (handlersOf functions apis) header).run error) state input =
      ⟨[], [], cost, state, .finished (false, error) []⟩ := by
  obtain ⟨cost, hdiscard⟩ :=
    behave_discardPayload_eof (ε := ServerMark) state header.size hshort
  refine ⟨cost, ?_⟩
  simp only [dispatch, behave_run_bind, Behaviour.andThen_finished, if_true, behave_run_lift,
    behave_invokeFirst_unknown true state error functions header _ hid, hdiscard,
    Behaviour.after_andThen, Bool.not_false, behave_run_pure]
  simp [Behaviour.after]

/-- What follows a header that `receive_header` accepts. -/
theorem behave_serveFrame_header {handlers : List (Handler σ ServerMark)} {id : ApiId}
    {size : UInt32} (rest : Bytes) (hsize : size ≤ kMaxPayload) :
    behave eof ((serveFrame handlers).run error) state (headerBytes kMagic id size ++ rest) =
      (behave eof ((dispatch handlers ⟨id, size⟩).run .none) state rest).after [] [] 1 := by
  simp only [serveFrame, behave_run_bind, behave_receiveHeader, headerVerdict_of_le id hsize,
    Behaviour.andThen_finished]

/-- A header that `receive_header` rejects is answered by an error, and the loop ends. -/
theorem behave_serveFrame_rejected {handlers : List (Handler σ ServerMark)}
    {magic id size : UInt32} {code : ErrorCode} (rest : Bytes)
    (hverdict : headerVerdict magic id size = (none, code)) (hcode : code ≠ .none) :
    behave eof ((serveFrame handlers).run error) state (headerBytes magic id size ++ rest) =
      ⟨errorFrame code, [], 3, state, .finished (false, code) rest⟩ := by
  have hsend := behave_sendError (ε := ServerMark) eof state code code rest
  rw [serveFrame, behave_run_bind, behave_receiveHeader, hverdict, Behaviour.andThen_finished,
    Behaviour.after_nodes]
  simp only [behave_run_bind, behave_run_get, Behaviour.andThen_finished, if_pos hcode, hsend,
    behave_run_pure, Behaviour.after_nil]
  simp only [Behaviour.after, List.append_nil, Nat.add_zero]

/-- A request of a call in the table is served, answered once, and the loop goes on. -/
theorem behave_serveFrame_request (functions : Functions σ) {apis : List Api} {request : Request}
    (hapi : request.api ∈ apis) (rest : Bytes) :
    ∃ cost, behave eof ((serveFrame (handlersOf functions apis)).run error) state
        (request.frame ++ rest) =
      ⟨responseFrame (request, (serve functions request state).1),
        exchangeMarks (request, (serve functions request state).1), cost,
        (serve functions request state).2, .finished (true, .none) rest⟩ := by
  have hsize : (UInt32.ofNat request.payload.length).toNat =
      wireSize (desc request.api).Req :=
    (toNat_ofNat_of_le request.payload_le).trans request.length_payload
  obtain ⟨cost, hinvoke⟩ : ∃ cost, behave eof
      ((invokeOne (.ofStateM (desc request.api) (functions request.api))
        ⟨request.api.id, UInt32.ofNat request.payload.length⟩).run .none) state
        (request.payload ++ rest) =
      ⟨Rpc.frame (desc request.api).id (serve functions request state).1,
        [.invoked (desc request.api).id request.payload,
          .responded (desc request.api).id (serve functions request state).1 true], cost,
        (serve functions request state).2, .finished (.handled, .none) rest⟩ :=
    behave_invokeOne_handled eof state .none (desc_id request.api).symm hsize
      request.length_payload (behave_lift eof state _ rest)
  have hdispatch := behave_dispatch_api eof state .none hapi rfl hinvoke (by decide)
  refine ⟨1 + cost, ?_⟩
  rw [Request.frame, Rpc.frame, List.append_assoc,
    behave_serveFrame_header eof state error _ (ofNat_le_kMaxPayload request.payload_le),
    hdispatch]
  simp [Behaviour.after, responseFrame, exchangeMarks]

/-- A frame with an unknown id is taken off the stream and answered by an error, and the loop ends. -/
theorem behave_serveFrame_unknown (functions : Functions σ) {apis : List Api} {id : ApiId}
    {payload : Bytes} (rest : Bytes) (hpayload : payload.length ≤ kMaxPayload.toNat)
    (hid : ∀ api ∈ apis, id ≠ api.id) :
    ∃ cost, behave eof ((serveFrame (handlersOf functions apis)).run error) state
        (frame id payload ++ rest) =
      ⟨errorFrame .unknownApi, [], cost, state, .finished (false, .none) rest⟩ := by
  obtain ⟨cost, hdispatch⟩ := behave_dispatch_unknown eof state .none functions
    ⟨id, UInt32.ofNat payload.length⟩ rest (toNat_ofNat_of_le hpayload).symm hid
  refine ⟨1 + cost, ?_⟩
  rw [frame, List.append_assoc,
    behave_serveFrame_header eof state error _ (ofNat_le_kMaxPayload hpayload), hdispatch]
  simp [Behaviour.after]

/-- The condition of the loop is asked once a pass. -/
theorem behave_serveRound (pppUartIsConnected : StateM σ Bool)
    (handlers : List (Handler σ ServerMark)) (input : Bytes) :
    behave eof ((serveRound pppUartIsConnected handlers).run error) state input =
      if (pppUartIsConnected.run state).1 then
        (behave eof ((serveFrame handlers).run error) (pppUartIsConnected.run state).2 input).after
          [] [] 1
      else ⟨[], [], 1, (pppUartIsConnected.run state).2, .finished (false, error) input⟩ := by
  simp only [serveRound, behave_run_bind, behave_run_lift, behave_lift, Behaviour.andThen_finished,
    Behaviour.after_andThen]
  split_ifs
  · simp [Behaviour.after]
  · rfl

end Rounds

/-! ### The grammar of a session -/

/-- The input is the given requests followed by the rest, and no longer run of requests starts it. -/
def LongestPrefix (input : Bytes) (requests : List Request) (rest : Bytes) : Prop :=
  input = requests.flatMap Request.frame ++ rest ∧
    ∀ others more, input = others.flatMap Request.frame ++ more → others <+: requests

/-- A rest that no request starts ends the longest run of requests. -/
theorem LongestPrefix.of_rest {requests : List Request} {rest : Bytes}
    (hrest : ∀ (request : Request) more, rest ≠ request.frame ++ more) :
    LongestPrefix (requests.flatMap Request.frame ++ rest) requests rest := by
  refine ⟨rfl, fun others more hequal ↦ ?_⟩
  induction others generalizing requests with
  | nil => exact List.nil_prefix
  | cons other others ih =>
    cases requests with
    | nil =>
      rw [List.flatMap_nil, List.nil_append, List.flatMap_cons, List.append_assoc] at hequal
      exact absurd hequal (hrest other _)
    | cons request requests =>
      simp only [List.flatMap_cons, List.append_assoc] at hequal
      obtain ⟨rfl, htail⟩ := Request.frame_append_inj hequal
      exact List.cons_prefix_cons.mpr ⟨rfl, ih htail⟩

/-- Every input is a run of requests followed by a rest that no request starts. -/
theorem exists_requests (input : Bytes) :
    ∃ (requests : List Request) (rest : Bytes),
      input = requests.flatMap Request.frame ++ rest ∧
        ∀ (request : Request) more, rest ≠ request.frame ++ more := by
  induction hlength : input.length using Nat.strong_induction_on generalizing input with
  | _ length ih =>
    by_cases hstart : ∃ (request : Request) (more : Bytes), input = request.frame ++ more
    · obtain ⟨request, more, rfl⟩ := hstart
      have hshorter : more.length < length := by
        rw [← hlength, List.length_append, Request.frame, length_frame]
        omega
      obtain ⟨requests, rest, rfl, hrest⟩ := ih more.length hshorter more rfl
      exact ⟨request :: requests, rest, by simp, hrest⟩
    · exact ⟨[], input, by simp, fun request more hequal ↦ hstart ⟨request, more, hequal⟩⟩

/-- What the server writes for a rest that no request starts, before it ends the session. The
premises follow the order of the checks: the magic, the size limit, the id, the exact size. -/
inductive Closing : Bytes → Bytes → Prop
  | insideHeader {rest : Bytes} (hshort : rest.length < 12) : Closing rest []
  | badMagic {magic id size : UInt32} {more : Bytes} (hmagic : magic ≠ kMagic) :
      Closing (headerBytes magic id size ++ more) (errorFrame .badMagic)
  | oversizedPayload {id size : UInt32} {more : Bytes} (hsize : kMaxPayload < size) :
      Closing (headerBytes kMagic id size ++ more) (errorFrame .oversizedPayload)
  | unknownApi {id size : UInt32} {more : Bytes} (hsize : size ≤ kMaxPayload)
      (hid : ∀ api : Api, id ≠ api.id) (hmore : size.toNat ≤ more.length) :
      Closing (headerBytes kMagic id size ++ more) (errorFrame .unknownApi)
  | insideUnknown {id size : UInt32} {more : Bytes} (hsize : size ≤ kMaxPayload)
      (hid : ∀ api : Api, id ≠ api.id) (hmore : more.length < size.toNat) :
      Closing (headerBytes kMagic id size ++ more) []
  | payloadMismatch {api : Api} {size : UInt32} {more : Bytes} (hsize : size ≤ kMaxPayload)
      (hexact : size.toNat ≠ wireSize (desc api).Req) :
      Closing (headerBytes kMagic api.id size ++ more) (errorFrame .payloadMismatch)
  | insidePayload {api : Api} {size : UInt32} {more : Bytes} (hsize : size ≤ kMaxPayload)
      (hexact : size.toNat = wireSize (desc api).Req) (hmore : more.length < size.toNat) :
      Closing (headerBytes kMagic api.id size ++ more) []

section Grammar

variable {σ : Type} (functions : Functions σ) (state : σ) (error : ErrorCode)

/-- A header with an id of the catalogue that no request starts with. -/
theorem behave_dispatch_closing_known {api : Api} {size : UInt32} {more : Bytes}
    (hsize : size ≤ kMaxPayload)
    (hrest : ∀ (request : Request) later, headerBytes kMagic api.id size ++ more ≠
      request.frame ++ later) :
    ∃ answer cost code left, Closing (headerBytes kMagic api.id size ++ more) answer ∧
      behave true ((dispatch (handlersOf functions dispatchOrder) ⟨api.id, size⟩).run .none) state more =
        ⟨answer, [], cost, state, .finished (false, code) left⟩ := by
  have hmember := mem_dispatchOrder api
  by_cases hexact : size.toNat = wireSize (desc api).Req
  · have hmore : more.length < size.toNat := by
      by_contra hlong
      have hpayload : (more.take size.toNat).length = wireSize (desc api).Req := by
        rw [List.length_take]
        omega
      refine hrest ⟨api, more.take size.toNat, hpayload⟩ (more.drop size.toNat) ?_
      rw [Request.frame, Rpc.frame, hpayload, ← hexact, UInt32.ofNat_toNat, List.append_assoc,
        List.take_append_drop]
    have hinvoke : behave true
        ((invokeOne (.ofStateM (desc api) (functions api)) ⟨api.id, size⟩).run .none) state more =
        ⟨[], [], 1, state, .finished (.failed, .none) []⟩ :=
      behave_invokeOne_eof state (desc_id api).symm hexact (hexact ▸ hmore)
    exact ⟨_, _, _, _, .insidePayload hsize hexact hmore,
      behave_dispatch_api true state .none hmember rfl hinvoke (by decide)⟩
  · have hinvoke : behave true
        ((invokeOne (.ofStateM (desc api) (functions api)) ⟨api.id, size⟩).run .none) state more =
        ⟨errorFrame .payloadMismatch, [], 2, state, .finished (.failed, .payloadMismatch) more⟩ :=
      behave_invokeOne_mismatch true state .none more (desc_id api).symm hexact
    exact ⟨_, _, _, _, .payloadMismatch hsize hexact,
      behave_dispatch_api true state .none hmember rfl hinvoke (by decide)⟩

/-- A header with an id outside the catalogue. -/
theorem behave_dispatch_closing_unknown {id : ApiId} {size : UInt32} (more : Bytes)
    (hsize : size ≤ kMaxPayload) (hunknown : ∀ api : Api, id ≠ api.id) :
    ∃ answer cost code left, Closing (headerBytes kMagic id size ++ more) answer ∧
      behave true ((dispatch (handlersOf functions dispatchOrder) ⟨id, size⟩).run .none) state more =
        ⟨answer, [], cost, state, .finished (false, code) left⟩ := by
  by_cases hmore : more.length < size.toNat
  · obtain ⟨cost, hdispatch⟩ := behave_dispatch_unknown_eof state .none functions ⟨id, size⟩ hmore
      fun api (_ : api ∈ dispatchOrder) ↦ hunknown api
    exact ⟨_, _, _, _, .insideUnknown hsize hunknown hmore, hdispatch⟩
  · have hpayload : (more.take size.toNat).length = size.toNat := by
      rw [List.length_take]
      omega
    obtain ⟨cost, hdispatch⟩ := behave_dispatch_unknown true state .none functions ⟨id, size⟩
      (more.drop size.toNat) hpayload fun api (_ : api ∈ dispatchOrder) ↦ hunknown api
    rw [List.take_append_drop] at hdispatch
    exact ⟨_, _, _, _, .unknownApi hsize hunknown (Nat.not_lt.mp hmore), hdispatch⟩

/-- On a rest that no request starts, the body of the loop writes what the rest calls for, invokes
nothing and ends the session. -/
theorem behave_serveFrame_closing {rest : Bytes}
    (hrest : ∀ (request : Request) more, rest ≠ request.frame ++ more) :
    ∃ answer cost code left, Closing rest answer ∧
      behave true ((serveFrame (handlersOf functions dispatchOrder)).run error) state rest =
        ⟨answer, [], cost, state, .finished (false, code) left⟩ := by
  by_cases hshort : rest.length < 12
  · refine ⟨[], 1, .none, [], .insideHeader hshort, ?_⟩
    simp only [serveFrame, behave_run_bind, behave_receiveHeader_eof state error hshort,
      Behaviour.andThen_finished, behave_run_get, ne_eq, not_true_eq_false, if_false,
      behave_run_pure]
    simp [Behaviour.after]
  have htwelve : (rest.take 12).length = 12 := by
    rw [List.length_take]
    omega
  obtain ⟨magic, id, size, hheader⟩ := exists_headerBytes htwelve
  obtain ⟨more, rfl⟩ : ∃ more, rest = headerBytes magic id size ++ more :=
    ⟨rest.drop 12, by rw [← hheader, List.take_append_drop]⟩
  by_cases hmagic : magic ≠ kMagic
  · exact ⟨_, 3, .badMagic, more, .badMagic hmagic,
      behave_serveFrame_rejected true state error more (if_pos hmagic) (by decide)⟩
  obtain rfl := not_not.mp hmagic
  by_cases hlimit : size > kMaxPayload
  · exact ⟨_, 3, .oversizedPayload, more, .oversizedPayload hlimit,
      behave_serveFrame_rejected true state error more
        ((if_neg hmagic).trans (if_pos hlimit)) (by decide)⟩
  have hsize : size ≤ kMaxPayload := UInt32.not_lt.mp hlimit
  obtain ⟨answer, cost, code, left, hclosing, hdispatch⟩ : ∃ answer cost code left,
      Closing (headerBytes kMagic id size ++ more) answer ∧
        behave true ((dispatch (handlersOf functions dispatchOrder) ⟨id, size⟩).run .none) state more =
          ⟨answer, [], cost, state, .finished (false, code) left⟩ := by
    by_cases hid : ∃ api : Api, id = api.id
    · obtain ⟨api, rfl⟩ := hid
      exact behave_dispatch_closing_known functions state hsize hrest
    · exact behave_dispatch_closing_unknown functions state more hsize fun api hequal ↦ hid ⟨api, hequal⟩
  refine ⟨answer, 1 + cost, code, left, hclosing, ?_⟩
  rw [behave_serveFrame_header true state error more hsize, hdispatch, Behaviour.after_nodes]

variable {pppUartIsConnected : StateM σ Bool}

/-- Requests at the front of the input are served in order, and then the session goes on with the
rest. Assumes: on the rest, the loop is not entered a second time. -/
theorem reacts_requests (eof : Bool) (hlink : ∀ state, pppUartIsConnected.run state = (true, state))
    (requests : List Request) (rest : Bytes)
    (hlast : ∀ code, Reacts eof
      (serveAgain pppUartIsConnected (handlersOf functions dispatchOrder))
      ((serveRound pppUartIsConnected (handlersOf functions dispatchOrder)).run code)
      (stateAfter functions requests state) rest
      (behave eof ((serveRound pppUartIsConnected (handlersOf functions dispatchOrder)).run code)
        (stateAfter functions requests state) rest)) :
    ∃ code cost, Reacts eof (serveAgain pppUartIsConnected (handlersOf functions dispatchOrder))
      ((serveRound pppUartIsConnected (handlersOf functions dispatchOrder)).run error) state
      (requests.flatMap Request.frame ++ rest)
      ((behave eof ((serveRound pppUartIsConnected (handlersOf functions dispatchOrder)).run code)
          (stateAfter functions requests state) rest).after
        ((exchanges functions requests state).flatMap responseFrame)
        ((exchanges functions requests state).flatMap exchangeMarks) cost) := by
  induction requests generalizing state error with
  | nil => exact ⟨error, 0, by simpa [exchanges, stateAfter] using hlast error⟩
  | cons request requests ih =>
    obtain ⟨cost, hbehave⟩ := behave_serveFrame_request eof state error functions
      (mem_dispatchOrder request.api) (requests.flatMap Request.frame ++ rest)
    obtain ⟨code, later, hreacts⟩ := ih (serve functions request state).2 .none hlast
    refine ⟨code, 1 + cost + 1 + later, ?_⟩
    have hround : behave eof
        ((serveRound pppUartIsConnected (handlersOf functions dispatchOrder)).run error) state
        ((request :: requests).flatMap Request.frame ++ rest) =
        ⟨responseFrame (request, (serve functions request state).1),
          exchangeMarks (request, (serve functions request state).1), 1 + cost,
          (serve functions request state).2,
          .finished (true, .none) (requests.flatMap Request.frame ++ rest)⟩ := by
      rw [behave_serveRound, hlink, if_pos rfl, List.flatMap_cons, List.append_assoc, hbehave,
        Behaviour.after_nodes]
    have hagain := Reacts.of_again hround rfl hreacts
    rw [Behaviour.after_after] at hagain
    exact hagain

/-- A whole session: the requests are served in order, then the rest is answered. -/
theorem reacts_serveRound (hlink : ∀ state, pppUartIsConnected.run state = (true, state))
    (requests : List Request) {rest : Bytes}
    (hrest : ∀ (request : Request) more, rest ≠ request.frame ++ more) :
    ∃ answer behaviour, Closing rest answer ∧
      Reacts true (serveAgain pppUartIsConnected (handlersOf functions dispatchOrder))
        ((serveRound pppUartIsConnected (handlersOf functions dispatchOrder)).run error) state
        (requests.flatMap Request.frame ++ rest) behaviour ∧
      behaviour.output = (exchanges functions requests state).flatMap responseFrame ++ answer ∧
      behaviour.marks = (exchanges functions requests state).flatMap exchangeMarks := by
  have hround : ∀ code, ∃ answer, Closing rest answer ∧ ∃ cost last left, behave true
      ((serveRound pppUartIsConnected (handlersOf functions dispatchOrder)).run code)
      (stateAfter functions requests state) rest =
        ⟨answer, [], cost, stateAfter functions requests state, .finished (false, last) left⟩ := by
    intro code
    obtain ⟨answer, cost, last, left, hclosing, hbehave⟩ :=
      behave_serveFrame_closing functions (stateAfter functions requests state) code hrest
    refine ⟨answer, hclosing, 1 + cost, last, left, ?_⟩
    rw [behave_serveRound, hlink, if_pos rfl, hbehave, Behaviour.after_nodes]
  obtain ⟨code, cost, hreacts⟩ := reacts_requests functions state error true hlink requests rest
    fun code ↦ by
      obtain ⟨answer, -, passed, last, left, hends⟩ := hround code
      rw [hends]
      exact .of_stopped hends rfl rfl
  obtain ⟨answer, hclosing, passed, last, left, hends⟩ := hround code
  rw [hends] at hreacts
  exact ⟨answer, _, hclosing, hreacts, rfl, by simp⟩

/-- A session on any finite input, cut into reads in any way, with the link up and writes that
succeed. The input is the longest run of requests of the catalogue followed by a rest. The handlers
are invoked for exactly these requests, once each and in order; the output is their responses
followed by what the rest calls for; and the session ends. Assumes: the link stays up and no system
call fails. -/
theorem serveClient_grammar (hlink : ∀ state, pppUartIsConnected.run state = (true, state))
    {fd : Descriptor} (hclean : fd.Clean) :
    ∃ (requests : List Request) (rest answer : Bytes) (enough : ℕ)
      (finish : Executed σ ServerMark (Bool × ErrorCode)),
      LongestPrefix fd.incoming requests rest ∧ Closing rest answer ∧
      (∀ rounds, enough ≤ rounds →
        executeLoop (serveAgain pppUartIsConnected (handlersOf functions dispatchOrder)) rounds
          (serveClient pppUartIsConnected (handlersOf functions dispatchOrder)) state fd =
            some finish) ∧
      finish.marks = (exchanges functions requests state).flatMap exchangeMarks ∧
      finish.fd.sent =
        fd.sent ++ ((exchanges functions requests state).flatMap responseFrame ++ answer) := by
  obtain ⟨requests, rest, hinput, hrest⟩ := exists_requests fd.incoming
  obtain ⟨answer, behaviour, hclosing, hreacts, houtput, hmarks⟩ :=
    reacts_serveRound functions state .none hlink requests hrest
  obtain ⟨enough, value, other, after, hloop, -, -, hsent⟩ :=
    executeLoop_clean hreacts fd hclean hinput
  rw [houtput] at hsent
  refine ⟨requests, rest, answer, enough, _, ?_, hclosing, hloop, hmarks, hsent⟩
  rw [hinput]
  exact .of_rest hrest

/-- Handlers that answer every request with zeros. -/
def zeroFunctions : Functions Unit := fun api _ ↦ pure (init (desc api).Resp)

theorem linkUp_run (state : Unit) : (pure true : StateM Unit Bool).run state = (true, state) := rfl

/-- A request for the channel followed by twelve bytes that are no header, read one byte at a time. -/
theorem serveClient_grammar_garbage :
    ∃ (requests : List Request) (rest answer : Bytes)
      (finish : Executed Unit ServerMark (Bool × ErrorCode)),
      LongestPrefix (frame (Api.id .getChannel) [] ++ List.replicate 12 0) requests rest ∧
      Closing rest answer ∧
      finish.fd.sent = (exchanges zeroFunctions requests ()).flatMap responseFrame ++ answer := by
  have hclean : (Descriptor.reading (frame (Api.id .getChannel) [] ++ List.replicate 12 0)
      .steady).Clean := ⟨Schedule.steady_clean, Schedule.steady_clean⟩
  obtain ⟨requests, rest, answer, -, finish, hprefix, hclosing, -, -, hsent⟩ :=
    serveClient_grammar zeroFunctions () linkUp_run hclean
  exact ⟨requests, rest, answer, finish, hprefix, hclosing, hsent⟩

end Grammar

end ZigbeeRemote.Server
