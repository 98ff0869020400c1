import ZigbeeRemote.Foundation.Transcript
import ZigbeeRemote.Server.Session

/-!
# What a session has ahead of it

A session of the server that knows part of the catalogue, as one side of a conversation. It reads a
request in full before it writes the response, so a client that has all its responses may leave at any
time: the session then ends without another handler being invoked (`keepsOn_requests` with
`keepsOn_wait`). A request that it does not know is answered by an error, and the session ends
(`keepsOn_unknown`).
-/

set_option autoImplicit false
set_option relaxedAutoImplicit false

namespace ZigbeeRemote.Server

open Foundation Rpc WireType

section Rules

variable {σ ε α β : Type} {peerLeaves : Bool} {error : ErrorCode} {outlook : Outlook σ ε}

theorem keeps_run_bind {first : EngineM σ ε α} {next : α → EngineM σ ε β}
    {post : β × ErrorCode → Outlook σ ε → Prop}
    (hfirst : (first.run error).Keeps peerLeaves
      (fun result later ↦ ((next result.1).run result.2).Keeps peerLeaves post later) outlook) :
    ((first >>= next).run error).Keeps peerLeaves post outlook := by
  rw [StateT.run_bind]
  exact hfirst.bind

variable {state : σ} {marks : List ε} {input more : Bytes} {cost : ℕ} {lost : Bool}

/-- One call of the machine. -/
theorem keeps_run_lift {action : StateM σ α} {post : α × ErrorCode → Outlook σ ε → Prop}
    (hpost : post ((action.run state).1, error)
      ⟨(action.run state).2, marks, input, more, cost, lost⟩) :
    ((EngineM.lift (.lift action) : EngineM σ ε α).run error).Keeps peerLeaves post
      ⟨state, marks, input, more, 1 + cost, lost⟩ :=
  (Prog.keeps_lift hpost).bind

theorem keeps_run_mark {mark : ε} {post : Unit × ErrorCode → Outlook σ ε → Prop}
    (hpost : post ((), error) ⟨state, marks ++ [mark], input, more, cost, lost⟩) :
    ((EngineM.lift (.mark mark) : EngineM σ ε Unit).run error).Keeps peerLeaves post
      ⟨state, marks, input, more, 1 + cost, lost⟩ :=
  ⟨cost, Nat.add_comm 1 cost, hpost⟩

/-- `send` writes one frame and reads nothing. -/
theorem keeps_run_send {T : Type} [WireType T] {id : ApiId} {payload : T}
    {post : Bool × ErrorCode → Outlook σ ε → Prop}
    (hpost : post (true, error) ⟨state, marks, input, more, cost, lost⟩) :
    ((send id payload : EngineM σ ε Bool).run error).Keeps peerLeaves post
      ⟨state, marks, input, frame id (wireBytes payload) ++ more, sendCost T + cost, lost⟩ := by
  unfold send sendCost frame wireBytes
  split_ifs with hempty
  · exact ⟨cost, more, Nat.add_comm 1 cost, by simp, hpost⟩
  · refine ⟨1 + cost, toBytes payload ++ more, by simp; omega, ?_, cost, more, Nat.add_comm 1 cost,
      rfl, hpost⟩
    rw [length_toBytes, List.append_assoc]

end Rules

section Requests

variable {σ : Type} {functions : Functions σ} {apis : List Api}

theorem frame_ne_nil (id : ApiId) (payload : Bytes) : frame id payload ≠ [] := by
  rw [← List.length_pos_iff, length_frame]
  omega

/-- The chain does what the one handler with the right id does. -/
theorem keeps_invokeFirst {handlers : List (Handler σ ServerMark)} {header : FrameHeader}
    {handler : Handler σ ServerMark} {error : ErrorCode} {outlook : Outlook σ ServerMark}
    {post : InvokeResult × ErrorCode → Outlook σ ServerMark → Prop} (hmember : handler ∈ handlers)
    (hmatch : header.id = handler.desc.id)
    (honly : ∀ other ∈ handlers, header.id = other.desc.id → other = handler)
    (hinvoke : ((invokeOne handler header).run error).Keeps true
      (fun result later ↦ result.1 ≠ .noMatch ∧ post result later) outlook) :
    ((invokeFirst handlers header).run error).Keeps true post outlook := by
  induction handlers with
  | nil => cases hmember
  | cons first handlers ih =>
    rw [invokeFirst]
    refine keeps_run_bind ?_
    by_cases hid : header.id = first.desc.id
    · obtain rfl := honly first List.mem_cons_self hid
      refine hinvoke.imp fun result later hresult ↦ ?_
      rw [if_neg hresult.1]
      exact hresult.2
    · have hother : handler ∈ handlers := by
        rcases List.mem_cons.mp hmember with rfl | hmem
        · exact absurd hmatch hid
        · exact hmem
      rw [invokeOne, if_pos hid]
      exact ih hother fun other hmem ↦ honly other (List.mem_cons_of_mem first hmem)

variable {state : σ} {marks : List ServerMark} {rest more : Bytes} {cost : ℕ}

/-- `invoke_one` on a request of its handler: the payload is read before the response is written. -/
theorem keeps_invokeOne (request : Request)
    {post : InvokeResult × ErrorCode → Outlook σ ServerMark → Prop}
    (hpost : post (.handled, .none) ⟨(serve functions request state).2,
      marks ++ exchangeMarks (request, (serve functions request state).1), rest, more, cost, false⟩) :
    ((invokeOne (.ofStateM (desc request.api) (functions request.api))
        ⟨request.api.id, UInt32.ofNat request.payload.length⟩).run .none).Keeps true post
      ⟨state, marks, request.payload ++ rest,
        responseFrame (request, (serve functions request state).1) ++ more,
        payloadCost (desc request.api).Req +
          (1 + (1 + (sendCost (desc request.api).Resp + (1 + cost)))), false⟩ := by
  have hsize : (⟨request.api.id, UInt32.ofNat request.payload.length⟩ : FrameHeader).size.toNat =
      wireSize (desc request.api).Req :=
    (toNat_ofNat_of_le request.payload_le).trans request.length_payload
  have hid : (⟨request.api.id, UInt32.ofNat request.payload.length⟩ : FrameHeader).id =
      (Handler.ofStateM (desc request.api) (functions request.api) :
        Handler σ ServerMark).desc.id := (desc_id request.api).symm
  have hread := behave_receivePayload (ε := ServerMark) false state .none rest hsize
    request.length_payload
  rw [invokeOne, if_neg (not_not.mpr hid)]
  refine keeps_run_bind (Prog.keeps_of_read hread (fun _ ↦ ?_) ?_)
  · exact List.append_ne_nil_of_left_ne_nil (frame_ne_nil _ _) _
  refine keeps_run_bind (keeps_run_mark (keeps_run_bind (keeps_run_lift ?_)))
  have hmarks : marks ++ exchangeMarks (request, (serve functions request state).1) =
      marks ++ [.invoked (desc request.api).id (wireBytes (ofWire (desc request.api).Req request.payload))] ++
        [.responded (desc request.api).id (serve functions request state).1 true] := by
    rw [wireBytes_ofWire request.length_payload, desc_id, List.append_assoc]
    rfl
  rw [hmarks] at hpost
  rw [responseFrame, ← desc_id]
  exact keeps_run_bind (keeps_run_send (keeps_run_bind (keeps_run_mark hpost)))

/-- The nodes a pass of the loop takes to serve a request. -/
def roundCost (request : Request) : ℕ :=
  1 + (1 + (payloadCost (desc request.api).Req +
    (1 + (1 + (sendCost (desc request.api).Resp + 1)))))

variable {pppUartIsConnected : StateM σ Bool}
  (hlink : ∀ state, pppUartIsConnected.run state = (true, state))

include hlink

/-- A pass of the loop whose condition holds. -/
theorem keeps_serveRound {handlers : List (Handler σ ServerMark)} {error : ErrorCode}
    {input : Bytes} {post : Bool × ErrorCode → Outlook σ ServerMark → Prop}
    (hframe : ((serveFrame handlers).run error).Keeps true post
      ⟨state, marks, input, more, cost, false⟩) :
    ((serveRound pppUartIsConnected handlers).run error).Keeps true post
      ⟨state, marks, input, more, 1 + cost, false⟩ := by
  rw [serveRound]
  refine keeps_run_bind (keeps_run_lift ?_)
  rw [hlink]
  exact hframe

/-- A request of a call in the table is read, then answered, and the loop goes on. -/
theorem keeps_serveRound_request {request : Request} (hapi : request.api ∈ apis) (error : ErrorCode)
    {post : Bool × ErrorCode → Outlook σ ServerMark → Prop}
    (hpost : post (true, .none) ⟨(serve functions request state).2,
      marks ++ exchangeMarks (request, (serve functions request state).1), rest, more, cost, false⟩) :
    ((serveRound pppUartIsConnected (handlersOf functions apis)).run error).Keeps true post
      ⟨state, marks, request.frame ++ rest,
        responseFrame (request, (serve functions request state).1) ++ more,
        roundCost request + cost, false⟩ := by
  have hmember : (Handler.ofStateM (desc request.api) (functions request.api) : Handler σ ServerMark) ∈
      handlersOf functions apis := List.mem_map_of_mem hapi
  have honly : ∀ other ∈ handlersOf functions apis, request.api.id = other.desc.id →
      other = .ofStateM (desc request.api) (functions request.api) := by
    intro other hother hsame
    obtain ⟨known, -, rfl⟩ := List.mem_map.mp hother
    have hknown : known.id = request.api.id := (desc_id known).symm.trans hsame.symm
    rw [Api.id_injective hknown]
  have hheader := behave_receiveHeader (ε := ServerMark) false state error kMagic request.api.id
    (UInt32.ofNat request.payload.length) (request.payload ++ rest)
  rw [headerVerdict_of_le _ (ofNat_le_kMaxPayload request.payload_le)] at hheader
  have hcost : roundCost request + cost = 1 + (1 + (payloadCost (desc request.api).Req +
      (1 + (1 + (sendCost (desc request.api).Resp + (1 + cost)))))) := by
    rw [roundCost]
    omega
  rw [hcost, Request.frame, Rpc.frame, List.append_assoc]
  refine keeps_serveRound hlink (keeps_run_bind (Prog.keeps_of_read hheader (fun _ ↦ ?_) ?_))
  · exact List.append_ne_nil_of_left_ne_nil (frame_ne_nil _ _) _
  refine keeps_run_bind (keeps_invokeFirst hmember (desc_id request.api).symm honly
    (keeps_invokeOne request ⟨by decide, ?_⟩))
  rw [if_neg (by decide)]
  exact hpost

/-- A session ends when the client leaves between two requests. -/
theorem keepsOn_wait (handlers : List (Handler σ ServerMark)) (error : ErrorCode)
    {post : Bool × ErrorCode → Outlook σ ServerMark → Prop}
    (hpost : post (false, .none) ⟨state, marks, [], [], 0, true⟩) :
    ((serveRound pppUartIsConnected handlers).run error).KeepsOn true
      (serveAgain pppUartIsConnected handlers) post ⟨state, marks, [], [], 2, false⟩ := by
  refine (keeps_serveRound hlink (keeps_run_bind ⟨0, rfl, ?_, fun _ _ count _ ↦ ?_⟩)).ends
  · intro htwelve
    exact absurd (show Packed.size WireHeader ≤ 0 from htwelve) (by decide)
  · rw [List.drop_nil]
    exact ⟨rfl, hpost⟩

/-- A session ends after a request that it does not know. -/
theorem keepsOn_unknown (functions : Functions σ) (state : σ) (marks : List ServerMark) {id : ApiId}
    {payload : Bytes} (hpayload : payload.length ≤ kMaxPayload.toNat) (hid : ∀ api ∈ apis, id ≠ api.id) :
    ∃ cost, ∀ (error : ErrorCode) (post : Bool × ErrorCode → Outlook σ ServerMark → Prop),
      post (false, .none) ⟨state, marks, [], [], 0, false⟩ →
      ((serveRound pppUartIsConnected (handlersOf functions apis)).run error).KeepsOn true
        (serveAgain pppUartIsConnected (handlersOf functions apis)) post
        ⟨state, marks, frame id payload, errorFrame .unknownApi, cost, false⟩ := by
  obtain ⟨cost, hdiscard⟩ := behave_discardPayload (ε := ServerMark) false state
    (UInt32.ofNat payload.length) [] (toNat_ofNat_of_le hpayload).symm
  rw [List.append_nil] at hdiscard
  refine ⟨1 + (1 + (0 + (cost + 2))), fun error post hpost ↦ ?_⟩
  have hheader := behave_receiveHeader (ε := ServerMark) false state error kMagic id
    (UInt32.ofNat payload.length) payload
  rw [headerVerdict_of_le _ (ofNat_le_kMaxPayload hpayload)] at hheader
  have hchain := behave_invokeFirst_unknown false state .none functions
    ⟨id, UInt32.ofNat payload.length⟩ payload hid
  have herror : errorFrame .unknownApi ≠ [] := frame_ne_nil _ _
  refine (keeps_serveRound hlink (keeps_run_bind (Prog.keeps_of_read hheader (fun _ ↦ herror)
    (keeps_run_bind (Prog.keeps_of_read hchain (fun _ ↦ herror) ?_))))).ends
  rw [if_pos rfl]
  refine keeps_run_bind (Prog.Keeps.bind (Prog.keeps_of_read hdiscard (fun _ ↦ herror) ?_))
  rw [← List.append_nil (errorFrame .unknownApi)]
  have hsent : ((sendError .unknownApi : EngineM σ ServerMark Bool).run .none).Keeps true
      (fun result later ↦ ((return false : EngineM σ ServerMark Bool).run result.2).Keeps true
        (fun value later ↦ serveAgain pppUartIsConnected (handlersOf functions apis) value = none ∧
          post value later) later)
      ⟨state, marks, [], errorFrame .unknownApi ++ [], sendCost ErrorResp + 0, false⟩ :=
    keeps_run_send ⟨rfl, hpost⟩
  exact keeps_run_bind hsent

/-- Requests of calls in the table are served in order, and then the session goes on. -/
theorem keepsOn_requests {post : Bool × ErrorCode → Outlook σ ServerMark → Prop} {input output : Bytes}
    (requests : List Request) (hapis : ∀ request ∈ requests, request.api ∈ apis)
    (hlast : ∀ error, ((serveRound pppUartIsConnected (handlersOf functions apis)).run error).KeepsOn true
      (serveAgain pppUartIsConnected (handlersOf functions apis)) post
      ⟨stateAfter functions requests state,
        marks ++ (exchanges functions requests state).flatMap exchangeMarks, input, output, cost,
        false⟩) :
    ∃ passed, ∀ error,
      ((serveRound pppUartIsConnected (handlersOf functions apis)).run error).KeepsOn true
        (serveAgain pppUartIsConnected (handlersOf functions apis)) post
        ⟨state, marks, requests.flatMap Request.frame ++ input,
          (exchanges functions requests state).flatMap responseFrame ++ output, passed + cost,
          false⟩ := by
  induction requests generalizing state marks with
  | nil =>
    refine ⟨0, fun error ↦ ?_⟩
    have hround := hlast error
    rw [exchanges, List.flatMap_nil, List.append_nil] at hround
    rw [Nat.zero_add]
    exact hround
  | cons request requests ih =>
    have hothers : ∀ other ∈ requests, other.api ∈ apis :=
      fun other hmem ↦ hapis other (List.mem_cons_of_mem request hmem)
    have hnext : ∀ error, ((serveRound pppUartIsConnected (handlersOf functions apis)).run error).KeepsOn
        true (serveAgain pppUartIsConnected (handlersOf functions apis)) post
        ⟨stateAfter functions requests (serve functions request state).2,
          marks ++ exchangeMarks (request, (serve functions request state).1) ++
            (exchanges functions requests (serve functions request state).2).flatMap exchangeMarks,
          input, output, cost, false⟩ := by
      intro error
      have hround := hlast error
      rw [exchanges, List.flatMap_cons, ← List.append_assoc] at hround
      exact hround
    obtain ⟨passed, hkeeps⟩ := ih hothers hnext
    refine ⟨roundCost request + (passed + 1), fun error ↦ ?_⟩
    rw [exchanges, List.flatMap_cons, List.flatMap_cons, List.append_assoc, List.append_assoc,
      Nat.add_assoc]
    exact (keeps_serveRound_request hlink (hapis request List.mem_cons_self) error
      ⟨_, passed + cost, rfl, Nat.add_right_comm _ _ _, hkeeps .none⟩).again

/-- Requests of calls in the table are served in order, and the session ends at a request that it
does not know. -/
theorem keepsOn_refused (marks : List ServerMark) {id : ApiId} {payload : Bytes}
    (post : Bool × ErrorCode → Outlook σ ServerMark → Prop) (requests : List Request)
    (hapis : ∀ request ∈ requests, request.api ∈ apis)
    (hpayload : payload.length ≤ kMaxPayload.toNat) (hid : ∀ api ∈ apis, id ≠ api.id)
    (hpost : post (false, .none) ⟨stateAfter functions requests state,
      marks ++ (exchanges functions requests state).flatMap exchangeMarks, [], [], 0, false⟩) :
    ∃ passed, ∀ error,
      ((serveRound pppUartIsConnected (handlersOf functions apis)).run error).KeepsOn true
        (serveAgain pppUartIsConnected (handlersOf functions apis)) post
        ⟨state, marks, requests.flatMap Request.frame ++ frame id payload,
          (exchanges functions requests state).flatMap responseFrame ++ errorFrame .unknownApi, passed,
          false⟩ := by
  obtain ⟨cost, hrefuses⟩ := keepsOn_unknown hlink functions (stateAfter functions requests state)
    (marks ++ (exchanges functions requests state).flatMap exchangeMarks) hpayload hid
  obtain ⟨passed, hkeeps⟩ := keepsOn_requests hlink requests hapis fun error ↦ hrefuses error post hpost
  exact ⟨passed + cost, hkeeps⟩

end Requests

end ZigbeeRemote.Server
