import ZigbeeRemote.Foundation.SharedMachine
import ZigbeeRemote.Rpc.Protocol

/-!
# The frame engine

`class Engine`, `call` and `invoke_one` of `zb_rpc_shared/include/zb_rpc/engine.hpp`, as programs
over the two transfer loops. The engine's only member besides its descriptor is `last_error_`; it is
the state of `EngineM`. Logging is left out.

An output parameter filled by a function that returns `bool` is an `Option` here: `some` is the
result true with the value stored, `none` the result false, after which no caller looks at it.

Below the definitions is one specification for each of them on an input that starts with the bytes
it asks for, and one on a stream that ends too early. They hold however the stream is cut into
reads, and later modules use only them. The engine itself neither uses the machine nor leaves marks
(`silent_call` and the lemmas before it): only `invoke_one` does.
-/

set_option autoImplicit false
set_option relaxedAutoImplicit false

namespace ZigbeeRemote.Rpc

open Foundation WireType

/-- A computation of the engine: a program that can read and set `last_error_`. -/
abbrev EngineM (σ ε : Type) := StateT ErrorCode (Prog σ ε)

section Definitions

variable {σ ε α : Type}

/-- A program that leaves `last_error_` alone. -/
def EngineM.lift (program : Prog σ ε α) : EngineM σ ε α := StateT.lift program

/-- `Engine::receive_header`. -/
def receiveHeader : EngineM σ ε (Option FrameHeader) := do
  set ErrorCode.none
  match ← EngineM.lift (.readAll (Packed.size WireHeader)) with
  | none => return none
  | some bytes =>
    let wire : WireHeader := Packed.ofBytes bytes
    if fromLe32 wire.magic ≠ kMagic then
      set ErrorCode.badMagic
      return none
    else
      let header : FrameHeader := ⟨fromLe32 wire.id, fromLe32 wire.size⟩
      if header.size > kMaxPayload then
        set ErrorCode.oversizedPayload
        return none
      else
        return some header

/-- `Engine::receive_payload<T>`. -/
def receivePayload (T : Type) [WireType T] (header : FrameHeader) : EngineM σ ε (Option T) := do
  if emptyReq T then
    if header.size ≠ 0 then
      set ErrorCode.payloadMismatch
      return none
    else
      return some (init T)
  else
    if header.size.toNat ≠ sizeof T then
      set ErrorCode.payloadMismatch
      return none
    else
      match ← EngineM.lift (.readAll (sizeof T)) with
      | none => return none
      | some bytes => return some (ofBytes bytes)

/-- `Engine::send(api_id)`. -/
def sendEmpty (id : ApiId) : EngineM σ ε Bool :=
  EngineM.lift (.writeAll (headerBytes kMagic id 0))

/-- `Engine::send<T>(api_id, const T &)`. -/
def send {T : Type} [WireType T] (id : ApiId) (payload : T) : EngineM σ ε Bool := do
  if emptyReq T then
    sendEmpty id
  else
    if ← EngineM.lift (.writeAll (headerBytes kMagic id (UInt32.ofNat (sizeof T)))) then
      EngineM.lift (.writeAll (toBytes payload))
    else
      return false

/-- `Engine::send_error`. -/
def sendError (code : ErrorCode) : EngineM σ ε Bool :=
  send ApiId.error (⟨toLe32 code.code⟩ : ErrorResp)

/-- The number of bytes `discard_payload` reads next, into its buffer of 32 bytes. -/
def discardChunk (size : UInt32) : UInt32 := if size < 32 then size else 32

theorem discardChunk_le (size : UInt32) : discardChunk size ≤ size := by
  unfold discardChunk
  split_ifs with hsmall
  · exact UInt32.le_refl size
  · exact UInt32.not_lt.mp hsmall

theorem toNat_sub_discardChunk (size : UInt32) :
    (size - discardChunk size).toNat = size.toNat - (discardChunk size).toNat :=
  UInt32.toNat_sub_of_le _ _ (discardChunk_le size)

theorem discardChunk_pos {size : UInt32} (hsize : size ≠ 0) : 0 < (discardChunk size).toNat := by
  unfold discardChunk
  split_ifs
  · exact Nat.pos_of_ne_zero fun h ↦ hsize (UInt32.toNat_inj.mp h)
  · decide

/-- `Engine::discard_payload`. -/
def discardPayload (size : UInt32) : Prog σ ε Bool :=
  if _hsize : size = 0 then .done true
  else
    .recv (discardChunk size).toNat fun
      | none => .done false
      | some _ => discardPayload (size - discardChunk size)
termination_by size.toNat
decreasing_by
  have hpos := discardChunk_pos _hsize
  have hle := UInt32.le_iff_toNat_le.mp (discardChunk_le size)
  rw [toNat_sub_discardChunk]
  omega

/-- The part of `call<Desc>` that follows the request. -/
def callReply (d : RpcDesc) : EngineM σ ε (Option d.Resp) := do
  match ← receiveHeader with
  | none => return none
  | some header =>
    if header.id = ApiId.error then
      let _ ← receivePayload ErrorResp header
      return none
    else if header.id ≠ d.id then
      let _ ← EngineM.lift (discardPayload header.size)
      return none
    else
      receivePayload d.Resp header

/-- `call<Desc>`. The overload for `EmptyReq` differs from the other one only in which `send` it
uses, a choice `send` makes itself. -/
def call (d : RpcDesc) (request : d.Req) : EngineM σ ε (Option d.Resp) := do
  if !(← send d.id request) then
    return none
  else
    callReply d

/-- `enum class invoke_result`. -/
inductive InvokeResult : Type
  | noMatch
  | handled
  | failed
  deriving DecidableEq

/-- What the reader of the model sees of a server: a handler was invoked with a request, and a
response was sent, completely or not. -/
inductive ServerMark : Type
  | invoked (id : ApiId) (request : Bytes)
  | responded (id : ApiId) (response : Bytes) (sent : Bool)
  deriving DecidableEq

/-- A descriptor with the function that serves it, the two template arguments of `invoke_one`. -/
structure Handler (σ ε : Type) where
  desc : RpcDesc
  function : desc.Req → Prog σ ε desc.Resp

/-- `invoke_one<Desc, Function>`. -/
def invokeOne (handler : Handler σ ServerMark) (header : FrameHeader) :
    EngineM σ ServerMark InvokeResult := do
  if header.id ≠ handler.desc.id then
    return .noMatch
  else
    match ← receivePayload handler.desc.Req header with
    | none =>
      if (← get) ≠ ErrorCode.none then
        let _ ← sendError (← get)
      return .failed
    | some request =>
      EngineM.lift (.mark (.invoked handler.desc.id (wireBytes request)))
      let response ← EngineM.lift (handler.function request)
      let sent ← send handler.desc.id response
      EngineM.lift (.mark (.responded handler.desc.id (wireBytes response) sent))
      return if sent then .handled else .failed

/-- A handler whose function is one call of the machine. -/
def Handler.ofStateM (d : RpcDesc) (function : d.Req → StateM σ d.Resp) : Handler σ ε :=
  ⟨d, fun request ↦ Prog.lift (function request)⟩

end Definitions

/-! ### Rules for the engine's computations -/

section Rules

variable {σ ε α β : Type} (eof : Bool) (state : σ) (error : ErrorCode) (input : Bytes)

@[simp] theorem behave_run_bind (first : EngineM σ ε α) (next : α → EngineM σ ε β) :
    behave eof ((first >>= next).run error) state input =
      (behave eof (first.run error) state input).andThen fun result later rest ↦
        behave eof ((next result.1).run result.2) later rest := by
  rw [StateT.run_bind, Prog.bind_eq_bind, behave_bind]

@[simp] theorem behave_run_pure (value : α) :
    behave eof ((pure value : EngineM σ ε α).run error) state input =
      ⟨[], [], 0, state, .finished (value, error) input⟩ := rfl

@[simp] theorem behave_run_set (code : ErrorCode) :
    behave eof ((set code : EngineM σ ε PUnit).run error) state input =
      ⟨[], [], 0, state, .finished (⟨⟩, code) input⟩ := rfl

@[simp] theorem behave_run_get :
    behave eof ((get : EngineM σ ε ErrorCode).run error) state input =
      ⟨[], [], 0, state, .finished (error, error) input⟩ := rfl

@[simp] theorem behave_run_lift (program : Prog σ ε α) :
    behave eof ((EngineM.lift program).run error) state input =
      (behave eof program state input).andThen fun value later rest ↦
        ⟨[], [], 0, later, .finished (value, error) rest⟩ := by
  show behave eof (program.bind fun value ↦ .done (value, error)) state input = _
  rw [behave_bind]
  rfl

end Rules

/-! ### What the engine's functions do -/

section Specifications

variable {σ ε : Type} (eof : Bool) (state : σ) (error : ErrorCode)

/-- What `receive_header` makes of a header: its result, and `last_error_`. -/
def headerVerdict (magic id size : UInt32) : Option FrameHeader × ErrorCode :=
  if magic ≠ kMagic then (none, .badMagic)
  else if size > kMaxPayload then (none, .oversizedPayload)
  else (some ⟨id, size⟩, .none)

theorem headerVerdict_of_le {size : UInt32} (id : ApiId) (hsize : size ≤ kMaxPayload) :
    headerVerdict kMagic id size = (some ⟨id, size⟩, .none) := by
  have hnot : ¬ size > kMaxPayload := UInt32.not_lt.mpr hsize
  simp [headerVerdict, hnot]

theorem behave_receiveHeader (magic id size : UInt32) (rest : Bytes) :
    behave eof ((receiveHeader : EngineM σ ε _).run error) state
        (headerBytes magic id size ++ rest) =
      ⟨[], [], 1, state, .finished (headerVerdict magic id size) rest⟩ := by
  have hread : behave eof (Prog.readAll (Packed.size WireHeader) : Prog σ ε _) state
      (headerBytes magic id size ++ rest) =
      ⟨[], [], 1, state, .finished (some (headerBytes magic id size)) rest⟩ :=
    behave_readAll_append eof state rest (length_headerBytes magic id size)
  have hwire : (Packed.ofBytes (headerBytes magic id size) : WireHeader) =
      ⟨toLe32 magic, toLe32 id, toLe32 size⟩ := Packed.ofBytes_toBytes _
  simp only [receiveHeader, behave_run_bind, behave_run_set, behave_run_lift, hread,
    Behaviour.andThen_finished, Behaviour.after_andThen]
  simp only [hwire, fromLe32_toLe32, headerVerdict]
  split_ifs <;> rfl

/-- A stream that ends inside a header leaves `last_error_` at `none`. -/
theorem behave_receiveHeader_eof {input : Bytes} (hshort : input.length < 12) :
    behave true ((receiveHeader : EngineM σ ε _).run error) state input =
      ⟨[], [], 1, state, .finished (none, .none) []⟩ := by
  have hread : behave true (Prog.readAll (Packed.size WireHeader) : Prog σ ε _) state input =
      ⟨[], [], 1, state, .finished none []⟩ := behave_readAll_eof state hshort
  simp only [receiveHeader, behave_run_bind, behave_run_set, behave_run_lift, hread,
    Behaviour.andThen_finished, Behaviour.after_andThen]
  rfl

/-- Where a header is expected and nothing has arrived, `receive_header` waits. -/
theorem behave_receiveHeader_wait :
    behave false ((receiveHeader : EngineM σ ε _).run error) state [] =
      ⟨[], [], 0, state, .blocked⟩ := rfl

variable {T : Type} [WireType T]

/-- The nodes `receive_payload` passes when it succeeds. -/
def payloadCost (T : Type) [WireType T] : ℕ := if emptyReq T then 0 else 1

/-- `receive_payload` takes exactly the payload when the header announces its size. -/
theorem behave_receivePayload {header : FrameHeader} {payload : Bytes} (rest : Bytes)
    (hsize : header.size.toNat = wireSize T) (hpayload : payload.length = wireSize T) :
    behave eof ((receivePayload T header : EngineM σ ε _).run error) state (payload ++ rest) =
      ⟨[], [], payloadCost T, state, .finished (some (ofWire T payload), error) rest⟩ := by
  unfold receivePayload payloadCost ofWire
  unfold wireSize at hsize hpayload
  split_ifs at hsize hpayload ⊢ with hempty hzero hother
  · exact absurd (UInt32.toNat_inj.mp hsize) hzero
  · simp [List.length_eq_zero_iff.mp hpayload]
  · exact absurd hsize hother
  · have hread : behave eof (Prog.readAll (sizeof T) : Prog σ ε _) state (payload ++ rest) =
        ⟨[], [], 1, state, .finished (some payload) rest⟩ :=
      behave_readAll_append eof state rest hpayload
    simp only [behave_run_bind, behave_run_lift, hread, Behaviour.andThen_finished,
      Behaviour.after_andThen]
    rfl

/-- `receive_payload` takes nothing when the header announces another size. -/
theorem behave_receivePayload_mismatch {header : FrameHeader} (input : Bytes)
    (hsize : header.size.toNat ≠ wireSize T) :
    behave eof ((receivePayload T header : EngineM σ ε _).run error) state input =
      ⟨[], [], 0, state, .finished (none, .payloadMismatch) input⟩ := by
  unfold receivePayload
  unfold wireSize at hsize
  split_ifs at hsize ⊢ with hempty hzero
  · rfl
  · exact absurd (by rw [not_not.mp hzero]; rfl) hsize
  · rfl

/-- A stream that ends inside a payload leaves `last_error_` alone. -/
theorem behave_receivePayload_eof {header : FrameHeader} {input : Bytes}
    (hsize : header.size.toNat = wireSize T) (hshort : input.length < wireSize T) :
    behave true ((receivePayload T header : EngineM σ ε _).run error) state input =
      ⟨[], [], 1, state, .finished (none, error) []⟩ := by
  unfold receivePayload
  unfold wireSize at hsize hshort
  split_ifs at hsize hshort ⊢ with hempty hzero hother
  · omega
  · omega
  · exact absurd hsize hother
  · have hread : behave true (Prog.readAll (sizeof T) : Prog σ ε _) state input =
        ⟨[], [], 1, state, .finished none []⟩ := behave_readAll_eof state hshort
    simp only [behave_run_bind, behave_run_lift, hread, Behaviour.andThen_finished,
      Behaviour.after_andThen]
    rfl

/-- The nodes `send` passes. -/
def sendCost (T : Type) [WireType T] : ℕ := if emptyReq T then 1 else 2

/-- `send` writes one frame. -/
@[simp] theorem behave_send_frame (id : ApiId) (payload : T) (input : Bytes) :
    behave eof ((send id payload : EngineM σ ε Bool).run error) state input =
      ⟨frame id (wireBytes payload), [], sendCost T, state, .finished (true, error) input⟩ := by
  unfold send sendCost frame wireBytes
  split_ifs with hempty
  · simp [sendEmpty, Behaviour.after]
  · simp only [behave_run_bind, behave_run_lift, behave_writeAll, Behaviour.andThen_finished,
      Behaviour.after_andThen, length_toBytes, if_true]
    simp [Behaviour.after]

/-- The frame that reports an error. -/
def errorFrame (code : ErrorCode) : Bytes :=
  frame ApiId.error (wireBytes (⟨toLe32 code.code⟩ : ErrorResp))

@[simp] theorem behave_sendError (code : ErrorCode) (input : Bytes) :
    behave eof ((sendError code : EngineM σ ε Bool).run error) state input =
      ⟨errorFrame code, [], 2, state, .finished (true, error) input⟩ :=
  behave_send_frame eof state error ApiId.error _ input

/-- `discard_payload` takes exactly `size` bytes. -/
theorem behave_discardPayload (size : UInt32) {payload : Bytes} (rest : Bytes)
    (hpayload : payload.length = size.toNat) :
    ∃ cost, behave eof (discardPayload size : Prog σ ε Bool) state (payload ++ rest) =
      ⟨[], [], cost, state, .finished true rest⟩ := by
  induction size using discardPayload.induct generalizing payload with
  | case1 =>
    have hnil : payload = [] := List.length_eq_zero_iff.mp hpayload
    subst hnil
    exact ⟨0, by simp [discardPayload]⟩
  | case2 size hsize ih =>
    have hle := UInt32.le_iff_toNat_le.mp (discardChunk_le size)
    have hfirst : (payload.take (discardChunk size).toNat).length = (discardChunk size).toNat := by
      rw [List.length_take, hpayload]
      exact Nat.min_eq_left hle
    have hsecond : (payload.drop (discardChunk size).toNat).length =
        (size - discardChunk size).toNat := by
      rw [List.length_drop, hpayload, toNat_sub_discardChunk]
    obtain ⟨cost, hcost⟩ := ih hsecond
    refine ⟨1 + cost, ?_⟩
    rw [discardPayload, dif_neg hsize]
    conv_lhs => rw [← List.take_append_drop (discardChunk size).toNat payload, List.append_assoc]
    rw [behave_recv_append eof state _ _ hfirst]
    simp only [hcost]
    rfl

/-- `discard_payload` fails on a stream that ends too early. -/
theorem behave_discardPayload_eof (size : UInt32) {input : Bytes}
    (hshort : input.length < size.toNat) :
    ∃ cost, behave true (discardPayload size : Prog σ ε Bool) state input =
      ⟨[], [], cost, state, .finished false []⟩ := by
  induction size using discardPayload.induct generalizing input with
  | case1 => exact absurd hshort (Nat.not_lt_zero _)
  | case2 size hsize ih =>
    rw [discardPayload, dif_neg hsize]
    by_cases hchunk : input.length < (discardChunk size).toNat
    · exact ⟨1, by rw [behave_recv_eof state _ hchunk]; rfl⟩
    · have hfirst : (input.take (discardChunk size).toNat).length =
          (discardChunk size).toNat := by
        rw [List.length_take]
        omega
      have hsecond : (input.drop (discardChunk size).toNat).length <
          (size - discardChunk size).toNat := by
        rw [List.length_drop, toNat_sub_discardChunk]
        omega
      obtain ⟨cost, hcost⟩ := ih hsecond
      refine ⟨1 + cost, ?_⟩
      conv_lhs => rw [← List.take_append_drop (discardChunk size).toNat input]
      rw [behave_recv_append true state _ _ hfirst]
      simp only [hcost]
      rfl

/-! `call`, by the header of the reply. -/

/-- `call` writes the request and goes on to the reply. -/
theorem behave_call (d : RpcDesc) (request : d.Req) (input : Bytes) :
    behave eof ((call d request : EngineM σ ε _).run error) state input =
      (behave eof ((callReply d : EngineM σ ε _).run error) state input).after
        (frame d.id (wireBytes request)) [] (sendCost d.Req) := by
  simp only [call, behave_run_bind, behave_send_frame, Behaviour.andThen_finished, Bool.not_true,
    Bool.false_eq_true, if_false]

/-- The reply that `receive_header` accepts, from its header on. -/
theorem behave_callReply_header {d : RpcDesc} {id : ApiId} {size : UInt32} (rest : Bytes)
    (hsize : size ≤ kMaxPayload) :
    behave eof ((callReply d : EngineM σ ε _).run error) state
        (headerBytes kMagic id size ++ rest) =
      (behave eof ((if id = ApiId.error then do
          let _ ← receivePayload ErrorResp ⟨id, size⟩
          return none
        else if id ≠ d.id then do
          let _ ← EngineM.lift (discardPayload size)
          return none
        else receivePayload d.Resp ⟨id, size⟩ : EngineM σ ε _).run .none) state rest).after
        [] [] 1 := by
  simp only [callReply, behave_run_bind, behave_receiveHeader, headerVerdict_of_le id hsize,
    Behaviour.andThen_finished]

/-- A reply with the call's own id and the size of its response type. -/
theorem behave_callReply_response {d : RpcDesc} {payload : Bytes} (rest : Bytes)
    (hid : d.id ≠ ApiId.error) (hpayload : payload.length = wireSize d.Resp) :
    behave eof ((callReply d : EngineM σ ε _).run error) state (frame d.id payload ++ rest) =
      ⟨[], [], 1 + payloadCost d.Resp, state,
        .finished (some (ofWire d.Resp payload), .none) rest⟩ := by
  have hle : payload.length ≤ kMaxPayload.toNat := hpayload ▸ wireSize_le
  rw [frame, List.append_assoc, behave_callReply_header eof state error _ (ofNat_le_kMaxPayload hle),
    if_neg hid, if_neg (not_not.mpr rfl),
    behave_receivePayload eof state .none rest ((toNat_ofNat_of_le hle).trans hpayload) hpayload]
  simp [Behaviour.after]

/-- A reply with the call's own id and another size: its payload stays unread. -/
theorem behave_callReply_mismatch {d : RpcDesc} {payload : Bytes} (rest : Bytes)
    (hid : d.id ≠ ApiId.error) (hle : payload.length ≤ kMaxPayload.toNat)
    (hpayload : payload.length ≠ wireSize d.Resp) :
    behave eof ((callReply d : EngineM σ ε _).run error) state (frame d.id payload ++ rest) =
      ⟨[], [], 1, state, .finished (none, .payloadMismatch) (payload ++ rest)⟩ := by
  have hsize : (UInt32.ofNat payload.length).toNat ≠ wireSize d.Resp := by
    rwa [toNat_ofNat_of_le hle]
  rw [frame, List.append_assoc, behave_callReply_header eof state error _ (ofNat_le_kMaxPayload hle),
    if_neg hid, if_neg (not_not.mpr rfl), behave_receivePayload_mismatch eof state .none _ hsize]
  rfl

/-- A reply with the id of an error and the size of an error code. -/
theorem behave_callReply_error {d : RpcDesc} {payload : Bytes} (rest : Bytes)
    (hpayload : payload.length = wireSize ErrorResp) :
    behave eof ((callReply d : EngineM σ ε _).run error) state
        (frame ApiId.error payload ++ rest) =
      ⟨[], [], 2, state, .finished (none, .none) rest⟩ := by
  have hle : payload.length ≤ kMaxPayload.toNat := hpayload ▸ wireSize_le
  rw [frame, List.append_assoc, behave_callReply_header eof state error _ (ofNat_le_kMaxPayload hle),
    if_pos rfl, behave_run_bind,
    behave_receivePayload eof state .none rest ((toNat_ofNat_of_le hle).trans hpayload) hpayload]
  rfl

/-- A reply with the id of an error and another size: its payload stays unread. -/
theorem behave_callReply_error_mismatch {d : RpcDesc} {payload : Bytes} (rest : Bytes)
    (hle : payload.length ≤ kMaxPayload.toNat) (hpayload : payload.length ≠ wireSize ErrorResp) :
    behave eof ((callReply d : EngineM σ ε _).run error) state
        (frame ApiId.error payload ++ rest) =
      ⟨[], [], 1, state, .finished (none, .payloadMismatch) (payload ++ rest)⟩ := by
  have hsize : (UInt32.ofNat payload.length).toNat ≠ wireSize ErrorResp := by
    rwa [toNat_ofNat_of_le hle]
  rw [frame, List.append_assoc, behave_callReply_header eof state error _ (ofNat_le_kMaxPayload hle),
    if_pos rfl, behave_run_bind, behave_receivePayload_mismatch eof state .none _ hsize]
  rfl

/-- A reply with a foreign id is discarded, payload included. -/
theorem behave_callReply_foreign {d : RpcDesc} {id : ApiId} {payload : Bytes} (rest : Bytes)
    (herror : id ≠ ApiId.error) (hid : id ≠ d.id) (hle : payload.length ≤ kMaxPayload.toNat) :
    ∃ cost, behave eof ((callReply d : EngineM σ ε _).run error) state
        (frame id payload ++ rest) =
      ⟨[], [], cost, state, .finished (none, .none) rest⟩ := by
  obtain ⟨cost, hdiscard⟩ := behave_discardPayload (ε := ε) eof state
    (UInt32.ofNat payload.length) rest (toNat_ofNat_of_le hle).symm
  refine ⟨1 + cost, ?_⟩
  rw [frame, List.append_assoc, behave_callReply_header eof state error _ (ofNat_le_kMaxPayload hle),
    if_neg herror, if_pos hid]
  simp only [behave_run_bind, behave_run_lift, hdiscard, Behaviour.andThen_finished,
    behave_run_pure, Behaviour.after_andThen]
  simp [Behaviour.after]

/-! `invoke_one`, by the header it is given. -/

theorem behave_invokeOne_noMatch {handler : Handler σ ServerMark} {header : FrameHeader}
    (input : Bytes) (hid : header.id ≠ handler.desc.id) :
    behave eof ((invokeOne handler header).run error) state input =
      ⟨[], [], 0, state, .finished (.noMatch, error) input⟩ := by
  rw [invokeOne, if_pos hid]
  rfl

/-- A request of the right size is handed to the handler's function, and its response is sent.
Assumes: the function neither reads nor writes the stream and returns. -/
theorem behave_invokeOne_handled {handler : Handler σ ServerMark} {header : FrameHeader}
    {payload rest : Bytes} {cost : ℕ} {after : σ} {response : handler.desc.Resp}
    (hid : header.id = handler.desc.id) (hsize : header.size.toNat = wireSize handler.desc.Req)
    (hpayload : payload.length = wireSize handler.desc.Req)
    (hserve : behave eof (handler.function (ofWire handler.desc.Req payload)) state rest =
      ⟨[], [], cost, after, .finished response rest⟩) :
    ∃ nodes, behave eof ((invokeOne handler header).run error) state (payload ++ rest) =
      ⟨frame handler.desc.id (wireBytes response),
        [.invoked handler.desc.id payload, .responded handler.desc.id (wireBytes response) true],
        nodes, after, .finished (.handled, error) rest⟩ := by
  have hrequest := behave_receivePayload (ε := ServerMark) eof state error rest hsize hpayload
  refine ⟨payloadCost handler.desc.Req + (1 + (cost + (sendCost handler.desc.Resp + 1))), ?_⟩
  rw [invokeOne, if_neg (not_not.mpr hid)]
  simp only [behave_run_bind, hrequest, Behaviour.andThen_finished, behave_run_lift, behave_mark,
    hserve, behave_send_frame, Behaviour.after_andThen, wireBytes_ofWire hpayload, behave_run_pure]
  simp [Behaviour.after]

/-- A request of another size is answered by an error frame, and nothing more is read. -/
theorem behave_invokeOne_mismatch {handler : Handler σ ServerMark} {header : FrameHeader}
    (input : Bytes) (hid : header.id = handler.desc.id)
    (hsize : header.size.toNat ≠ wireSize handler.desc.Req) :
    behave eof ((invokeOne handler header).run error) state input =
      ⟨errorFrame .payloadMismatch, [], 2, state, .finished (.failed, .payloadMismatch) input⟩ := by
  have hrequest := behave_receivePayload_mismatch (ε := ServerMark) eof state error input hsize
  rw [invokeOne, if_neg (not_not.mpr hid)]
  simp only [behave_run_bind, hrequest, Behaviour.andThen_finished, behave_run_get,
    ne_eq, reduceCtorEq, not_false_eq_true, if_true, behave_sendError, behave_run_pure]
  simp [Behaviour.after]

/-- A stream that ends inside a request is answered by nothing. -/
theorem behave_invokeOne_eof {handler : Handler σ ServerMark} {header : FrameHeader}
    {input : Bytes} (hid : header.id = handler.desc.id)
    (hsize : header.size.toNat = wireSize handler.desc.Req)
    (hshort : input.length < wireSize handler.desc.Req) :
    behave true ((invokeOne handler header).run .none) state input =
      ⟨[], [], 1, state, .finished (.failed, .none) []⟩ := by
  have hrequest := behave_receivePayload_eof (ε := ServerMark) state .none hsize hshort
  rw [invokeOne, if_neg (not_not.mpr hid)]
  simp only [behave_run_bind, hrequest, Behaviour.andThen_finished, behave_run_get,
    ne_eq, not_true_eq_false, if_false, behave_run_pure]
  simp [Behaviour.after]

end Specifications

/-! ### The machine is left alone -/

section Silent

variable {σ ε α β : Type}

theorem silent_run_bind {first : EngineM σ ε α} {next : α → EngineM σ ε β} {error : ErrorCode}
    (hfirst : (first.run error).Silent) (hnext : ∀ value error, ((next value).run error).Silent) :
    ((first >>= next).run error).Silent := by
  rw [StateT.run_bind]
  exact hfirst.bind fun result ↦ hnext result.1 result.2

theorem silent_receiveHeader (error : ErrorCode) :
    ((receiveHeader : EngineM σ ε _).run error).Silent := by
  refine silent_run_bind trivial fun _ _ ↦ silent_run_bind (fun _ ↦ trivial) fun bytes error ↦ ?_
  cases bytes with
  | none => trivial
  | some bytes =>
    simp only
    split_ifs <;> trivial

theorem silent_receivePayload (T : Type) [WireType T] (header : FrameHeader) (error : ErrorCode) :
    ((receivePayload T header : EngineM σ ε _).run error).Silent := by
  unfold receivePayload
  split_ifs
  · trivial
  · trivial
  · trivial
  · refine silent_run_bind (fun _ ↦ trivial) fun bytes error ↦ ?_
    cases bytes <;> trivial

theorem silent_send {T : Type} [WireType T] (id : ApiId) (payload : T) (error : ErrorCode) :
    ((send id payload : EngineM σ ε Bool).run error).Silent := by
  unfold send
  split_ifs
  · exact fun _ ↦ trivial
  · refine silent_run_bind (fun _ ↦ trivial) fun sent error ↦ ?_
    cases sent with
    | false => trivial
    | true => exact fun _ ↦ trivial

theorem silent_discardPayload (size : UInt32) : (discardPayload size : Prog σ ε Bool).Silent := by
  induction size using discardPayload.induct with
  | case1 =>
    rw [discardPayload, dif_pos rfl]
    trivial
  | case2 size hsize ih =>
    rw [discardPayload, dif_neg hsize]
    intro bytes
    cases bytes with
    | none => trivial
    | some bytes => exact ih

theorem silent_call (d : RpcDesc) (request : d.Req) (error : ErrorCode) :
    ((call d request : EngineM σ ε _).run error).Silent := by
  refine silent_run_bind (silent_send d.id request error) fun sent error ↦ ?_
  cases sent with
  | false => trivial
  | true =>
    refine silent_run_bind (silent_receiveHeader error) fun header error ↦ ?_
    cases header with
    | none => trivial
    | some header =>
      simp only
      split_ifs
      · exact silent_run_bind (silent_receivePayload ErrorResp header error) fun _ _ ↦ trivial
      · refine silent_run_bind ?_ fun _ _ ↦ trivial
        exact (silent_discardPayload header.size).bind fun _ ↦ trivial
      · exact silent_receivePayload d.Resp header error

end Silent

end ZigbeeRemote.Rpc
