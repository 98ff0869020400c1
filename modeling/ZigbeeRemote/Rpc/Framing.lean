import ZigbeeRemote.Rpc.Engine
import ZigbeeRemote.Rpc.Transfer

/-!
# Frames on a fragmented stream

The engine on descriptors whose reads and writes are cut and interrupted in any way.

`framing_round_trip`: what `send` writes for a list of messages is the concatenation of their
frames, and `receive_header` followed by `receive_payload` takes the same messages off the stream
again, and nothing else.

`call_consumes_reply_iff`: a call that has been answered by a well-formed frame leaves the stream at
the next frame exactly when the frame is of a kind whose payload `call` reads or discards. A reply
with the id of the call or of an error and a size that is not the expected one is rejected before
its payload is read, so a payload of that kind stays on the stream.

Where the descriptor may fail as well, `execute_call` says what can still be relied on: a response
that a call returns came in a complete frame.
-/

set_option autoImplicit false
set_option relaxedAutoImplicit false

namespace ZigbeeRemote.Rpc

open Foundation WireType

/-! ### Sending and receiving a list of messages -/

/-- A payload type of the protocol. -/
structure PayloadType where
  Payload : Type
  [wire : WireType Payload]

/-- A message: an id and a payload of some type. -/
structure Message extends PayloadType where
  id : ApiId
  payload : Payload

attribute [instance] PayloadType.wire

namespace Message

/-- The bytes of the payload, none for `EmptyReq`. -/
def bytes (message : Message) : Bytes := wireBytes message.payload

/-- The bytes of a message on the stream: a little-endian header of twelve bytes, then the payload. -/
def frame (message : Message) : Bytes := Rpc.frame message.id message.bytes

end Message

section Messages

variable {σ ε : Type}

/-- Send messages with `Engine::send`, up to the first that cannot be sent. -/
def sendMessages : List Message → EngineM σ ε Bool
  | [] => return true
  | message :: messages => do
    if ← send message.id message.payload then
      sendMessages messages
    else
      return false

/-- Receive one message of each type with `receive_header` and `receive_payload`. -/
def receiveMessages : List PayloadType → EngineM σ ε (Option (List (ApiId × Bytes)))
  | [] => return some []
  | type :: types => do
    match ← receiveHeader with
    | none => return none
    | some header =>
      match ← receivePayload type.Payload header with
      | none => return none
      | some payload =>
        match ← receiveMessages types with
        | none => return none
        | some messages => return some ((header.id, wireBytes payload) :: messages)

variable (eof : Bool) (state : σ) (error : ErrorCode)

theorem behave_sendMessages (messages : List Message) (input : Bytes) :
    ∃ cost, behave eof ((sendMessages messages : EngineM σ ε Bool).run error) state input =
      ⟨messages.flatMap Message.frame, [], cost, state, .finished (true, error) input⟩ := by
  induction messages with
  | nil => exact ⟨0, rfl⟩
  | cons message messages ih =>
    obtain ⟨cost, hrest⟩ := ih
    refine ⟨sendCost message.Payload + cost, ?_⟩
    simp only [sendMessages, behave_run_bind, behave_send_frame, Behaviour.andThen_finished,
      if_true, hrest]
    rfl

theorem behave_receiveMessages (messages : List Message) (rest : Bytes) :
    ∃ cost after, behave eof
        ((receiveMessages (messages.map Message.toPayloadType) : EngineM σ ε _).run error) state
        (messages.flatMap Message.frame ++ rest) =
      ⟨[], [], cost, state,
        .finished (some (messages.map fun message ↦ (message.id, message.bytes)), after) rest⟩ := by
  induction messages generalizing error with
  | nil => exact ⟨0, error, rfl⟩
  | cons message messages ih =>
    obtain ⟨cost, after, hmore⟩ := ih .none
    have hlength : message.bytes.length = wireSize message.Payload := length_wireBytes _
    have hle : message.bytes.length ≤ kMaxPayload.toNat := hlength ▸ wireSize_le
    have hsize : (⟨message.id, UInt32.ofNat message.bytes.length⟩ : FrameHeader).size.toNat =
        wireSize message.Payload := (toNat_ofNat_of_le hle).trans hlength
    have hpayload := behave_receivePayload (ε := ε) eof state .none
      (messages.flatMap Message.frame ++ rest) hsize hlength
    have hvalue : ofWire message.Payload message.bytes = message.payload := ofWire_wireBytes _
    refine ⟨1 + (payloadCost message.Payload + cost), after, ?_⟩
    rw [List.flatMap_cons, List.append_assoc, Message.frame, frame, List.append_assoc]
    simp only [List.map_cons, receiveMessages, behave_run_bind, behave_receiveHeader,
      headerVerdict_of_le _ (ofNat_le_kMaxPayload hle), Behaviour.andThen_finished, hpayload, hvalue,
      hmore, behave_run_pure]
    simp [Behaviour.after, Message.bytes]

end Messages

/-- Send messages with a new engine on a descriptor whose writes follow the schedule. -/
def sendOn (writes : Schedule) (messages : List Message) : Executed Unit Empty (Bool × ErrorCode) :=
  execute ((sendMessages messages).run .none) () (.writing writes)

/-- Receive messages with a new engine on a descriptor that holds given bytes and whose reads follow
the schedule. -/
def receiveOn (reads : Schedule) (incoming : Bytes) (types : List PayloadType) :
    Executed Unit Empty (Option (List (ApiId × Bytes)) × ErrorCode) :=
  execute ((receiveMessages types).run .none) () (.reading incoming reads)

/-- Messages survive any fragmentation: all sends succeed and write the frames of the messages one
after the other, whatever the schedule; receiving them gives back the ids and payloads, and what
follows them on the stream stays there. Assumes: schedules with short counts and finitely many
interruptions, and no failure. -/
theorem framing_round_trip (messages : List Message) {writes reads : Schedule}
    (hwrites : writes.Clean) (hreads : reads.Clean) (extra : Bytes) :
    (sendOn writes messages).value.1 = true ∧
      (sendOn writes messages).fd.sent = messages.flatMap Message.frame ∧
      (receiveOn reads ((sendOn writes messages).fd.sent ++ extra)
          (messages.map Message.toPayloadType)).value.1 =
        some (messages.map fun message ↦ (message.id, message.bytes)) ∧
      (receiveOn reads ((sendOn writes messages).fd.sent ++ extra)
          (messages.map Message.toPayloadType)).fd.incoming = extra := by
  have hsent : (sendOn writes messages).value.1 = true ∧
      (sendOn writes messages).fd.sent = messages.flatMap Message.frame := by
    obtain ⟨cost, hbehave⟩ :=
      behave_sendMessages (ε := Empty) true () .none messages (Descriptor.writing writes).incoming
    obtain ⟨value, rest, after, hending, hexecute, -, hout, -⟩ :=
      execute_clean ((sendMessages messages).run .none) () (.writing writes)
        ⟨Schedule.steady_clean, hwrites⟩
    rw [hbehave] at hending hexecute hout
    obtain ⟨rfl, rfl⟩ := Ending.finished.inj hending
    rw [sendOn, hexecute]
    exact ⟨rfl, hout⟩
  rw [hsent.2]
  obtain ⟨cost, error, hbehave⟩ := behave_receiveMessages (ε := Empty) true () .none messages extra
  obtain ⟨value, rest, after, hending, hexecute, hleft, -, -⟩ :=
    execute_clean ((receiveMessages (messages.map Message.toPayloadType)).run .none) ()
      (.reading (messages.flatMap Message.frame ++ extra) reads) ⟨hreads, Schedule.steady_clean⟩
  rw [Descriptor.reading, hbehave] at hending hexecute
  obtain ⟨rfl, rfl⟩ := Ending.finished.inj hending
  rw [receiveOn, Descriptor.reading, hexecute]
  exact ⟨hsent.1, rfl, rfl, hleft⟩

/-- Two messages, one of them without payload, written and read one byte at a time with an
interruption before each of the first calls. -/
theorem framing_round_trip_interrupted :
    (Schedule.interruptedOnce).Clean ∧
      (receiveOn .interruptedOnce
          ((sendOn .interruptedOnce
            [⟨⟨EmptyReq⟩, 3, ⟨⟩⟩, ⟨⟨U8Resp⟩, 0xFFFFFFFF, ⟨7⟩⟩]).fd.sent ++ [1, 2])
          [⟨EmptyReq⟩, ⟨U8Resp⟩]).value.1 = some [(3, []), (0xFFFFFFFF, [7])] :=
  ⟨Schedule.interruptedOnce_clean,
    (framing_round_trip [⟨⟨EmptyReq⟩, 3, ⟨⟩⟩, ⟨⟨U8Resp⟩, 0xFFFFFFFF, ⟨7⟩⟩]
      Schedule.interruptedOnce_clean Schedule.interruptedOnce_clean [1, 2]).2.2.1⟩

/-! ### What a call takes from the stream -/

/-- Perform a call with a new engine on a descriptor. -/
def callOn (d : RpcDesc) (request : d.Req) (fd : Descriptor) :
    Executed Unit Empty (Option d.Resp × ErrorCode) :=
  execute ((call d request).run .none) () fd

theorem callOn_incoming {d : RpcDesc} (request : d.Req) {fd : Descriptor} {input rest : Bytes}
    {cost : ℕ} {value : Option d.Resp × ErrorCode} (hclean : fd.Clean)
    (hincoming : fd.incoming = input)
    (hreply : behave true ((callReply d : EngineM Unit Empty _).run .none) () input =
      ⟨[], [], cost, (), .finished value rest⟩) :
    (callOn d request fd).fd.incoming = rest := by
  obtain ⟨other, left, after, hending, hexecute, hleft, -, -⟩ :=
    execute_clean ((call d request).run .none : Prog Unit Empty _) () fd hclean
  rw [hincoming, behave_call, hreply] at hending hexecute
  obtain ⟨rfl, rfl⟩ := Ending.finished.inj hending
  rw [callOn, hexecute]
  exact hleft

/-- The replies whose payload `call` takes off the stream: no payload at all, an error frame with
the size of an error code, a response with the size of the response type, or any frame with a
foreign id. -/
def Disposes (d : RpcDesc) (id : ApiId) (payload : Bytes) : Prop :=
  payload = [] ∨ (id = ApiId.error ∧ payload.length = wireSize ErrorResp) ∨
    (id = d.id ∧ payload.length = wireSize d.Resp) ∨ (id ≠ ApiId.error ∧ id ≠ d.id)

/-- A call that is answered by a well-formed frame consumes exactly that frame if and only if the
frame is of a kind whose payload it reads or discards. -/
theorem call_consumes_reply_iff (api : Api) (request : (desc api).Req) (id : ApiId)
    (payload extra : Bytes) (hpayload : payload.length ≤ kMaxPayload.toNat) {fd : Descriptor}
    (hclean : fd.Clean) (hincoming : fd.incoming = frame id payload ++ extra) :
    (callOn (desc api) request fd).fd.incoming = extra ↔ Disposes (desc api) id payload := by
  have hown : (desc api).id ≠ ApiId.error := by
    rw [desc_id]
    exact api.id_ne_error
  -- A payload left unread is what the next call would take for a header.
  have hunread : payload ++ extra = extra ↔ payload = [] := by
    rw [List.append_left_eq_self]
  by_cases herror : id = ApiId.error
  · subst herror
    by_cases hsize : payload.length = wireSize ErrorResp
    · have hleft := callOn_incoming request hclean hincoming
        (behave_callReply_error true () .none extra hsize)
      exact iff_of_true hleft (Or.inr (Or.inl ⟨rfl, hsize⟩))
    · have hleft := callOn_incoming request hclean hincoming
        (behave_callReply_error_mismatch true () .none extra hpayload hsize)
      rw [hleft, hunread]
      constructor
      · exact Or.inl
      · rintro (hnil | ⟨-, hother⟩ | ⟨hother, -⟩ | ⟨hother, -⟩)
        · exact hnil
        · exact absurd hother hsize
        · exact absurd hother.symm hown
        · exact absurd rfl hother
  · by_cases hid : id = (desc api).id
    · subst hid
      by_cases hsize : payload.length = wireSize (desc api).Resp
      · have hleft := callOn_incoming request hclean hincoming
          (behave_callReply_response true () .none extra hown hsize)
        exact iff_of_true hleft (Or.inr (Or.inr (Or.inl ⟨rfl, hsize⟩)))
      · have hleft := callOn_incoming request hclean hincoming
          (behave_callReply_mismatch true () .none extra hown hpayload hsize)
        rw [hleft, hunread]
        constructor
        · exact Or.inl
        · rintro (hnil | ⟨hother, -⟩ | ⟨-, hother⟩ | ⟨-, hother⟩)
          · exact hnil
          · exact absurd hother hown
          · exact absurd hother hsize
          · exact absurd rfl hother
    · obtain ⟨cost, hreply⟩ :=
        behave_callReply_foreign (ε := Empty) true () .none extra herror hid hpayload
      have hleft := callOn_incoming request hclean hincoming hreply
      exact iff_of_true hleft (Or.inr (Or.inr (Or.inr ⟨herror, hid⟩)))

/-- A response of the right size, received one byte at a time, leaves the next frame. -/
theorem call_consumes_short_addr_response :
    (callOn (desc .getShortAddr) ⟨⟩
        (.reading (frame (Api.id .getShortAddr) [0x56, 0x19] ++ frame 2 [0, 0]) .steady)).fd.incoming =
      frame 2 [0, 0] :=
  (call_consumes_reply_iff .getShortAddr ⟨⟩ (Api.id .getShortAddr) [0x56, 0x19] (frame 2 [0, 0])
    (by decide) ⟨Schedule.steady_clean, Schedule.steady_clean⟩ rfl).mpr
    (Or.inr (Or.inr (Or.inl ⟨rfl, rfl⟩)))

/-- A response to `get_short_addr` that announces four bytes instead of two is rejected, and the
four bytes are what the next call reads first. -/
theorem call_leaves_mismatched_payload :
    ¬ ∀ (api : Api) (request : (desc api).Req) (id : ApiId) (payload extra : Bytes)
        (fd : Descriptor), payload.length ≤ kMaxPayload.toNat → fd.Clean →
        fd.incoming = frame id payload ++ extra →
        (callOn (desc api) request fd).fd.incoming = extra := by
  intro hclaim
  have hclean : (Descriptor.reading (frame (Api.id .getShortAddr) [1, 2, 3, 4] ++ frame 2 [0, 0])
      .steady).Clean := ⟨Schedule.steady_clean, Schedule.steady_clean⟩
  have haligned := hclaim .getShortAddr ⟨⟩ (Api.id .getShortAddr) [1, 2, 3, 4] (frame 2 [0, 0]) _
    (by decide) hclean rfl
  have hleft := callOn_incoming (d := desc .getShortAddr) ⟨⟩ hclean rfl
    (behave_callReply_mismatch (d := desc .getShortAddr) true () .none (frame 2 [0, 0])
      (by decide) (by decide) (by decide))
  rw [hleft] at haligned
  exact absurd haligned (by decide)

/-! ### What a call that succeeds has received

The descriptor may do anything here. The engine's functions leave the state of the machine alone and
no marks behind, and what they return was at the front of the stream. -/

section Received

variable {σ ε α β : Type} (state : σ) (error : ErrorCode) (fd : Descriptor)

theorem execute_run_bind (first : EngineM σ ε α) (next : α → EngineM σ ε β) :
    execute ((first >>= next).run error) state fd =
      (execute ((next (execute (first.run error) state fd).value.1).run
          (execute (first.run error) state fd).value.2) (execute (first.run error) state fd).state
        (execute (first.run error) state fd).fd).after (execute (first.run error) state fd).marks := by
  rw [StateT.run_bind, Prog.bind_eq_bind, execute_bind]

theorem execute_run_readAll (size : ℕ) :
    execute ((EngineM.lift (.readAll size) : EngineM σ ε _).run error) state fd =
      ⟨((readAll fd size).1, error), state, [], (readAll fd size).2⟩ := rfl

theorem execute_run_writeAll (bytes : Bytes) :
    execute ((EngineM.lift (.writeAll bytes) : EngineM σ ε _).run error) state fd =
      ⟨((writeAll fd bytes).1, error), state, [], (writeAll fd bytes).2⟩ := rfl

theorem execute_receiveHeader :
    ∃ result code after,
      execute ((receiveHeader : EngineM σ ε _).run error) state fd =
        ⟨(result, code), state, [], after⟩ ∧
      ∀ header, result = some header →
        fd.incoming = headerBytes kMagic header.id header.size ++ after.incoming := by
  have hset : execute ((set ErrorCode.none : EngineM σ ε PUnit).run error) state fd =
      ⟨(⟨⟩, .none), state, [], fd⟩ := rfl
  rw [receiveHeader, execute_run_bind, hset, execute_run_bind]
  simp only [execute_run_readAll state ErrorCode.none fd (Packed.size WireHeader)]
  match hread : (readAll fd (Packed.size WireHeader)).1 with
  | none => exact ⟨none, _, _, rfl, fun _ hnone ↦ by cases hnone⟩
  | some bytes =>
    obtain ⟨hfront, hlength⟩ := readAll_some fd (Packed.size WireHeader) hread
    obtain ⟨magic, id, size, rfl⟩ := exists_headerBytes hlength
    have hwire : (Packed.ofBytes (headerBytes magic id size) : WireHeader) =
        ⟨toLe32 magic, toLe32 id, toLe32 size⟩ := Packed.ofBytes_toBytes _
    simp only [hwire, fromLe32_toLe32]
    split_ifs with hmagic hsize
    · exact ⟨none, _, _, rfl, fun _ hnone ↦ by cases hnone⟩
    · exact ⟨none, _, _, rfl, fun _ hnone ↦ by cases hnone⟩
    · refine ⟨some ⟨id, size⟩, _, _, rfl, fun header hheader ↦ ?_⟩
      cases hheader
      rw [not_not.mp hmagic] at hfront
      exact hfront

theorem execute_receivePayload (T : Type) [WireType T] (header : FrameHeader) :
    ∃ result code after,
      execute ((receivePayload T header : EngineM σ ε _).run error) state fd =
        ⟨(result, code), state, [], after⟩ ∧
      ∀ value, result = some value →
        header.size.toNat = wireSize T ∧ fd.incoming = wireBytes value ++ after.incoming := by
  unfold receivePayload wireSize
  split_ifs with hempty hzero hsize
  · exact ⟨none, _, fd, rfl, fun _ hnone ↦ by cases hnone⟩
  · refine ⟨some (init T), error, fd, rfl, fun value _ ↦ ⟨?_, ?_⟩⟩
    · rw [not_not.mp hzero]
      rfl
    · rw [wireBytes, if_pos hempty, List.nil_append]
  · exact ⟨none, _, fd, rfl, fun _ hnone ↦ by cases hnone⟩
  · rw [execute_run_bind, execute_run_readAll]
    match hread : (readAll fd (sizeof T)).1 with
    | none => exact ⟨none, error, _, rfl, fun _ hnone ↦ by cases hnone⟩
    | some bytes =>
      obtain ⟨hincoming, hlength⟩ := readAll_some fd (sizeof T) hread
      refine ⟨some (ofBytes bytes), error, _, rfl, fun value hvalue ↦ ⟨not_not.mp hsize, ?_⟩⟩
      cases hvalue
      rw [wireBytes, if_neg hempty, toBytes_ofBytes (by simpa using hempty) bytes hlength]
      exact hincoming

theorem execute_send {T : Type} [WireType T] (id : ApiId) (payload : T) :
    ∃ sent after, execute ((send id payload : EngineM σ ε Bool).run error) state fd =
      ⟨(sent, error), state, [], after⟩ ∧ after.incoming = fd.incoming := by
  unfold send
  split_ifs with hempty
  · exact ⟨_, _, rfl, writeAll_incoming _ _⟩
  · rw [execute_run_bind, execute_run_writeAll]
    cases (writeAll fd (headerBytes kMagic id (UInt32.ofNat (sizeof T)))).1 with
    | false => exact ⟨false, _, rfl, writeAll_incoming _ _⟩
    | true => exact ⟨_, _, rfl, (writeAll_incoming _ _).trans (writeAll_incoming _ _)⟩

theorem execute_discardPayload (size : UInt32) :
    ∃ discarded after, execute (discardPayload size : Prog σ ε Bool) state fd =
      ⟨discarded, state, [], after⟩ := by
  induction size using discardPayload.induct generalizing fd with
  | case1 =>
    rw [discardPayload, dif_pos rfl]
    exact ⟨true, fd, rfl⟩
  | case2 size hsize ih =>
    rw [discardPayload, dif_neg hsize, execute]
    cases (readAll fd (discardChunk size).toNat).1 with
    | none => exact ⟨false, _, rfl⟩
    | some bytes => exact ih _

theorem execute_callReply (d : RpcDesc) :
    ∃ result code after,
      execute ((callReply d : EngineM σ ε _).run error) state fd =
        ⟨(result, code), state, [], after⟩ ∧
      ∀ response, result = some response →
        fd.incoming = frame d.id (wireBytes response) ++ after.incoming := by
  obtain ⟨result, code, later, hheader, hfront⟩ := execute_receiveHeader (ε := ε) state error fd
  rw [callReply, execute_run_bind, hheader]
  cases result with
  | none => exact ⟨none, code, later, rfl, fun _ hnone ↦ by cases hnone⟩
  | some header =>
    simp only
    split_ifs with herror hother
    · obtain ⟨refused, code, after, hrefused, -⟩ :=
        execute_receivePayload (ε := ε) state code later ErrorResp header
      rw [execute_run_bind, hrefused]
      exact ⟨none, code, after, rfl, fun _ hnone ↦ by cases hnone⟩
    · obtain ⟨discarded, after, hdiscarded⟩ := execute_discardPayload (ε := ε) state later header.size
      have hlift : execute ((EngineM.lift (discardPayload header.size) : EngineM σ ε _).run code)
          state later = ⟨(discarded, code), state, [], after⟩ := by
        show execute ((discardPayload header.size).bind fun value ↦ .done (value, code)) state later = _
        rw [execute_bind, hdiscarded]
        rfl
      rw [execute_run_bind, hlift]
      exact ⟨none, code, after, rfl, fun _ hnone ↦ by cases hnone⟩
    · obtain ⟨answer, code, after, hanswer, hpayload⟩ :=
        execute_receivePayload (ε := ε) state code later d.Resp header
      rw [hanswer]
      refine ⟨answer, code, after, rfl, fun response hresponse ↦ ?_⟩
      obtain ⟨hsize, hrest⟩ := hpayload response hresponse
      have hsame : UInt32.ofNat (wireBytes response).length = header.size := by
        rw [length_wireBytes, ← hsize, UInt32.ofNat_toNat]
      rw [hfront header rfl, hrest, frame, hsame, ← not_not.mp hother, List.append_assoc]

/-- A call touches its descriptor only, and a response it returns came in a complete frame with its
id. -/
theorem execute_call (d : RpcDesc) (request : d.Req) :
    ∃ result code after,
      execute ((call d request : EngineM σ ε _).run error) state fd =
        ⟨(result, code), state, [], after⟩ ∧
      ∀ response, result = some response →
        fd.incoming = frame d.id (wireBytes response) ++ after.incoming := by
  obtain ⟨sent, later, hsend, hincoming⟩ := execute_send (ε := ε) state error fd d.id request
  rw [call, execute_run_bind, hsend]
  cases sent with
  | false => exact ⟨none, error, later, rfl, fun _ hnone ↦ by cases hnone⟩
  | true =>
    obtain ⟨result, code, after, hreply, hresponse⟩ :=
      execute_callReply (ε := ε) state error later d
    refine ⟨result, code, after, ?_, fun response hsome ↦ ?_⟩
    · simp only [Bool.not_true, Bool.false_eq_true, if_false, hreply]
      rfl
    · rw [← hincoming]
      exact hresponse response hsome

end Received

end ZigbeeRemote.Rpc
