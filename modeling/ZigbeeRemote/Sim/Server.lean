import ZigbeeRemote.Server.SessionOutlook
import ZigbeeRemote.Sim.Zigbee

/-!
# The demonstration server

`handle_commands` of `zb_rpc/src/server.cpp` and the loop around it in `main`, for any expansion of
`dispatch_ns`. It differs from `serve_client` of the firmware in two places: there is no link that can
be down, and a frame with the id of an error ends the session without an answer.

`handleCommands_grammar` describes a whole session on any finite input, for every namespace whose
functions serve a part of the catalogue. `keepsOn_commands` and `keepsOn_idle` are what the session has
ahead of it as one side of a conversation.
-/

set_option autoImplicit false
set_option relaxedAutoImplicit false

namespace ZigbeeRemote.Sim

open Foundation Rpc Server WireType

section Definitions

variable {σ : Type}

/-- What `dispatch_ns` expands to. -/
abbrev Dispatcher (σ : Type) := FrameHeader → EngineM σ ServerMark InvokeResult

/-- `handle_commands`. -/
def handleCommands (dispatcher : Dispatcher σ) : EngineM σ ServerMark Bool := do
  match ← receiveHeader with
  | none =>
    if (← get) ≠ ErrorCode.none then
      let _ ← sendError (← get)
    return false
  | some header =>
    if header.id = ApiId.error then
      return false
    else
      let result ← dispatcher header
      if result = .noMatch then
        if !(← EngineM.lift (discardPayload header.size)) then
          return false
        else
          let _ ← sendError .unknownApi
          return false
      else
        return decide (result = .handled)

/-- The loop of `main`, from the construction of its engine to the end of the first pass. -/
def commands (dispatcher : Dispatcher σ) : Prog σ ServerMark (Bool × ErrorCode) :=
  (handleCommands dispatcher).run .none

/-- The passes after the first. -/
def commandsAgain (dispatcher : Dispatcher σ) (result : Bool × ErrorCode) :
    Option (Prog σ ServerMark (Bool × ErrorCode)) :=
  if result.1 then some ((handleCommands dispatcher).run result.2) else none

/-- A namespace whose handlers serve the given calls of the catalogue, and its expansion. -/
structure Serves (enumeration : Enumeration) (members : List (Member σ)) (dispatcher : Dispatcher σ)
    (functions : Functions σ) (apis : List Api) : Prop where
  expands : dispatchNs enumeration members = some dispatcher
  handlers : rpcHandlers enumeration members = some (handlersOf functions apis)

/-- The expansion is the chain of handlers. -/
theorem Serves.dispatcher_eq {enumeration : Enumeration} {members : List (Member σ)}
    {dispatcher : Dispatcher σ} {functions : Functions σ} {apis : List Api}
    (hserves : Serves enumeration members dispatcher functions apis) :
    dispatcher = invokeFirst (handlersOf functions apis) := by
  have hexpands := hserves.expands
  rw [dispatchNs_eq_invokeChosen, hserves.handlers] at hexpands
  rw [← Option.some.inj hexpands]
  funext header
  exact (invokeFirst_eq_invokeChosen _).symm

/-- The namespace of the demonstration. -/
theorem serves_simNamespace :
    Serves simApiId simNamespace (invokeFirst (handlersOf simFunctions simOrder)) simFunctions
      simOrder :=
  ⟨dispatchNs_simNamespace, rpcHandlers_simNamespace⟩

end Definitions

/-! ### One pass of the loop -/

section Rounds

variable {σ : Type} (eof : Bool) (state : σ) (error : ErrorCode) (functions : Functions σ)
  {apis : List Api}

/-- What follows a header with another id than that of an error. -/
theorem behave_handleCommands_header {id : ApiId} {size : UInt32} (rest : Bytes)
    (hsize : size ≤ kMaxPayload) (hid : id ≠ ApiId.error) :
    behave eof ((handleCommands (invokeFirst (handlersOf functions apis))).run error) state
        (headerBytes kMagic id size ++ rest) =
      (behave eof ((dispatch (handlersOf functions apis) ⟨id, size⟩).run .none) state rest).after
        [] [] 1 := by
  rw [handleCommands, behave_run_bind, behave_receiveHeader, headerVerdict_of_le id hsize,
    Behaviour.andThen_finished]
  simp only [if_neg hid]
  rfl

/-- A frame with the id of an error ends the session. -/
theorem behave_handleCommands_error {dispatcher : Dispatcher σ} {size : UInt32} (rest : Bytes)
    (hsize : size ≤ kMaxPayload) :
    behave eof ((handleCommands dispatcher).run error) state
        (headerBytes kMagic ApiId.error size ++ rest) =
      ⟨[], [], 1, state, .finished (false, .none) rest⟩ := by
  rw [handleCommands, behave_run_bind, behave_receiveHeader, headerVerdict_of_le _ hsize,
    Behaviour.andThen_finished]
  rfl

/-- A header that `receive_header` rejects is answered by an error. -/
theorem behave_handleCommands_rejected {dispatcher : Dispatcher σ} {magic id size : UInt32}
    {code : ErrorCode} (rest : Bytes) (hverdict : headerVerdict magic id size = (none, code))
    (hcode : code ≠ .none) :
    behave eof ((handleCommands dispatcher).run error) state (headerBytes magic id size ++ rest) =
      ⟨errorFrame code, [], 3, state, .finished (false, code) rest⟩ := by
  have hsend := behave_sendError (ε := ServerMark) eof state code code rest
  rw [handleCommands, behave_run_bind, behave_receiveHeader, hverdict, Behaviour.andThen_finished,
    Behaviour.after_nodes]
  simp only [behave_run_bind, behave_run_get, Behaviour.andThen_finished, if_pos hcode, hsend,
    behave_run_pure, Behaviour.after_nil]
  simp only [Behaviour.after, List.append_nil, Nat.add_zero]

/-- A request is served, answered once, and the loop goes on. -/
theorem behave_handleCommands_request {request : Request} (hapi : request.api ∈ apis) (rest : Bytes) :
    ∃ cost, behave eof ((handleCommands (invokeFirst (handlersOf functions apis))).run error) state
        (request.frame ++ rest) =
      ⟨responseFrame (request, (serve functions request state).1),
        exchangeMarks (request, (serve functions request state).1), cost,
        (serve functions request state).2, .finished (true, .none) rest⟩ := by
  obtain ⟨cost, hframe⟩ := behave_serveFrame_request eof state error functions hapi rest
  refine ⟨cost, ?_⟩
  rw [← hframe, Request.frame, Rpc.frame, List.append_assoc,
    behave_handleCommands_header eof state error functions _
      (ofNat_le_kMaxPayload request.payload_le) request.api.id_ne_error,
    behave_serveFrame_header eof state error _ (ofNat_le_kMaxPayload request.payload_le)]

/-- A frame with an id that the namespace does not serve ends the session. -/
theorem behave_handleCommands_unknown {id : ApiId} {payload : Bytes} (rest : Bytes)
    (hpayload : payload.length ≤ kMaxPayload.toNat) (herror : id ≠ ApiId.error)
    (hid : ∀ api ∈ apis, id ≠ api.id) :
    ∃ cost, behave eof ((handleCommands (invokeFirst (handlersOf functions apis))).run error) state
        (frame id payload ++ rest) =
      ⟨errorFrame .unknownApi, [], cost, state, .finished (false, .none) rest⟩ := by
  obtain ⟨cost, hframe⟩ := behave_serveFrame_unknown eof state error functions rest hpayload hid
  refine ⟨cost, ?_⟩
  rw [← hframe, frame, List.append_assoc,
    behave_handleCommands_header eof state error functions _ (ofNat_le_kMaxPayload hpayload) herror,
    behave_serveFrame_header eof state error _ (ofNat_le_kMaxPayload hpayload)]

end Rounds

/-! ### The grammar of a session -/

/-- The input is the longest run of requests of the given calls, followed by the rest. -/
structure LongestRun (apis : List Api) (input : Bytes) (requests : List Request) (rest : Bytes) :
    Prop where
  split : input = requests.flatMap Request.frame ++ rest
  known : ∀ request ∈ requests, request.api ∈ apis
  longest : ∀ (request : Request) more, request.api ∈ apis → rest ≠ request.frame ++ more

/-- What the server writes for a rest that no request starts, before it ends the session. -/
inductive LastAnswer (apis : List Api) : Bytes → Bytes → Prop
  | insideHeader {rest : Bytes} (hshort : rest.length < 12) : LastAnswer apis rest []
  | badMagic {magic id size : UInt32} {more : Bytes} (hmagic : magic ≠ kMagic) :
      LastAnswer apis (headerBytes magic id size ++ more) (errorFrame .badMagic)
  | oversizedPayload {id size : UInt32} {more : Bytes} (hsize : kMaxPayload < size) :
      LastAnswer apis (headerBytes kMagic id size ++ more) (errorFrame .oversizedPayload)
  /-- The payload stays unread, and there is no answer. -/
  | error {size : UInt32} {more : Bytes} (hsize : size ≤ kMaxPayload) :
      LastAnswer apis (headerBytes kMagic ApiId.error size ++ more) []
  | unknownApi {id size : UInt32} {more : Bytes} (hsize : size ≤ kMaxPayload)
      (herror : id ≠ ApiId.error) (hid : ∀ api ∈ apis, id ≠ api.id)
      (hmore : size.toNat ≤ more.length) :
      LastAnswer apis (headerBytes kMagic id size ++ more) (errorFrame .unknownApi)
  | insideUnknown {id size : UInt32} {more : Bytes} (hsize : size ≤ kMaxPayload)
      (herror : id ≠ ApiId.error) (hid : ∀ api ∈ apis, id ≠ api.id)
      (hmore : more.length < size.toNat) :
      LastAnswer apis (headerBytes kMagic id size ++ more) []
  | payloadMismatch {api : Api} {size : UInt32} {more : Bytes} (hsize : size ≤ kMaxPayload)
      (hapi : api ∈ apis) (hexact : size.toNat ≠ wireSize (desc api).Req) :
      LastAnswer apis (headerBytes kMagic api.id size ++ more) (errorFrame .payloadMismatch)
  | insidePayload {api : Api} {size : UInt32} {more : Bytes} (hsize : size ≤ kMaxPayload)
      (hapi : api ∈ apis) (hexact : size.toNat = wireSize (desc api).Req)
      (hmore : more.length < size.toNat) :
      LastAnswer apis (headerBytes kMagic api.id size ++ more) []

/-- Every input is a run of requests followed by a rest that no request starts. -/
theorem exists_longestRun (apis : List Api) (input : Bytes) :
    ∃ requests rest, LongestRun apis input requests rest := by
  induction hlength : input.length using Nat.strong_induction_on generalizing input with
  | _ length ih =>
    by_cases hstart : ∃ (request : Request) (more : Bytes),
        request.api ∈ apis ∧ input = request.frame ++ more
    · obtain ⟨request, more, hapi, rfl⟩ := hstart
      have hshorter : more.length < length := by
        rw [← hlength, List.length_append, Request.frame, length_frame]
        omega
      obtain ⟨requests, rest, hsplit, hknown, hlongest⟩ := ih more.length hshorter more rfl
      refine ⟨request :: requests, rest, by simp [hsplit], ?_, hlongest⟩
      simpa [hapi] using hknown
    · refine ⟨[], input, rfl, by simp, fun request more hapi hequal ↦ ?_⟩
      exact hstart ⟨request, more, hapi, hequal⟩

section Grammar

variable {σ : Type} (functions : Functions σ) (state : σ) (error : ErrorCode) {apis : List Api}

/-- A header with an id of the namespace that no request starts with. -/
theorem behave_dispatch_last_known {api : Api} {size : UInt32} {more : Bytes} (hapi : api ∈ apis)
    (hsize : size ≤ kMaxPayload)
    (hrest : ∀ (request : Request) later, request.api ∈ apis →
      headerBytes kMagic api.id size ++ more ≠ request.frame ++ later) :
    ∃ answer cost code left, LastAnswer apis (headerBytes kMagic api.id size ++ more) answer ∧
      behave true ((dispatch (handlersOf functions apis) ⟨api.id, size⟩).run .none) state more =
        ⟨answer, [], cost, state, .finished (false, code) left⟩ := by
  by_cases hexact : size.toNat = wireSize (desc api).Req
  · have hmore : more.length < size.toNat := by
      by_contra hlong
      have hpayload : (more.take size.toNat).length = wireSize (desc api).Req := by
        rw [List.length_take]
        omega
      refine hrest ⟨api, more.take size.toNat, hpayload⟩ (more.drop size.toNat) hapi ?_
      rw [Request.frame, Rpc.frame, hpayload, ← hexact, UInt32.ofNat_toNat, List.append_assoc,
        List.take_append_drop]
    have hinvoke : behave true
        ((invokeOne (.ofStateM (desc api) (functions api)) ⟨api.id, size⟩).run .none) state more =
        ⟨[], [], 1, state, .finished (.failed, .none) []⟩ :=
      behave_invokeOne_eof state (desc_id api).symm hexact (hexact ▸ hmore)
    exact ⟨_, _, _, _, .insidePayload hsize hapi hexact hmore,
      behave_dispatch_api true state .none hapi rfl hinvoke (by decide)⟩
  · have hinvoke : behave true
        ((invokeOne (.ofStateM (desc api) (functions api)) ⟨api.id, size⟩).run .none) state more =
        ⟨errorFrame .payloadMismatch, [], 2, state, .finished (.failed, .payloadMismatch) more⟩ :=
      behave_invokeOne_mismatch true state .none more (desc_id api).symm hexact
    exact ⟨_, _, _, _, .payloadMismatch hsize hapi hexact,
      behave_dispatch_api true state .none hapi rfl hinvoke (by decide)⟩

/-- A header with an id outside the namespace. -/
theorem behave_dispatch_last_unknown {id : ApiId} {size : UInt32} (more : Bytes)
    (hsize : size ≤ kMaxPayload) (herror : id ≠ ApiId.error) (hunknown : ∀ api ∈ apis, id ≠ api.id) :
    ∃ answer cost code left, LastAnswer apis (headerBytes kMagic id size ++ more) answer ∧
      behave true ((dispatch (handlersOf functions apis) ⟨id, size⟩).run .none) state more =
        ⟨answer, [], cost, state, .finished (false, code) left⟩ := by
  by_cases hmore : more.length < size.toNat
  · obtain ⟨cost, hdispatch⟩ :=
      behave_dispatch_unknown_eof state .none functions ⟨id, size⟩ hmore hunknown
    exact ⟨_, _, _, _, .insideUnknown hsize herror hunknown hmore, hdispatch⟩
  · have hpayload : (more.take size.toNat).length = size.toNat := by
      rw [List.length_take]
      omega
    obtain ⟨cost, hdispatch⟩ := behave_dispatch_unknown true state .none functions ⟨id, size⟩
      (more.drop size.toNat) hpayload hunknown
    rw [List.take_append_drop] at hdispatch
    exact ⟨_, _, _, _, .unknownApi hsize herror hunknown (Nat.not_lt.mp hmore), hdispatch⟩

/-- On a rest that no request starts, a pass writes what the rest calls for, invokes nothing and ends
the session. -/
theorem behave_handleCommands_last {rest : Bytes}
    (hrest : ∀ (request : Request) more, request.api ∈ apis → rest ≠ request.frame ++ more) :
    ∃ answer cost code left, LastAnswer apis rest answer ∧
      behave true ((handleCommands (invokeFirst (handlersOf functions apis))).run error) state rest =
        ⟨answer, [], cost, state, .finished (false, code) left⟩ := by
  by_cases hshort : rest.length < 12
  · refine ⟨[], 1, .none, [], .insideHeader hshort, ?_⟩
    simp only [handleCommands, behave_run_bind, behave_receiveHeader_eof state error hshort,
      Behaviour.andThen_finished, behave_run_get, ne_eq, not_true_eq_false, if_false,
      behave_run_pure]
    simp [Behaviour.after]
  have htwelve : (rest.take 12).length = 12 := by
    rw [List.length_take]
    omega
  obtain ⟨magic, id, size, hheader⟩ := exists_headerBytes htwelve
  obtain ⟨more, rfl⟩ : ∃ more, rest = headerBytes magic id size ++ more :=
    ⟨rest.drop 12, by rw [← hheader, List.take_append_drop]⟩
  by_cases hmagic : magic ≠ kMagic
  · exact ⟨_, 3, .badMagic, more, .badMagic hmagic,
      behave_handleCommands_rejected true state error more (if_pos hmagic) (by decide)⟩
  obtain rfl := not_not.mp hmagic
  by_cases hlimit : size > kMaxPayload
  · exact ⟨_, 3, .oversizedPayload, more, .oversizedPayload hlimit,
      behave_handleCommands_rejected true state error more
        ((if_neg hmagic).trans (if_pos hlimit)) (by decide)⟩
  have hsize : size ≤ kMaxPayload := UInt32.not_lt.mp hlimit
  by_cases herror : id = ApiId.error
  · subst herror
    exact ⟨_, _, _, _, .error hsize, behave_handleCommands_error true state error more hsize⟩
  obtain ⟨answer, cost, code, left, hlast, hdispatch⟩ : ∃ answer cost code left,
      LastAnswer apis (headerBytes kMagic id size ++ more) answer ∧
        behave true ((dispatch (handlersOf functions apis) ⟨id, size⟩).run .none) state more =
          ⟨answer, [], cost, state, .finished (false, code) left⟩ := by
    by_cases hid : ∃ api ∈ apis, id = api.id
    · obtain ⟨api, hapi, rfl⟩ := hid
      exact behave_dispatch_last_known functions state hapi hsize hrest
    · exact behave_dispatch_last_unknown functions state more hsize herror
        fun api hapi hequal ↦ hid ⟨api, hapi, hequal⟩
  refine ⟨answer, 1 + cost, code, left, hlast, ?_⟩
  rw [behave_handleCommands_header true state error functions more hsize herror, hdispatch,
    Behaviour.after_nodes]

/-- Requests at the front of the input are served in order, and then the rest is answered. -/
theorem reacts_commands (requests : List Request) {rest : Bytes}
    (hknown : ∀ request ∈ requests, request.api ∈ apis)
    (hrest : ∀ (request : Request) more, request.api ∈ apis → rest ≠ request.frame ++ more) :
    ∃ answer behaviour, LastAnswer apis rest answer ∧
      Reacts true (commandsAgain (invokeFirst (handlersOf functions apis)))
        ((handleCommands (invokeFirst (handlersOf functions apis))).run error) state
        (requests.flatMap Request.frame ++ rest) behaviour ∧
      behaviour.output = (exchanges functions requests state).flatMap responseFrame ++ answer ∧
      behaviour.marks = (exchanges functions requests state).flatMap exchangeMarks ∧
      behaviour.state = stateAfter functions requests state := by
  induction requests generalizing state error with
  | nil =>
    obtain ⟨answer, cost, code, left, hlast, hends⟩ :=
      behave_handleCommands_last functions state error hrest
    exact ⟨answer, _, hlast, .of_stopped hends rfl rfl, rfl, rfl, rfl⟩
  | cons request requests ih =>
    obtain ⟨cost, hround⟩ := behave_handleCommands_request true state error functions
      (hknown request List.mem_cons_self) (requests.flatMap Request.frame ++ rest)
    obtain ⟨answer, behaviour, hlast, hreacts, houtput, hmarks, hstate⟩ :=
      ih (serve functions request state).2 .none
        fun other hother ↦ hknown other (List.mem_cons_of_mem request hother)
    refine ⟨answer, behaviour.after (responseFrame (request, (serve functions request state).1))
      (exchangeMarks (request, (serve functions request state).1)) (cost + 1), hlast, ?_, ?_, ?_,
      hstate⟩
    · rw [List.flatMap_cons, List.append_assoc]
      exact Reacts.of_again hround rfl hreacts
    · rw [Behaviour.after_output, houtput, exchanges, List.flatMap_cons, List.append_assoc]
    · rw [Behaviour.after_marks, hmarks, exchanges, List.flatMap_cons]

/-- A session of the demonstration server on any finite input, cut into reads in any way, for any
namespace whose functions serve a part of the catalogue. The input is the longest run of requests of
the namespace followed by a rest. The functions are called for exactly these requests, once each and
in order; the output is their responses followed by what the rest calls for; and the session ends.
Assumes: no system call fails. -/
theorem handleCommands_grammar {enumeration : Enumeration} {members : List (Member σ)}
    {dispatcher : Dispatcher σ} (hserves : Serves enumeration members dispatcher functions apis)
    {fd : Descriptor} (hclean : fd.Clean) :
    ∃ (requests : List Request) (rest answer : Bytes) (enough : ℕ)
      (finish : Executed σ ServerMark (Bool × ErrorCode)),
      LongestRun apis fd.incoming requests rest ∧ LastAnswer apis rest answer ∧
      (∀ rounds, enough ≤ rounds →
        executeLoop (commandsAgain dispatcher) rounds (commands dispatcher) state fd =
          some finish) ∧
      finish.marks = (exchanges functions requests state).flatMap exchangeMarks ∧
      finish.state = stateAfter functions requests state ∧
      finish.fd.sent =
        fd.sent ++ ((exchanges functions requests state).flatMap responseFrame ++ answer) := by
  obtain rfl := hserves.dispatcher_eq
  obtain ⟨requests, rest, hrun⟩ := exists_longestRun apis fd.incoming
  obtain ⟨answer, behaviour, hlast, hreacts, houtput, hmarks, hstate⟩ :=
    reacts_commands functions state .none requests hrun.known hrun.longest
  obtain ⟨enough, value, other, after, hloop, -, -, hsent⟩ :=
    executeLoop_clean hreacts fd hclean hrun.split
  rw [houtput] at hsent
  exact ⟨requests, rest, answer, enough, _, hrun, hlast, hloop, hmarks, hstate, hsent⟩

/-- A request for the channel and a frame with the id of an error, read one byte at a time. -/
theorem handleCommands_grammar_error :
    ∃ (requests : List Request) (rest answer : Bytes)
      (finish : Executed SimState ServerMark (Bool × ErrorCode)),
      LongestRun simOrder (frame (Api.id .getChannel) [] ++ errorFrame .none) requests rest ∧
      LastAnswer simOrder rest answer ∧
      finish.state = stateAfter simFunctions requests .initial ∧
      finish.fd.sent =
        (exchanges simFunctions requests .initial).flatMap responseFrame ++ answer := by
  have hclean : (Descriptor.reading (frame (Api.id .getChannel) [] ++ errorFrame .none)
      .steady).Clean := ⟨Schedule.steady_clean, Schedule.steady_clean⟩
  obtain ⟨requests, rest, answer, -, finish, hrun, hlast, -, -, hstate, hsent⟩ :=
    handleCommands_grammar simFunctions .initial serves_simNamespace hclean
  exact ⟨requests, rest, answer, finish, hrun, hlast, hstate, hsent⟩

end Grammar

/-! ### What a session has ahead of it -/

section Outlook

variable {σ : Type} {functions : Functions σ} {apis : List Api} {state : σ}
  {marks : List ServerMark} {more : Bytes} {cost : ℕ}

/-- The nodes a pass takes to serve a request. -/
def commandCost (request : Request) : ℕ :=
  1 + (payloadCost (desc request.api).Req + (1 + (1 + (sendCost (desc request.api).Resp + 1))))

/-- A request is read, then answered, and the loop goes on. -/
theorem keeps_handleCommands_request {request : Request} (hapi : request.api ∈ apis)
    (error : ErrorCode) {rest : Bytes} {post : Bool × ErrorCode → Outlook σ ServerMark → Prop}
    (hpost : post (true, .none) ⟨(serve functions request state).2,
      marks ++ exchangeMarks (request, (serve functions request state).1), rest, more, cost, false⟩) :
    ((handleCommands (invokeFirst (handlersOf functions apis))).run error).Keeps true post
      ⟨state, marks, request.frame ++ rest,
        responseFrame (request, (serve functions request state).1) ++ more,
        commandCost request + cost, false⟩ := by
  have hmember : (Handler.ofStateM (desc request.api) (functions request.api) : Handler σ ServerMark) ∈
      handlersOf functions apis := List.mem_map_of_mem hapi
  have honly : ∀ other ∈ handlersOf functions apis, request.api.id = other.desc.id →
      other = .ofStateM (desc request.api) (functions request.api) := by
    intro other hother hsame
    obtain ⟨known, -, rfl⟩ := List.mem_map.mp hother
    have hknown : known.id = request.api.id := (desc_id known).symm.trans hsame.symm
    rw [Api.id_injective hknown]
  have hheader := behave_receiveHeader (ε := ServerMark) false state error kMagic request.api.id
    (UInt32.ofNat request.payload.length) (request.payload ++ rest)
  rw [headerVerdict_of_le _ (ofNat_le_kMaxPayload request.payload_le)] at hheader
  have hcost : commandCost request + cost = 1 + (payloadCost (desc request.api).Req +
      (1 + (1 + (sendCost (desc request.api).Resp + (1 + cost))))) := by
    rw [commandCost]
    omega
  rw [hcost, Request.frame, Rpc.frame, List.append_assoc]
  refine keeps_run_bind (Prog.keeps_of_read hheader (fun _ ↦ ?_) ?_)
  · exact List.append_ne_nil_of_left_ne_nil (frame_ne_nil _ _) _
  simp only [if_neg request.api.id_ne_error]
  refine keeps_run_bind (keeps_invokeFirst hmember (desc_id request.api).symm honly
    (keeps_invokeOne request ⟨by decide, ?_⟩))
  rw [if_neg (by decide)]
  exact hpost

/-- A session ends when the client leaves between two requests. -/
theorem keepsOn_idle (dispatcher : Dispatcher σ) (error : ErrorCode)
    {post : Bool × ErrorCode → Outlook σ ServerMark → Prop}
    (hpost : post (false, .none) ⟨state, marks, [], [], 0, true⟩) :
    ((handleCommands dispatcher).run error).KeepsOn true (commandsAgain dispatcher) post
      ⟨state, marks, [], [], 1, false⟩ := by
  refine Prog.Keeps.ends (keeps_run_bind ?_)
  refine ⟨0, rfl, ?_, fun _ _ count _ ↦ ?_⟩
  · intro htwelve
    exact absurd (show Packed.size WireHeader ≤ 0 from htwelve) (by decide)
  · rw [List.drop_nil]
    exact ⟨rfl, hpost⟩

/-- Requests are served in order, and then the session goes on. -/
theorem keepsOn_commands {post : Bool × ErrorCode → Outlook σ ServerMark → Prop}
    {input output : Bytes} (requests : List Request)
    (hapis : ∀ request ∈ requests, request.api ∈ apis)
    (hlast : ∀ error, ((handleCommands (invokeFirst (handlersOf functions apis))).run error).KeepsOn
      true (commandsAgain (invokeFirst (handlersOf functions apis))) post
      ⟨stateAfter functions requests state,
        marks ++ (exchanges functions requests state).flatMap exchangeMarks, input, output, cost,
        false⟩) :
    ∃ passed, ∀ error,
      ((handleCommands (invokeFirst (handlersOf functions apis))).run error).KeepsOn true
        (commandsAgain (invokeFirst (handlersOf functions apis))) post
        ⟨state, marks, requests.flatMap Request.frame ++ input,
          (exchanges functions requests state).flatMap responseFrame ++ output, passed + cost,
          false⟩ := by
  induction requests generalizing state marks with
  | nil =>
    refine ⟨0, fun error ↦ ?_⟩
    have hround := hlast error
    rw [exchanges, List.flatMap_nil, List.append_nil] at hround
    rw [Nat.zero_add]
    exact hround
  | cons request requests ih =>
    have hothers : ∀ other ∈ requests, other.api ∈ apis :=
      fun other hmem ↦ hapis other (List.mem_cons_of_mem request hmem)
    have hnext : ∀ error,
        ((handleCommands (invokeFirst (handlersOf functions apis))).run error).KeepsOn true
          (commandsAgain (invokeFirst (handlersOf functions apis))) post
          ⟨stateAfter functions requests (serve functions request state).2,
            marks ++ exchangeMarks (request, (serve functions request state).1) ++
              (exchanges functions requests (serve functions request state).2).flatMap exchangeMarks,
            input, output, cost, false⟩ := by
      intro error
      have hround := hlast error
      rw [exchanges, List.flatMap_cons, ← List.append_assoc] at hround
      exact hround
    obtain ⟨passed, hkeeps⟩ := ih hothers hnext
    refine ⟨commandCost request + (passed + 1), fun error ↦ ?_⟩
    rw [exchanges, List.flatMap_cons, List.flatMap_cons, List.append_assoc, List.append_assoc,
      Nat.add_assoc]
    exact (keeps_handleCommands_request (hapis request List.mem_cons_self) error
      ⟨_, passed + cost, rfl, Nat.add_right_comm _ _ _, hkeeps .none⟩).again

/-- A session that blocks after a request has answered it in full and waits for the next. -/
theorem answered_of_blocked {request : Request} {error : ErrorCode} {later : Bytes}
    {behaviour : Behaviour σ ServerMark (Bool × ErrorCode)}
    (hserver : Reacts false (commandsAgain (invokeFirst (handlersOf functions apis)))
      ((handleCommands (invokeFirst (handlersOf functions apis))).run error) state
      (request.frame ++ later) behaviour)
    (hblocked : behaviour.ending = .blocked) :
    ∃ response after rest left passed,
      response.length = wireSize (desc request.api).Resp ∧
      Reacts false (commandsAgain (invokeFirst (handlersOf functions apis)))
        ((handleCommands (invokeFirst (handlersOf functions apis))).run .none) after later rest ∧
      behaviour = rest.after (frame request.api.id response) left passed := by
  by_cases hapi : request.api ∈ apis
  · obtain ⟨cost, hround⟩ :=
      behave_handleCommands_request false state error functions hapi later
    obtain ⟨rest, hrest, hequal⟩ := hserver.later hround rfl
    exact ⟨_, _, rest, _, _, length_wireBytes _, hrest, hequal⟩
  · have hunknown : ∀ api ∈ apis, request.api.id ≠ api.id := by
      intro api hmember hsame
      exact hapi (Api.id_injective hsame ▸ hmember)
    obtain ⟨cost, hround⟩ := behave_handleCommands_unknown false state error functions later
      request.payload_le request.api.id_ne_error hunknown
    have hstopped : Reacts false (commandsAgain (invokeFirst (handlersOf functions apis))) _ _ _ _ :=
      .of_stopped hround rfl rfl
    rw [← Request.frame] at hstopped
    rw [hserver.unique hstopped] at hblocked
    simp at hblocked

end Outlook

end ZigbeeRemote.Sim
