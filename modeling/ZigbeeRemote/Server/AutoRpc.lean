import ZigbeeRemote.Server.Session
import Mathlib.Data.List.Nodup
import Mathlib.Data.Option.Basic

/-!
# Dispatch by reflection

`zb_rpc/include/zb_rpc/dispatch.hpp` and `auto_rpc.hpp`: the fold over a list of handlers, and the
dispatcher, the catalogue text and the catalogue check that are expanded from the members of a
namespace. What the compiler decides is in the model: a namespace is the list of its declarations,
`api_id` a list of enumerators, and a template that is ill-formed for them has no instance (`none`).

`dispatch_agrees` compares the fold and the expansion with the chain of `invoke_one` calls of the
server: on handlers with distinct ids the three do the same on every descriptor, whatever its reads
and writes do, and the order of the handlers does not matter.

`verified_catalog_dispatched_iff` says for which namespaces among those that `verify_catalog`
accepts the catalogue is what `dispatch_ns` serves. The check looks at one function at a time, so it
accepts two functions that lead to one id, of which only the first is ever dispatched.
-/

set_option autoImplicit false
set_option relaxedAutoImplicit false

namespace ZigbeeRemote.Server

open Foundation Rpc WireType

/-! ### The fold over a list of handlers -/

section Fold

variable {σ : Type}

/-- `dispatch<Handlers...>`: every handler of the list is reached, with the result so far. -/
def dispatchHandlers (handlers : List (Handler σ ServerMark)) (header : FrameHeader) :
    EngineM σ ServerMark InvokeResult :=
  handlers.foldlM
    (fun result handler ↦
      if result = .noMatch then invokeOne handler header else return result)
    .noMatch

/-- The handler of a header, where there is one, and nothing else. -/
def invokeChosen (chosen : Option (Handler σ ServerMark)) (header : FrameHeader) :
    EngineM σ ServerMark InvokeResult :=
  match chosen with
  | none => return .noMatch
  | some handler => invokeOne handler header

/-- The first handler with the id of a header. -/
def chosenHandler (handlers : List (Handler σ ServerMark)) (header : FrameHeader) :
    Option (Handler σ ServerMark) :=
  handlers.find? fun handler ↦ decide (handler.desc.id = header.id)

end Fold

/-! ### Namespaces -/

/-- What the compiler makes of a type. All but the rejected ones pass `wire_safe`, but `send` takes
neither `void` nor a type that is too large for a frame, and what `dispatch_ns` receives must also be
initialized with `{}` and passed on to the function. -/
inductive Category (T : Type) : Type
  | void
  | rejected
  | oversized
  /-- Another type of which there can be no variable, for want of a destructor, or which `dump`
  cannot print, because it or the type of a member is a class without an identifier. -/
  | unusable
  /-- A type that can only be sent: no default constructor or copy constructor can be used. -/
  | sendable (wire : WireType T)
  | payload (wire : WireType T)

/-- How a value of the type is sent, if `send` can be instantiated with it. -/
def Category.sent {T : Type} : Category T → Option (WireType T)
  | .sendable wire => some wire
  | .payload wire => some wire
  | _ => none

/-- A C++ type, with the text `display_string_of` gives for it. -/
structure CppType where
  displayString : String
  Value : Type
  category : Category Value

/-- `wire_safe<T>()`. -/
def CppType.wireSafe (type : CppType) : Bool :=
  match type.category with
  | .rejected => false
  | _ => true

/-- A type that can be received and passed to a function. -/
def CppType.isPayload (type : CppType) : Bool :=
  match type.category with
  | .payload _ => true
  | _ => false

/-- A type that can be returned by a function and sent. -/
def CppType.isSendable (type : CppType) : Bool := type.category.sent.isSome

/-- The arguments of a function. -/
def Arguments : List CppType → Type
  | [] => Unit
  | type :: types => type.Value × Arguments types

/-- A declaration in a namespace. Functions without an identifier are operators. A function without a
body is one that cannot be called with a request: a deleted one, a `consteval` one for which such a
call is no constant expression, or one that is defined nowhere. A namespace has no special member
functions, constructors or destructors. -/
inductive Member (σ : Type) : Type 1
  | function (identifier : Option String) (parameters : List CppType) (result : CppType)
      (body : Option (Arguments parameters → Prog σ ServerMark result.Value))
  | other

/-- `enum class api_id`: its enumerators have distinct names, but not always distinct values. -/
structure Enumeration where
  enumerators : List (String × ApiId)
  nodup_names : (enumerators.map Prod.fst).Nodup

/-- `id_for_name`; `none` is the exception that ends the compilation. -/
def idForName (enumeration : Enumeration) (name : String) : Option ApiId :=
  (enumeration.enumerators.find? fun enumerator ↦ decide (enumerator.1 = name)).map Prod.snd

section Definitions

variable {σ : Type}

/-- `is_rpc_handler`. -/
def isRpcHandler : Member σ → Bool
  | .function identifier parameters _ _ => identifier.isSome && parameters.length == 1
  | .other => false

/-- The function of a member with its descriptor, as the body of `dispatch_ns` uses it; `none` where
that body is ill-formed. -/
def memberHandler (enumeration : Enumeration) : Member σ → Option (Handler σ ServerMark)
  | .function (some name) [request] response (some body) =>
    match idForName enumeration name, request.category, response.category.sent with
    | some id, .payload _, some _ =>
      some ⟨⟨id, request.Value, response.Value⟩, fun value ↦ body (value, ())⟩
    | _, _, _ => none
  | _ => none

/-- `dispatch_ns<Namespace>`, expanded for the members of a namespace. -/
def dispatchNs (enumeration : Enumeration) :
    List (Member σ) → Option (FrameHeader → EngineM σ ServerMark InvokeResult)
  | [] => some fun _ ↦ return .noMatch
  | member :: members =>
    if isRpcHandler member then
      match memberHandler enumeration member, dispatchNs enumeration members with
      | some handler, some others =>
        some fun header ↦ do
          if header.id = handler.desc.id then
            match ← receivePayload handler.desc.Req header with
            | none =>
              if (← get) ≠ ErrorCode.none then
                let _ ← sendError (← get)
              return .failed
            | some request =>
              EngineM.lift (.mark (.invoked handler.desc.id (wireBytes request)))
              let response ← EngineM.lift (handler.function request)
              let sent ← send handler.desc.id response
              EngineM.lift (.mark (.responded handler.desc.id (wireBytes response) sent))
              return if sent then .handled else .failed
          else
            others header
      | _, _ => none
    else
      dispatchNs enumeration members

/-- The handlers of a namespace; `none` where `dispatch_ns` is ill-formed for one of them. -/
def rpcHandlers (enumeration : Enumeration) (members : List (Member σ)) :
    Option (List (Handler σ ServerMark)) :=
  (members.filter isRpcHandler).mapM (memberHandler enumeration)

/-- The decimal digits of a number other than zero, the last one first. -/
def digitsOf (value : ℕ) : List Char :=
  if _hvalue : value = 0 then []
  else Char.ofNat ('0'.toNat + value % 10) :: digitsOf (value / 10)
termination_by value

/-- `append_u32`. -/
def appendU32 (out : String) (value : UInt32) : String :=
  out ++ String.ofList (if value = 0 then ['0'] else (digitsOf value.toNat).reverse)

/-- A line of the catalogue. -/
structure CatalogLine where
  name : String
  id : ApiId
  request : String
  response : String
  deriving DecidableEq

/-- `append_catalog_line`. -/
def appendCatalogLine (out : String) (line : CatalogLine) : String :=
  appendU32 (out ++ "  " ++ line.name ++ " id=") line.id ++ " req=" ++ line.request ++ " resp=" ++
    line.response ++ "\n"

/-- The line `catalog_dump` writes for a handler; `none` where one of its checks fails. -/
def catalogLine (enumeration : Enumeration) : Member σ → Option CatalogLine
  | .function (some name) [request] response _ =>
    if request.wireSafe && response.wireSafe then
      (idForName enumeration name).map fun id ↦
        ⟨name, id, request.displayString, response.displayString⟩
    else
      none
  | _ => none

/-- The lines of `catalog_dump`. -/
def catalogLines (enumeration : Enumeration) (members : List (Member σ)) :
    Option (List CatalogLine) :=
  (members.filter isRpcHandler).mapM (catalogLine enumeration)

/-- `catalog_dump<Namespace>`; `none` is a compilation that ends with an error. -/
def catalogDump (enumeration : Enumeration) (members : List (Member σ)) : Option String :=
  match catalogLines enumeration members with
  | none => none
  | some [] => none
  | some lines => some (lines.foldl appendCatalogLine "rpc catalog:\n")

/-- `verify_catalog<Namespace>`. -/
def verifyCatalog (enumeration : Enumeration) (members : List (Member σ)) : Bool :=
  (catalogDump enumeration members).isSome

end Definitions

/-! ### The three dispatchers -/

section Agreement

variable {σ : Type} {handler : Handler σ ServerMark} {header : FrameHeader}

theorem invokeOne_of_ne (hid : header.id ≠ handler.desc.id) :
    invokeOne handler header = return .noMatch := if_pos hid

/-- A handler with the id of the header never reports `no_match`, so what is done only after
`no_match` is not done. -/
theorem invokeOne_bind_of_eq (hid : header.id = handler.desc.id)
    {next : InvokeResult → EngineM σ ServerMark InvokeResult}
    (hnext : ∀ result, result ≠ .noMatch → next result = return result) :
    invokeOne handler header >>= next = invokeOne handler header := by
  have hfailed : next .failed = return .failed := hnext .failed (by decide)
  have hhandled : next .handled = return .handled := hnext .handled (by decide)
  rw [invokeOne, if_neg (not_not.mpr hid), bind_assoc]
  congr 1
  funext request
  cases request with
  | none =>
    simp only [bind_assoc]
    congr 1
    funext code
    split_ifs
    · simp only [pure_bind, bind_assoc, hfailed]
    · simp only [pure_bind, hfailed]
  | some request =>
    simp only [bind_assoc, pure_bind]
    congr 1
    funext _
    congr 1
    funext response
    congr 1
    funext sent
    cases sent <;> simp [hfailed, hhandled]

theorem chosenHandler_cons (handlers : List (Handler σ ServerMark)) :
    chosenHandler (handler :: handlers) header =
      if header.id = handler.desc.id then some handler else chosenHandler handlers header := by
  unfold chosenHandler
  by_cases hid : header.id = handler.desc.id
  · rw [List.find?_cons_of_pos (by simpa using hid.symm), if_pos hid]
  · rw [List.find?_cons_of_neg (by simpa using Ne.symm hid), if_neg hid]

/-- The chain of `invoke_one` calls comes to the first handler with the id of the header. -/
theorem invokeFirst_eq_invokeChosen (handlers : List (Handler σ ServerMark)) :
    invokeFirst handlers header = invokeChosen (chosenHandler handlers header) header := by
  induction handlers with
  | nil => rfl
  | cons handler handlers ih =>
    rw [invokeFirst, chosenHandler_cons]
    by_cases hid : header.id = handler.desc.id
    · rw [if_pos hid]
      exact invokeOne_bind_of_eq hid fun result hresult ↦ if_neg hresult
    · rw [if_neg hid, invokeOne_of_ne hid, pure_bind, if_pos rfl]
      exact ih

/-- Once a handler has answered, the rest of the fold passes its result on. -/
theorem foldlM_of_answered (handlers : List (Handler σ ServerMark)) {result : InvokeResult}
    (hresult : result ≠ .noMatch) :
    handlers.foldlM
        (fun result handler ↦
          if result = .noMatch then invokeOne handler header else return result) result =
      (return result : EngineM σ ServerMark InvokeResult) := by
  induction handlers with
  | nil => rfl
  | cons handler handlers ih => rw [List.foldlM_cons, if_neg hresult, pure_bind, ih]

/-- The fold comes to the first handler with the id of the header. -/
theorem dispatchHandlers_eq_invokeChosen (handlers : List (Handler σ ServerMark)) :
    dispatchHandlers handlers header = invokeChosen (chosenHandler handlers header) header := by
  induction handlers with
  | nil => rfl
  | cons handler handlers ih =>
    rw [dispatchHandlers, List.foldlM_cons, if_pos rfl, chosenHandler_cons]
    by_cases hid : header.id = handler.desc.id
    · rw [if_pos hid]
      exact invokeOne_bind_of_eq hid fun result hresult ↦ foldlM_of_answered handlers hresult
    · rw [if_neg hid, invokeOne_of_ne hid, pure_bind]
      exact ih

theorem rpcHandlers_cons_of_handler {enumeration : Enumeration} {member : Member σ}
    (members : List (Member σ)) (hmember : isRpcHandler member = true) :
    rpcHandlers enumeration (member :: members) =
      (memberHandler enumeration member).bind fun handler ↦
        (rpcHandlers enumeration members).map fun handlers ↦ handler :: handlers := by
  unfold rpcHandlers
  rw [List.filter_cons_of_pos hmember, List.mapM_cons]
  cases memberHandler enumeration member with
  | none => rfl
  | some handler =>
    cases (members.filter isRpcHandler).mapM (memberHandler enumeration) with
    | none => rfl
    | some handlers => rfl

theorem rpcHandlers_cons_of_other {enumeration : Enumeration} {member : Member σ}
    (members : List (Member σ)) (hmember : ¬ isRpcHandler member = true) :
    rpcHandlers enumeration (member :: members) = rpcHandlers enumeration members := by
  unfold rpcHandlers
  rw [List.filter_cons_of_neg hmember]

/-- The expansion for a namespace comes to the first of its handlers with the id of the header. -/
theorem dispatchNs_eq_invokeChosen (enumeration : Enumeration) (members : List (Member σ)) :
    dispatchNs enumeration members =
      match rpcHandlers enumeration members with
      | none => none
      | some handlers => some fun header ↦ invokeChosen (chosenHandler handlers header) header := by
  induction members with
  | nil => rfl
  | cons member members ih =>
    rw [dispatchNs]
    by_cases hmember : isRpcHandler member = true
    · rw [if_pos hmember, ih, rpcHandlers_cons_of_handler members hmember]
      cases memberHandler enumeration member with
      | none => rfl
      | some handler =>
        cases rpcHandlers enumeration members with
        | none => rfl
        | some handlers =>
          show some _ = some _
          congr 1
          funext header
          rw [chosenHandler_cons]
          by_cases hid : header.id = handler.desc.id
          · rw [if_pos hid, if_pos hid]
            exact (if_neg (not_not.mpr hid)).symm
          · rw [if_neg hid, if_neg hid]
    · rw [if_neg hmember, ih, rpcHandlers_cons_of_other members hmember]

/-- Among handlers with distinct ids the chosen one is the one with the id of the header. -/
theorem chosenHandler_eq_some_iff {handlers : List (Handler σ ServerMark)}
    (hdistinct : (handlers.map fun handler ↦ handler.desc.id).Nodup) :
    chosenHandler handlers header = some handler ↔
      handler ∈ handlers ∧ handler.desc.id = header.id := by
  constructor
  · intro hchosen
    exact ⟨List.mem_of_find?_eq_some hchosen, by simpa using List.find?_some hchosen⟩
  · rintro ⟨hmember, hid⟩
    cases hchosen : chosenHandler handlers header with
    | none => exact absurd hid (by simpa using List.find?_eq_none.mp hchosen handler hmember)
    | some other =>
      have hother : other.desc.id = header.id := by simpa using List.find?_some hchosen
      have hsame := List.inj_on_of_nodup_map hdistinct (List.mem_of_find?_eq_some hchosen) hmember
        (hother.trans hid.symm)
      rw [hsame]

/-- The order of handlers with distinct ids does not matter. -/
theorem chosenHandler_perm {handlers order : List (Handler σ ServerMark)}
    (hdistinct : (handlers.map fun handler ↦ handler.desc.id).Nodup)
    (horder : order.Perm handlers) (header : FrameHeader) :
    chosenHandler order header = chosenHandler handlers header := by
  have hother : (order.map fun handler ↦ handler.desc.id).Nodup :=
    (horder.map _).nodup_iff.mpr hdistinct
  apply Option.ext
  intro handler
  rw [chosenHandler_eq_some_iff hother, chosenHandler_eq_some_iff hdistinct, horder.mem_iff]

/-- The chain of `invoke_one` calls, the fold and the expansion for a namespace are one and the same
program, in whichever order they have the handlers: it does nothing where no handler has the id of
the header, and otherwise what `invoke_one` does with the only handler that has it. One program
gives one result, one sequence of handler calls, and takes and writes the same bytes on every stream
and for every outcome of its reads and writes. Assumes: the ids are distinct. -/
theorem dispatch_agrees {handlers : List (Handler σ ServerMark)}
    (hdistinct : (handlers.map fun handler ↦ handler.desc.id).Nodup) (header : FrameHeader) :
    ∃ chosen : Option (Handler σ ServerMark),
      (∀ handler, chosen = some handler ↔ handler ∈ handlers ∧ handler.desc.id = header.id) ∧
      ∀ order : List (Handler σ ServerMark), order.Perm handlers →
        invokeFirst order header = invokeChosen chosen header ∧
        dispatchHandlers order header = invokeChosen chosen header ∧
        ∀ (enumeration : Enumeration) (members : List (Member σ)),
          rpcHandlers enumeration members = some order →
          ∃ program, dispatchNs enumeration members = some program ∧
            program header = invokeChosen chosen header := by
  refine ⟨chosenHandler handlers header, ?_, ?_⟩
  · intro handler
    exact chosenHandler_eq_some_iff hdistinct
  · intro order horder
    have hchosen := chosenHandler_perm hdistinct horder header
    refine ⟨?_, ?_, ?_⟩
    · rw [invokeFirst_eq_invokeChosen, hchosen]
    · rw [dispatchHandlers_eq_invokeChosen, hchosen]
    · intro enumeration members hmembers
      refine ⟨fun header ↦ invokeChosen (chosenHandler order header) header, ?_, ?_⟩
      · rw [dispatchNs_eq_invokeChosen, hmembers]
      · exact congrArg (fun chosen ↦ invokeChosen chosen header) hchosen

/-- Two of the calls of the catalogue, declared in a namespace together with a function of two
parameters, a function without parameters and a type. -/
def sampleNamespace : List (Member Unit) :=
  [.other,
    .function (some "open_network") [⟨"OpenNetworkReq", OpenNetworkReq, .payload inferInstance⟩]
      ⟨"I32Resp", I32Resp, .payload inferInstance⟩ (some fun _ ↦ return ⟨toLe32 0⟩),
    .function (some "reset") [] ⟨"void", Unit, .void⟩ (some fun _ ↦ return ()),
    .function (some "get_channel") [⟨"EmptyReq", EmptyReq, .payload inferInstance⟩]
      ⟨"U8Resp", U8Resp, .payload inferInstance⟩ (some fun _ ↦ return ⟨11⟩)]

/-- The enumerators of `api_id` that the sample uses. -/
def sampleEnumeration : Enumeration :=
  ⟨[("error", 0), ("get_channel", 3), ("open_network", 4)], by decide⟩

/-- The handlers of the sample. -/
def sampleHandlers : List (Handler Unit ServerMark) :=
  [⟨⟨4, OpenNetworkReq, I32Resp⟩, fun _ ↦ return ⟨toLe32 0⟩⟩,
    ⟨⟨3, EmptyReq, U8Resp⟩, fun _ ↦ return ⟨11⟩⟩]

theorem rpcHandlers_sample :
    rpcHandlers sampleEnumeration sampleNamespace = some sampleHandlers := rfl

/-- The sample, dispatched by the fold in one order and from the namespace in the other. -/
theorem dispatch_agrees_sample :
    (sampleHandlers.map fun handler ↦ handler.desc.id).Nodup ∧
      ∃ program, dispatchNs sampleEnumeration sampleNamespace = some program ∧
        program ⟨3, 0⟩ = dispatchHandlers sampleHandlers.reverse ⟨3, 0⟩ := by
  have hdistinct : (sampleHandlers.map fun handler ↦ handler.desc.id).Nodup := by decide
  obtain ⟨chosen, -, hagrees⟩ := dispatch_agrees hdistinct ⟨3, 0⟩
  obtain ⟨program, hprogram, hsame⟩ := (hagrees sampleHandlers (List.Perm.refl _)).2.2
    sampleEnumeration sampleNamespace rpcHandlers_sample
  have hfold := (hagrees sampleHandlers.reverse (List.reverse_perm _)).2.1
  exact ⟨hdistinct, program, hprogram, hsame.trans hfold.symm⟩

end Agreement

/-! ### The catalogue and the dispatcher -/

section Catalogue

variable {σ : Type}

/-- The name of a member that has one. -/
def memberName : Member σ → String
  | .function (some name) _ _ _ => name
  | _ => ""

/-- The names of the handlers of a namespace. -/
def handlerNames (members : List (Member σ)) : List String :=
  (members.filter isRpcHandler).map memberName

/-- The function can be called with a request that has been received, and what it returns be sent. -/
def isServable : Member σ → Bool
  | .function _ [request] response body =>
    request.isPayload && response.isSendable && body.isSome
  | _ => false

/-- The catalogue is what `dispatch_ns` serves: the ids on its lines are distinct, the id of a line
with the size of its request leads to the function of that line, and an id on no line is left alone,
as is the stream. -/
def Dispatched (enumeration : Enumeration) (members : List (Member σ)) : Prop :=
  ∃ lines program, catalogLines enumeration members = some lines ∧
    dispatchNs enumeration members = some program ∧
    (lines.map CatalogLine.id).Nodup ∧
    (∀ member ∈ members, isRpcHandler member = true →
      ∃ line handler, catalogLine enumeration member = some line ∧
        memberHandler enumeration member = some handler ∧ handler.desc.id = line.id ∧
        ∀ header : FrameHeader, header.id = line.id →
          header.size.toNat = wireSize handler.desc.Req →
          program header = invokeOne handler header) ∧
    ∀ header : FrameHeader, header.id ∉ lines.map CatalogLine.id →
      program header = return .noMatch

/-- The namespaces in which no two handlers lead to one id and each can be served. -/
structure Unambiguous (enumeration : Enumeration) (members : List (Member σ)) : Prop where
  /-- No two functions of one parameter share a name. -/
  no_overloads : (handlerNames members).Nodup
  /-- No two enumerators that handlers are named after share a value. -/
  no_aliases : ∀ first ∈ enumeration.enumerators, ∀ second ∈ enumeration.enumerators,
    first.1 ∈ handlerNames members → second.1 ∈ handlerNames members → first.2 = second.2 →
    first.1 = second.1
  /-- No handler returns `void`, no request or response is larger than a payload may be or cannot be
  printed, every request can be initialized and copied, and every function can be called. -/
  servable : ∀ member ∈ members, isRpcHandler member = true → isServable member = true

theorem mapM_eq_some_iff {α β : Type*} (f : α → Option β) (items : List α) (values : List β) :
    items.mapM f = some values ↔ items.map f = values.map some := by
  induction items generalizing values with
  | nil => cases values <;> simp
  | cons item items ih =>
    rw [List.mapM_cons, List.map_cons]
    cases values with
    | nil => cases f item <;> simp [Option.bind_eq_some_iff]
    | cons value values => cases f item <;> simp [Option.bind_eq_some_iff, ih, and_comm]

theorem exists_mapM_eq_some {α β : Type*} {f : α → Option β} {items : List α}
    (hsome : ∀ item ∈ items, ∃ value, f item = some value) :
    ∃ values, items.mapM f = some values := by
  induction items with
  | nil => exact ⟨[], rfl⟩
  | cons item items ih =>
    obtain ⟨value, hvalue⟩ := hsome item List.mem_cons_self
    obtain ⟨values, hvalues⟩ := ih fun other hother ↦ hsome other (List.mem_cons_of_mem item hother)
    rw [mapM_eq_some_iff] at hvalues
    refine ⟨value :: values, (mapM_eq_some_iff _ _ _).mpr ?_⟩
    rw [List.map_cons, List.map_cons, hvalue, hvalues]

/-- A lookup by name finds the value of the enumerator. -/
theorem idForName_eq_some_iff {enumeration : Enumeration} {name : String} {id : ApiId} :
    idForName enumeration name = some id ↔ (name, id) ∈ enumeration.enumerators := by
  unfold idForName
  constructor
  · intro hid
    obtain ⟨enumerator, hfound, rfl⟩ := Option.map_eq_some_iff.mp hid
    have hname : enumerator.1 = name := by simpa using List.find?_some hfound
    rw [← hname]
    exact List.mem_of_find?_eq_some hfound
  · intro hmember
    cases hfound : enumeration.enumerators.find? fun enumerator ↦ decide (enumerator.1 = name) with
    | none =>
      have hmissing := List.find?_eq_none.mp hfound (name, id) hmember
      simp at hmissing
    | some enumerator =>
      have hname : enumerator.1 = name := by simpa using List.find?_some hfound
      have hsame := List.inj_on_of_nodup_map enumeration.nodup_names
        (List.mem_of_find?_eq_some hfound) hmember hname
      rw [hsame, Option.map_some]

theorem isRpcHandler_cases {member : Member σ} (hmember : isRpcHandler member = true) :
    ∃ name request response body, member = .function (some name) [request] response body := by
  obtain ⟨identifier, parameters, response, body⟩ | _ := member
  · simp only [isRpcHandler, Bool.and_eq_true, beq_iff_eq] at hmember
    obtain ⟨name, rfl⟩ := Option.isSome_iff_exists.mp hmember.1
    obtain ⟨request, rfl⟩ := List.length_eq_one_iff.mp hmember.2
    exact ⟨name, request, response, body, rfl⟩
  · simp [isRpcHandler] at hmember

theorem idForName_of_catalogLine {enumeration : Enumeration} {member : Member σ}
    {line : CatalogLine} (hline : catalogLine enumeration member = some line) :
    idForName enumeration (memberName member) = some line.id := by
  unfold catalogLine at hline
  split at hline
  · split_ifs at hline
    obtain ⟨id, hid, rfl⟩ := Option.map_eq_some_iff.mp hline
    exact hid
  · simp at hline

theorem memberHandler_some {enumeration : Enumeration} {member : Member σ}
    {handler : Handler σ ServerMark} (hhandler : memberHandler enumeration member = some handler) :
    idForName enumeration (memberName member) = some handler.desc.id ∧
      isServable member = true := by
  unfold memberHandler at hhandler
  split at hhandler
  · split at hhandler
    · rename_i hid hrequest hresponse
      obtain rfl := Option.some.inj hhandler
      refine ⟨hid, ?_⟩
      simp [isServable, CppType.isPayload, CppType.isSendable, hrequest, hresponse]
    · simp at hhandler
  · simp at hhandler

/-- Where the function can be served, the name is all that is needed. -/
theorem exists_memberHandler {enumeration : Enumeration} {member : Member σ} {id : ApiId}
    (hmember : isRpcHandler member = true)
    (hid : idForName enumeration (memberName member) = some id)
    (hservable : isServable member = true) :
    ∃ handler, memberHandler enumeration member = some handler := by
  obtain ⟨name, request, response, body, rfl⟩ := isRpcHandler_cases hmember
  have hname : idForName enumeration name = some id := hid
  simp only [isServable, CppType.isPayload, CppType.isSendable, Bool.and_eq_true] at hservable
  obtain ⟨⟨hrequest, hresponse⟩, hbody⟩ := hservable
  obtain ⟨wireResp, hresp⟩ := Option.isSome_iff_exists.mp hresponse
  obtain ⟨function, rfl⟩ := Option.isSome_iff_exists.mp hbody
  unfold memberHandler
  cases hreq : request.category with
  | payload wireReq => simp [hname, hreq, hresp]
  | _ => simp [hreq] at hrequest

/-- What a walk over the members makes of each of them can be read off its result. -/
theorem map_of_mapM {α β γ : Type*} {f : α → Option β} {g : α → Option γ} {h : β → γ}
    {items : List α} {values : List β} (hvalues : items.mapM f = some values)
    (hread : ∀ item ∈ items, ∀ value, f item = some value → g item = some (h value)) :
    items.map g = (values.map h).map some := by
  replace hvalues := (mapM_eq_some_iff _ _ _).mp hvalues
  induction items generalizing values with
  | nil =>
    obtain rfl : values = [] := by simpa using hvalues.symm
    rfl
  | cons item items ih =>
    cases values with
    | nil => simp at hvalues
    | cons value values =>
      obtain ⟨hitem, hitems⟩ := List.cons.inj hvalues
      have hrest := ih (fun other hother ↦ hread other (List.mem_cons_of_mem item hother))
        hitems
      rw [List.map_cons, hread item List.mem_cons_self value hitem, hrest]
      rfl

section Verified

variable {enumeration : Enumeration} {members : List (Member σ)}

/-- The ids on the lines of the catalogue are those of the names. -/
theorem ids_of_catalogLines {lines : List CatalogLine}
    (hlines : catalogLines enumeration members = some lines) :
    (handlerNames members).map (idForName enumeration) = (lines.map CatalogLine.id).map some := by
  rw [handlerNames, List.map_map]
  exact map_of_mapM hlines fun member _ line hline ↦ idForName_of_catalogLine hline

/-- The ids that `dispatch_ns` compares with are those of the names. -/
theorem ids_of_rpcHandlers {handlers : List (Handler σ ServerMark)}
    (hhandlers : rpcHandlers enumeration members = some handlers) :
    (handlerNames members).map (idForName enumeration) =
      (handlers.map fun handler ↦ handler.desc.id).map some := by
  rw [handlerNames, List.map_map]
  exact map_of_mapM hhandlers fun member _ handler hhandler ↦ (memberHandler_some hhandler).1

theorem exists_catalogLines (haccepted : verifyCatalog enumeration members = true) :
    ∃ lines, catalogLines enumeration members = some lines := by
  cases hlines : catalogLines enumeration members with
  | none => simp [verifyCatalog, catalogDump, hlines] at haccepted
  | some lines => exact ⟨lines, rfl⟩

/-- Every handler has a line. -/
theorem exists_catalogLine {lines : List CatalogLine}
    (hlines : catalogLines enumeration members = some lines) {member : Member σ}
    (hmember : member ∈ members.filter isRpcHandler) :
    ∃ line ∈ lines, catalogLine enumeration member = some line := by
  have hmap := (mapM_eq_some_iff _ _ _).mp hlines
  obtain ⟨line, hline, hsame⟩ := List.mem_map.mp (hmap ▸ List.mem_map_of_mem hmember)
  exact ⟨line, hline, hsame.symm⟩

/-- Distinct names with enumerators of distinct values have distinct ids. -/
theorem Unambiguous.nodup_ids (hclear : Unambiguous enumeration members)
    (hids : ∀ name ∈ handlerNames members, ∃ id, idForName enumeration name = some id) :
    ((handlerNames members).map (idForName enumeration)).Nodup := by
  refine hclear.no_overloads.map_on ?_
  intro first hfirst second hsecond hsame
  obtain ⟨id, hid⟩ := hids first hfirst
  exact hclear.no_aliases (first, id) (idForName_eq_some_iff.mp hid) (second, id)
    (idForName_eq_some_iff.mp (hsame ▸ hid)) hfirst hsecond rfl

/-- The catalogue of an unambiguous namespace is what `dispatch_ns` serves. -/
theorem Unambiguous.dispatched (hclear : Unambiguous enumeration members)
    (haccepted : verifyCatalog enumeration members = true) : Dispatched enumeration members := by
  obtain ⟨lines, hlines⟩ := exists_catalogLines haccepted
  have hlineIds := ids_of_catalogLines hlines
  have hids : ∀ name ∈ handlerNames members, ∃ id, idForName enumeration name = some id := by
    intro name hname
    obtain ⟨id, -, hid⟩ := List.mem_map.mp (hlineIds ▸ List.mem_map_of_mem hname)
    exact ⟨id, hid.symm⟩
  obtain ⟨handlers, hhandlers⟩ : ∃ handlers, rpcHandlers enumeration members = some handlers := by
    refine exists_mapM_eq_some fun member hmember ↦ ?_
    obtain ⟨hdeclared, hhandler⟩ := List.mem_filter.mp hmember
    obtain ⟨id, hid⟩ := hids (memberName member) (List.mem_map_of_mem hmember)
    exact exists_memberHandler hhandler hid (hclear.servable member hdeclared hhandler)
  have hsame : lines.map CatalogLine.id = handlers.map fun handler ↦ handler.desc.id :=
    List.map_injective_iff.mpr (Option.some_injective ApiId)
      (hlineIds.symm.trans (ids_of_rpcHandlers hhandlers))
  have hnodup : (lines.map CatalogLine.id).Nodup := by
    have hall := hclear.nodup_ids hids
    rw [hlineIds] at hall
    exact hall.of_map _
  refine ⟨lines, _, hlines, by rw [dispatchNs_eq_invokeChosen, hhandlers], hnodup, ?_, ?_⟩
  · intro member hdeclared hhandler
    have hmember : member ∈ members.filter isRpcHandler := List.mem_filter.mpr ⟨hdeclared, hhandler⟩
    obtain ⟨line, -, hline⟩ := exists_catalogLine hlines hmember
    have hmap := (mapM_eq_some_iff _ _ _).mp hhandlers
    obtain ⟨handler, hlisted, hserves⟩ := List.mem_map.mp (hmap ▸ List.mem_map_of_mem hmember)
    have hid : handler.desc.id = line.id := Option.some.inj
      ((memberHandler_some hserves.symm).1.symm.trans (idForName_of_catalogLine hline))
    refine ⟨line, handler, hline, hserves.symm, hid, ?_⟩
    intro header hheader _
    have hchosen := (chosenHandler_eq_some_iff (hsame ▸ hnodup)).mpr
      ⟨hlisted, hid.trans hheader.symm⟩
    simp only [hchosen, invokeChosen]
  · intro header hheader
    have hchosen : chosenHandler handlers header = none := by
      refine List.find?_eq_none.mpr fun handler hlisted hid ↦ hheader ?_
      rw [hsame, ← of_decide_eq_true hid]
      exact List.mem_map_of_mem hlisted
    simp only [hchosen, invokeChosen]

/-- The catalogue that `verify_catalog` accepts is what `dispatch_ns` serves if and only if no two
handlers share a name, no two of their enumerators share a value, and each of the functions can be
served. -/
theorem verified_catalog_dispatched_iff (haccepted : verifyCatalog enumeration members = true) :
    Dispatched enumeration members ↔ Unambiguous enumeration members := by
  constructor
  · rintro ⟨lines, program, hlines, hprogram, hnodup, -, -⟩
    have hids : ((handlerNames members).map (idForName enumeration)).Nodup := by
      rw [ids_of_catalogLines hlines]
      exact hnodup.map (Option.some_injective ApiId)
    refine ⟨hids.of_map _, ?_, ?_⟩
    · intro first hfirst second hsecond hname hother hvalue
      refine List.inj_on_of_nodup_map hids hname hother ?_
      rw [idForName_eq_some_iff.mpr hfirst, idForName_eq_some_iff.mpr hsecond, hvalue]
    · intro member hdeclared hhandler
      rw [dispatchNs_eq_invokeChosen] at hprogram
      cases hhandlers : rpcHandlers enumeration members with
      | none => simp [hhandlers] at hprogram
      | some handlers =>
        have hmap := (mapM_eq_some_iff _ _ _).mp hhandlers
        obtain ⟨handler, -, hserves⟩ := List.mem_map.mp
          (hmap ▸ List.mem_map_of_mem (List.mem_filter.mpr ⟨hdeclared, hhandler⟩))
        exact (memberHandler_some hserves.symm).2
  · intro hclear
    exact hclear.dispatched haccepted

end Verified

/-- The sample, whose two handlers have names and values of their own. -/
theorem sample_dispatched :
    verifyCatalog sampleEnumeration sampleNamespace = true ∧
      Dispatched sampleEnumeration sampleNamespace := by
  have haccepted : verifyCatalog sampleEnumeration sampleNamespace = true := by decide +kernel
  refine ⟨haccepted, (verified_catalog_dispatched_iff haccepted).mpr ⟨by decide, by decide, ?_⟩⟩
  intro member hdeclared hhandler
  simp only [sampleNamespace, List.mem_cons, List.not_mem_nil, or_false] at hdeclared
  rcases hdeclared with rfl | rfl | rfl | rfl
  · exact absurd hhandler (by decide)
  · rfl
  · exact absurd hhandler (by decide)
  · rfl

/-- Two functions named `find_sensor`, one for an address and one for an address with an endpoint. -/
def overloadedNamespace : List (Member Unit) :=
  [.function (some "find_sensor") [⟨"FindSensorReq", FindSensorReq, .payload inferInstance⟩]
      ⟨"zb_addr_t", ZbAddr, .payload inferInstance⟩ (some fun _ ↦ return init ZbAddr),
    .function (some "find_sensor") [⟨"zb_addr_t", ZbAddr, .payload inferInstance⟩]
      ⟨"zb_addr_t", ZbAddr, .payload inferInstance⟩ (some fun arguments ↦ return arguments.1)]

/-- An overload passes the check and is never dispatched. -/
theorem overload_not_dispatched :
    ¬ ∀ (enumeration : Enumeration) (members : List (Member Unit)),
        verifyCatalog enumeration members = true → Dispatched enumeration members := by
  intro hclaim
  have haccepted : verifyCatalog ⟨[("find_sensor", 6)], by decide⟩ overloadedNamespace = true := by
    decide +kernel
  obtain ⟨lines, -, hlines, -, hnodup, -, -⟩ := hclaim _ _ haccepted
  have hids : lines.map CatalogLine.id = [6, 6] := by
    have hknown : catalogLines ⟨[("find_sensor", 6)], by decide⟩ overloadedNamespace =
        some [⟨"find_sensor", 6, "FindSensorReq", "zb_addr_t"⟩,
          ⟨"find_sensor", 6, "zb_addr_t", "zb_addr_t"⟩] := by decide +kernel
    rw [Option.some.inj (hlines.symm.trans hknown)]
    rfl
  rw [hids] at hnodup
  exact absurd hnodup (by decide)

end Catalogue

end ZigbeeRemote.Server
