import ZigbeeRemote.Server.Handlers
import ZigbeeRemote.Server.Session
import ZigbeeRemote.Server.ZigbeeStack

/-!
# Announcements of devices

The server with the Zigbee functions behind its handlers, and the way of a device announcement
through it: the Zigbee task puts it into `s_annce_q`, `handle_wait_annce` takes it out, and
`invoke_one` sends it in a response. `server_task` serves one client after the other. The Zigbee
task, the network and the clients do what they like between any two steps of the server.

`announcements_accounted`: between requests, the announcements that were accepted are those that
have been handed out in responses, in the same order, followed by those still in the queue. A
response that could not be written takes its announcement with it: `announcement_lost`.
-/

set_option autoImplicit false
set_option relaxedAutoImplicit false

namespace ZigbeeRemote.Server

open Foundation Rpc WireType Zigbee
open ZigbeeStack (Firmware Access Surroundings Channel)

/-! ### The server with its firmware -/

/-- `ppp_uart_is_connected`. -/
def pppUartIsConnected : StateM Firmware Bool := do return (← get).outside.linkUp

/-- `client_connected`. -/
def clientConnected : StateM Firmware Bool := do return (← get).outside.clientConnected

/-- The handler of a call. -/
def firmwareHandler (api : Api) : Handler Firmware ServerMark :=
  ⟨desc api, handle ZigbeeStack.zigbeeApi (.lift pppUartIsConnected) (.lift clientConnected) api⟩

/-- The handlers of `dispatch`. -/
def firmwareHandlers : List (Handler Firmware ServerMark) := dispatchOrder.map firmwareHandler

/-- The loop of `server_task`: another pass of `serve_client`, or another client. -/
def serverTask (result : Bool × ErrorCode) : Option (Prog Firmware ServerMark (Bool × ErrorCode)) :=
  (serveAgain pppUartIsConnected firmwareHandlers result).or
    (some (serveClient pppUartIsConnected firmwareHandlers))

/-- The server and the announcements that `xQueueSend` accepted. -/
structure Station where
  thread : Thread Firmware ServerMark (Bool × ErrorCode)
  accepted : List UInt16

def Station.initial (outside : Surroundings) : Station :=
  ⟨⟨serveClient pppUartIsConnected firmwareHandlers, .initial outside, []⟩, []⟩

/-- What can happen: a step of the server, an announcement, another callback of the Zigbee task, or a
change of the link, the client or the network. -/
inductive StationLabel : Type
  | task (move : Move)
  | announce (shortAddr : UInt16)
  | callback (access : Access)
  | outside (outside : Surroundings)

/-- The state of the machine has changed under the server. -/
def Station.onState (station : Station) (state : Firmware) : Station :=
  { station with thread := { station.thread with state := state } }

/-- `xQueueSend` on `s_annce_q`. -/
def Station.announce (station : Station) (shortAddr : UInt16) : Station :=
  { station.onState (station.thread.state.access (.sendAnnce shortAddr)) with
    accepted :=
      if station.thread.state.annceQ.length < 4 then station.accepted ++ [shortAddr]
      else station.accepted }

def isAnnce : Access → Bool
  | .sendAnnce _ => true
  | _ => false

inductive Station.Step : Station → StationLabel → Station → Prop
  | task {station : Station} {later : Thread Firmware ServerMark (Bool × ErrorCode)} {move : Move}
      (hstep : Thread.Step serverTask station.thread move later) :
      Step station (.task move) { station with thread := later }
  | announce {station : Station} {shortAddr : UInt16} (hsome : shortAddr ≠ 0) :
      Step station (.announce shortAddr) (station.announce shortAddr)
  | callback {station : Station} {access : Access} (hother : isAnnce access = false) :
      Step station (.callback access) (station.onState (station.thread.state.access access))
  | outside {station : Station} (outside : Surroundings) :
      Step station (.outside outside)
        (station.onState { station.thread.state with outside := outside })

/-- The steps as a function, to compute runs with. -/
def Station.next (station : Station) : StationLabel → Option Station
  | .task move =>
    (station.thread.next serverTask move).map fun later ↦ { station with thread := later }
  | .announce shortAddr => if shortAddr ≠ 0 then some (station.announce shortAddr) else none
  | .callback access =>
    if isAnnce access then none else some (station.onState (station.thread.state.access access))
  | .outside outside => some (station.onState { station.thread.state with outside := outside })

theorem Station.Step.of_next {before after : Station} {label : StationLabel}
    (hnext : before.next label = some after) : Station.Step before label after := by
  cases label with
  | task move =>
    obtain ⟨later, hlater, rfl⟩ := Option.map_eq_some_iff.mp hnext
    exact .task (.of_next hlater)
  | announce shortAddr =>
    simp only [Station.next] at hnext
    split_ifs at hnext with hsome
    exact Option.some.inj hnext ▸ .announce hsome
  | callback access =>
    simp only [Station.next] at hnext
    split_ifs at hnext with hother
    exact Option.some.inj hnext ▸ .callback (by simpa using hother)
  | outside outside => exact Option.some.inj hnext ▸ .outside outside

/-! ### The account of the announcements -/

/-- The address in a response to `wait_annce`, unless it is zero. -/
def announced (response : U16Resp) : List UInt16 :=
  if fromLe16 response.value = 0 then [] else [fromLe16 response.value]

/-- The announcements a response carries, with the result of `Engine::send`. -/
def handedOutBy : ServerMark → List (UInt16 × Bool)
  | .invoked _ _ => []
  | .responded id response sent =>
    if id = Api.waitAnnce.id then (announced (ofWire U16Resp response)).map (·, sent) else []

/-- The announcements handed out in responses so far. -/
def handedOut (marks : List ServerMark) : List (UInt16 × Bool) := marks.flatMap handedOutBy

/-- The announcements in responses that `Engine::send` wrote completely. -/
def delivered (marks : List ServerMark) : List UInt16 :=
  ((handedOut marks).filter Prod.snd).map Prod.fst

/-- A handler has been invoked and its response has not been sent yet. -/
def processing (marks : List ServerMark) : Bool :=
  match marks.getLast? with
  | some (.invoked _ _) => true
  | _ => false

/-- What the server holds: nothing between requests, and in a request the announcements taken out of
the queue. -/
inductive Account : Type
  | idle
  | serving (held : List UInt16)

def Account.held : Account → List UInt16
  | .idle => []
  | .serving held => held

/-- Only a request takes announcements out of the queue, and its response carries them. -/
def annceDiscipline : Discipline Firmware ServerMark Account where
  rely firmware := 0 ∉ firmware.annceQ
  ask before after account later :=
    (after.annceQ = before.annceQ ∧ later = account) ∨
      ∃ held taken, account = .serving held ∧ before.annceQ = taken ++ after.annceQ ∧
        later = .serving (held ++ taken)
  tell mark account later :=
    match mark with
    | .invoked _ _ => account = .idle ∧ later = .serving []
    | .responded _ _ _ => account = .serving ((handedOutBy mark).map Prod.fst) ∧ later = .idle

section Keeps

variable {α β : Type}

/-- A program that leaves the queue alone and no marks. -/
def Keeps (program : Prog Firmware ServerMark α) : Prop :=
  ∀ account, program.Follows annceDiscipline (fun _ later ↦ later = account) account

theorem Keeps.bind {program : Prog Firmware ServerMark α} {next : α → Prog Firmware ServerMark β}
    (hkeeps : Keeps program) (hnext : ∀ value, Keeps (next value)) : Keeps (program.bind next) := by
  intro account
  refine ((hkeeps account).imp fun value later hlater ↦ ?_).bind
  obtain rfl := hlater
  exact hnext value later

theorem keeps_done (value : α) : Keeps (.done value) := fun _ ↦ rfl

theorem keeps_lift {action : StateM Firmware α}
    (hkeeps : ∀ firmware, (action.run firmware).2.annceQ = firmware.annceQ) :
    Keeps (Prog.lift action) := fun account ↦
  Prog.follows_lift fun firmware _ ↦ ⟨account, Or.inl ⟨hkeeps firmware, rfl⟩, rfl⟩

theorem keeps_readVariable (read : Firmware → α) : Keeps (ZigbeeStack.readVariable read) :=
  keeps_lift fun _ ↦ rfl

theorem keeps_exchange {channel : Channel} {send : StateM Firmware Int32} {failed : Int32 → α}
    {collect : channel.Item → Prog Firmware ServerMark α}
    (hsend : ∀ firmware, (send.run firmware).2.annceQ = firmware.annceQ)
    (hcollect : ∀ item, Keeps (collect item)) :
    Keeps (ZigbeeStack.exchange channel send failed collect) := by
  refine Keeps.bind (keeps_lift fun firmware ↦ ?_) fun _ ↦ Keeps.bind (keeps_lift hsend) fun err ↦ ?_
  · cases channel <;> rfl
  · split_ifs
    · exact keeps_done _
    · refine Keeps.bind (keeps_lift fun firmware ↦ ?_) fun received ↦ ?_
      · cases channel <;> rfl
      · cases received with
        | none => exact keeps_done _
        | some item => exact hcollect item

theorem annceQ_ezbRequest (request : ZigbeeStack.Request) (firmware : Firmware) :
    ((ZigbeeStack.ezbRequest request).run firmware).2.annceQ = firmware.annceQ := by
  rw [ZigbeeStack.ezbRequest_run]
  split_ifs <;> rfl

theorem annceQ_bindRequest (remoteShort : UInt16) (remoteEp : UInt8) (toLocal : Bool)
    (firmware : Firmware) :
    ((ZigbeeStack.bindRequest remoteShort remoteEp toLocal).run firmware).2.annceQ =
      firmware.annceQ := by
  rcases ZigbeeStack.bindRequest_cases remoteShort remoteEp toLocal firmware with
      hrun | ⟨dst, srcEp, dstEp, srcAddr, dstAddr, hrun⟩
  · rw [hrun]
  · rw [hrun]
    exact annceQ_ezbRequest _ firmware

theorem keeps_bindCommon (remoteShort : UInt16) (remoteEp : UInt8) (toLocal : Bool)
    (timeoutMs : UInt32) :
    Keeps (ZigbeeStack.zigbeeBindCommon remoteShort remoteEp toLocal timeoutMs) := by
  refine Keeps.bind (keeps_readVariable _) fun memory ↦ ?_
  split_ifs
  · exact keeps_done _
  · exact keeps_exchange (annceQ_bindRequest _ _ _) fun _ ↦ keeps_readVariable _

theorem keeps_findSensor (shortAddr : UInt16) (timeoutMs : UInt32) :
    Keeps (ZigbeeStack.zigbeeFindSensor shortAddr timeoutMs) := by
  refine keeps_exchange (annceQ_ezbRequest _) fun out ↦ ?_
  unfold ZigbeeStack.rememberSensor
  by_cases herr : out.err = 0
  · rw [if_pos herr]
    exact Keeps.bind (keeps_lift fun _ ↦ rfl) fun _ ↦ keeps_done _
  · rw [if_neg herr]
    exact keeps_done _

/-- The other handlers leave the announcements alone. -/
theorem keeps_handle {api : Api} (hother : api ≠ .waitAnnce) (request : (desc api).Req) :
    Keeps ((firmwareHandler api).function request) := by
  cases api with
  | waitAnnce => exact absurd rfl hother
  | findSensor => exact Keeps.bind (keeps_findSensor _ kRpcTimeoutMs) fun _ ↦ keeps_done _
  | readBasic =>
    exact Keeps.bind (keeps_exchange (annceQ_ezbRequest _) fun _ ↦ keeps_readVariable _) fun _ ↦
      keeps_done _
  | bindSensor => exact Keeps.bind (keeps_bindCommon _ _ _ kRpcTimeoutMs) fun _ ↦ keeps_done _
  | subscribeSensor => exact Keeps.bind (keeps_bindCommon _ _ _ kRpcTimeoutMs) fun _ ↦ keeps_done _
  | configReport =>
    exact Keeps.bind (keeps_exchange (annceQ_ezbRequest _) fun _ ↦ keeps_readVariable _) fun _ ↦
      keeps_done _
  | readTemp =>
    exact Keeps.bind (keeps_exchange (annceQ_ezbRequest _) fun _ ↦ keeps_readVariable _) fun _ ↦
      keeps_done _
  | openNetwork =>
    exact Keeps.bind (Keeps.bind (keeps_readVariable _) fun _ ↦ keeps_done _) fun _ ↦ keeps_done _
  | _ => exact Keeps.bind (keeps_readVariable _) fun _ ↦ keeps_done _

end Keeps

/-! ### The handler of `wait_annce` -/

/-- A call of `zigbee_wait_annce` takes what it returns out of the queue. -/
theorem follows_waitAnnce (timeoutMs : UInt32) :
    (ZigbeeStack.zigbeeWaitAnnce timeoutMs : Prog Firmware ServerMark UInt16).Follows annceDiscipline
      (fun shortAddr later ↦ later = .serving (if shortAddr = 0 then [] else [shortAddr]))
      (.serving []) := by
  refine Prog.follows_lift fun firmware hrely ↦ ?_
  -- The call takes the head of the queue, or finds it empty and returns zero.
  show ∃ later, annceDiscipline.ask firmware { firmware with annceQ := firmware.annceQ.tail }
    (.serving []) later ∧
      later = .serving (if firmware.annceQ.headD 0 = 0 then [] else [firmware.annceQ.headD 0])
  have hsome : 0 ∉ firmware.annceQ := hrely
  cases hqueue : firmware.annceQ with
  | nil => exact ⟨_, Or.inl ⟨by simp [hqueue], rfl⟩, by simp⟩
  | cons shortAddr rest =>
    have hne : shortAddr ≠ 0 := by
      rintro rfl
      simp [hqueue] at hsome
    exact ⟨_, Or.inr ⟨[], [shortAddr], rfl, by simp [hqueue], rfl⟩, by simp [hne]⟩

theorem follows_waitAnnceLoop (remaining : UInt32) :
    (waitAnnceLoop ZigbeeStack.zigbeeApi (.lift pppUartIsConnected) (.lift clientConnected)
      remaining).Follows annceDiscipline
        (fun response later ↦ later = .serving (announced response)) (.serving []) := by
  have hzero : announced ⟨toLe16 0⟩ = [] := by simp [announced]
  fun_induction waitAnnceLoop with
  | case1 remaining hremaining ih =>
    refine Prog.Follows.bind ?_
    refine (keeps_lift (fun _ ↦ rfl) _).imp fun connected later hlater ↦ ?_
    obtain rfl := hlater
    cases connected with
    | false => exact congrArg Account.serving hzero.symm
    | true =>
      refine Prog.Follows.bind ((keeps_lift (fun _ ↦ rfl) _).imp fun present later hlater ↦ ?_)
      obtain rfl := hlater
      cases present with
      | false => exact congrArg Account.serving hzero.symm
      | true =>
        refine Prog.Follows.bind ((follows_waitAnnce (annceSlice remaining)).imp fun shortAddr later hlater ↦ ?_)
        obtain rfl := hlater
        by_cases hsome : shortAddr ≠ 0
        · have haddr : announced ⟨toLe16 shortAddr⟩ = [shortAddr] := by simp [announced, hsome]
          rw [if_pos hsome, if_neg hsome]
          exact congrArg Account.serving haddr.symm
        · rw [if_neg hsome, if_pos (not_not.mp hsome)]
          exact ih
  | case2 remaining hremaining => exact congrArg Account.serving hzero.symm

/-! ### A session -/

section Engine

variable {α β : Type}

/-- A computation of the engine that only reads and writes. -/
def Transfers (computation : EngineM Firmware ServerMark α) : Prop :=
  ∀ error, (computation.run error).Silent

theorem Transfers.bind {first : EngineM Firmware ServerMark α}
    {next : α → EngineM Firmware ServerMark β} (hfirst : Transfers first)
    (hnext : ∀ value, Transfers (next value)) : Transfers (first >>= next) := fun error ↦
  (hfirst error).bind fun result ↦ hnext result.1 result.2

theorem transfers_pure (value : α) : Transfers (pure value) := fun _ ↦ trivial

theorem transfers_get : Transfers (get : EngineM Firmware ServerMark ErrorCode) := fun _ ↦ trivial

theorem transfers_lift {program : Prog Firmware ServerMark α} (hsilent : program.Silent) :
    Transfers (EngineM.lift program) := fun _ ↦ hsilent.bind fun _ ↦ trivial

theorem transfers_send {T : Type} [WireType T] (id : ApiId) (payload : T) :
    Transfers (send id payload) := silent_send id payload

/-- What is done about a frame that could not be received. -/
theorem transfers_reportError (value : α) :
    Transfers (do
      if (← get) ≠ ErrorCode.none then
        let _ ← sendError (← get)
      return value : EngineM Firmware ServerMark α) := by
  refine transfers_get.bind fun code ↦ ?_
  split_ifs
  · exact transfers_get.bind fun code ↦ (transfers_send _ _).bind fun _ ↦ transfers_pure _
  · exact transfers_pure _

/-- The announcements a handler's response carries. -/
def carriedBy : (api : Api) → (desc api).Resp → List UInt16
  | .waitAnnce, response => announced response
  | _, _ => []

theorem follows_handler (api : Api) (request : (desc api).Req) :
    ((firmwareHandler api).function request).Follows annceDiscipline
      (fun response later ↦ later = .serving (carriedBy api response)) (.serving []) := by
  by_cases hannce : api = .waitAnnce
  · subst hannce
    exact follows_waitAnnceLoop kAnnceTimeoutMs
  · refine (keeps_handle hannce request (.serving [])).imp fun response later hlater ↦ ?_
    cases api <;> first | exact absurd rfl hannce | exact hlater

/-- The mark of a response says what the response carries. -/
theorem handedOutBy_responded (api : Api) (response : (desc api).Resp) (sent : Bool) :
    (handedOutBy (.responded (desc api).id (wireBytes response) sent)).map Prod.fst =
      carriedBy api response := by
  by_cases hannce : api = .waitAnnce
  · subst hannce
    have hwire : ofWire U16Resp (wireBytes (T := U16Resp) response) = response := ofWire_wireBytes _
    show (List.map _ (announced (ofWire U16Resp (wireBytes (T := U16Resp) response)))).map _ =
      announced response
    rw [hwire, List.map_map]
    exact List.map_id _
  · have hid : (desc api).id ≠ Api.waitAnnce.id := by
      rw [desc_id]
      exact fun h ↦ hannce (Api.id_injective h)
    have hnone : carriedBy api response = [] := by
      cases api <;> first | exact absurd rfl hannce | rfl
    rw [handedOutBy, if_neg hid, hnone, List.map_nil]

/-- A request begins and ends with nothing held. -/
theorem follows_invokeOne (api : Api) (header : FrameHeader) (error : ErrorCode) :
    ((invokeOne (firmwareHandler api) header).run error).Follows annceDiscipline
      (fun _ later ↦ later = .idle) .idle := by
  unfold invokeOne
  split_ifs
  · rfl
  · refine Prog.Follows.bind ((silent_receivePayload _ header error).follows fun result ↦ ?_)
    obtain ⟨received, code⟩ := result
    cases received with
    | none => exact (transfers_reportError InvokeResult.failed code).follows fun _ ↦ rfl
    | some request =>
      refine ⟨.serving [], ⟨rfl, rfl⟩, ?_⟩
      show Prog.Follows _ _ (Prog.bind (Prog.bind ((firmwareHandler api).function request) _) _) _
      refine Prog.Follows.bind (Prog.Follows.bind ?_)
      refine (follows_handler api request).imp fun response later hlater ↦ ?_
      obtain rfl := hlater
      refine Prog.Follows.bind ((transfers_send _ response code).follows fun result ↦ ?_)
      refine ⟨.idle, ⟨?_, rfl⟩, rfl⟩
      rw [← handedOutBy_responded api response result.1]
      rfl

theorem follows_invokeFirst (apis : List Api) (header : FrameHeader) (error : ErrorCode) :
    ((invokeFirst (apis.map firmwareHandler) header).run error).Follows annceDiscipline
      (fun _ later ↦ later = .idle) .idle := by
  induction apis generalizing error with
  | nil => rfl
  | cons api apis ih =>
    refine Prog.Follows.bind ((follows_invokeOne api header error).imp fun result later hlater ↦ ?_)
    obtain rfl := hlater
    dsimp only
    split_ifs
    · exact ih result.2
    · rfl

theorem follows_dispatch (header : FrameHeader) (error : ErrorCode) :
    ((dispatch firmwareHandlers header).run error).Follows annceDiscipline
      (fun _ later ↦ later = .idle) .idle := by
  refine Prog.Follows.bind ((follows_invokeFirst dispatchOrder header error).imp
    fun result later hlater ↦ ?_)
  obtain rfl := hlater
  have hrest : Transfers (do
      if result.1 = .noMatch then
        if !(← EngineM.lift (discardPayload header.size)) then
          return false
        else
          let _ ← sendError .unknownApi
          return false
      else
        return decide (result.1 = .handled) : EngineM Firmware ServerMark Bool) := by
    split_ifs
    · refine (transfers_lift (silent_discardPayload _)).bind fun discarded ↦ ?_
      split_ifs
      · exact transfers_pure _
      · exact (transfers_send _ _).bind fun _ ↦ transfers_pure _
    · exact transfers_pure _
  exact (hrest result.2).follows fun _ ↦ rfl

/-- A pass of the loop of `serve_client` begins and ends with nothing held. -/
theorem follows_serveRound (error : ErrorCode) :
    ((serveRound pppUartIsConnected firmwareHandlers).run error).Follows annceDiscipline
      (fun _ later ↦ later = .idle) .idle := by
  refine Prog.Follows.bind (Prog.Follows.bind ?_)
  refine (keeps_lift (fun _ ↦ rfl) _).imp fun connected later hlater ↦ ?_
  obtain rfl := hlater
  cases connected with
  | false => rfl
  | true =>
    refine Prog.Follows.bind ((silent_receiveHeader error).follows fun result ↦ ?_)
    obtain ⟨received, code⟩ := result
    cases received with
    | none => exact (transfers_reportError false code).follows fun _ ↦ rfl
    | some header => exact follows_dispatch header code

theorem follows_serverTask {result : Bool × ErrorCode}
    {following : Prog Firmware ServerMark (Bool × ErrorCode)}
    (hagain : serverTask result = some following) :
    following.Follows annceDiscipline (fun _ later ↦ later = .idle) .idle := by
  unfold serverTask serveAgain at hagain
  split_ifs at hagain
  · exact Option.some.inj hagain ▸ follows_serveRound _
  · exact Option.some.inj hagain ▸ follows_serveRound _

end Engine

/-! ### All sessions -/

section Runs

variable {outside : Surroundings} {station before after : Station} {label : StationLabel}

theorem annceQ_access (firmware : Firmware) {access : Access} (hother : isAnnce access = false) :
    (firmware.access access).annceQ = firmware.annceQ := by
  cases access with
  | sendAnnce shortAddr => simp [isAnnce] at hother
  | _ => rfl

theorem handedOut_concat (marks : List ServerMark) (mark : ServerMark) :
    handedOut (marks ++ [mark]) = handedOut marks ++ handedOutBy mark := by
  simp [handedOut]

/-- The accepted announcements are those handed out, those the server holds and those in the queue,
in this order. -/
structure Balanced (station : Station) (account : Account) : Prop where
  follows : station.thread.prog.Follows annceDiscipline (fun _ later ↦ later = .idle) account
  balance : station.accepted = (handedOut station.thread.marks).map Prod.fst ++ account.held ++
    station.thread.state.annceQ
  nonzero : 0 ∉ station.thread.state.annceQ
  busy : account = .idle ∨ processing station.thread.marks = true

theorem Balanced.initial : Balanced (.initial outside) .idle where
  follows := follows_serveRound .none
  balance := rfl
  nonzero := by simp [Station.initial, Firmware.initial]
  busy := Or.inl rfl

/-- Some account balances. -/
def Accounted (station : Station) : Prop := ∃ account, Balanced station account

/-- A step of the server moves announcements from the queue to the server and from there to a
response. -/
theorem Balanced.task {later : Thread Firmware ServerMark (Bool × ErrorCode)} {account : Account}
    {move : Move} (hbalanced : Balanced station account)
    (hstep : Thread.Step serverTask station.thread move later) :
    Accounted { station with thread := later } := by
  obtain ⟨hfollows, hbalance, hnonzero, hbusy⟩ := hbalanced
  obtain ⟨next, hnext, hdid⟩ := hfollows.step hnonzero
    (fun value following hagain account haccount ↦ haccount ▸ follows_serverTask hagain) hstep
  refine ⟨next, ?_⟩
  cases hdid with
  | asked hask hmarks =>
    rcases hask with ⟨hqueue, rfl⟩ | ⟨held, taken, rfl, hqueue, rfl⟩
    · exact ⟨hnext, by rw [hbalance, hmarks, hqueue], by rwa [hqueue], by rwa [hmarks]⟩
    · refine ⟨hnext, ?_, ?_, Or.inr ?_⟩
      · rw [hbalance, hmarks, hqueue]
        simp [Account.held]
      · rw [hqueue] at hnonzero
        exact fun h ↦ hnonzero (List.mem_append_right _ h)
      · rw [hmarks]
        exact hbusy.resolve_left (by simp)
  | @told mark htell hstate hmarks =>
    cases mark with
    | invoked id request =>
      obtain ⟨rfl, rfl⟩ := htell
      refine ⟨hnext, ?_, by rwa [hstate], Or.inr (by simp [hmarks, processing])⟩
      rw [hbalance, hmarks, hstate, handedOut_concat]
      simp [handedOutBy, Account.held]
    | responded id response sent =>
      obtain ⟨rfl, rfl⟩ := htell
      refine ⟨hnext, ?_, by rwa [hstate], Or.inl rfl⟩
      rw [hbalance, hmarks, hstate, handedOut_concat]
      simp [Account.held]
  | neither haccount hstate hmarks =>
    subst haccount
    exact ⟨hnext, by rw [hbalance, hmarks, hstate], by rwa [hstate], by rwa [hmarks]⟩

theorem Balanced.announce {account : Account} (hbalanced : Balanced station account)
    {shortAddr : UInt16} (hsome : shortAddr ≠ 0) :
    Balanced (station.announce shortAddr) account := by
  obtain ⟨hfollows, hbalance, hnonzero, hbusy⟩ := hbalanced
  refine ⟨hfollows, ?_, ?_, hbusy⟩
  · simp only [Station.announce, Station.onState, Firmware.access, ZigbeeStack.xQueueSend]
    split_ifs
    · rw [hbalance, List.append_assoc]
    · exact hbalance
  · simp only [Station.announce, Station.onState, Firmware.access, ZigbeeStack.xQueueSend]
    split_ifs
    · simpa [hnonzero] using hsome.symm
    · exact hnonzero

theorem Accounted.step (haccounted : Accounted before) (hstep : Station.Step before label after) :
    Accounted after := by
  obtain ⟨account, hbalanced⟩ := haccounted
  cases hstep with
  | task hstep => exact hbalanced.task hstep
  | announce hsome => exact ⟨account, hbalanced.announce hsome⟩
  | callback hother =>
    have hqueue := annceQ_access before.thread.state hother
    exact ⟨account, hbalanced.follows, hqueue.symm ▸ hbalanced.balance,
      hqueue.symm ▸ hbalanced.nonzero, hbalanced.busy⟩
  | outside outside =>
    exact ⟨account, hbalanced.follows, hbalanced.balance, hbalanced.nonzero, hbalanced.busy⟩

/-- Between requests, every accepted announcement has been handed out in a response or is still in
the queue: the accepted announcements are the ones handed out followed by the ones in the queue. The
ones in responses that were written completely come in the same order, each at most once. -/
theorem announcements_accounted (hreach : Reachable Station.Step (.initial outside) station)
    (hidle : processing station.thread.marks = false) :
    station.accepted =
        (handedOut station.thread.marks).map Prod.fst ++ station.thread.state.annceQ ∧
      (delivered station.thread.marks).Sublist station.accepted := by
  have haccounted : Accounted station :=
    hreach.invariant ⟨.idle, .initial⟩ fun _ _ _ hbefore hstep ↦ hbefore.step hstep
  obtain ⟨account, hbalanced⟩ := haccounted
  obtain rfl := hbalanced.busy.resolve_right (by simp [hidle])
  have hbalance : station.accepted =
      (handedOut station.thread.marks).map Prod.fst ++ station.thread.state.annceQ := by
    simpa [Account.held] using hbalanced.balance
  refine ⟨hbalance, ?_⟩
  rw [hbalance]
  exact (List.filter_sublist.map Prod.fst).trans (List.sublist_append_left _ _)

/-- A link that is up, with a client. -/
def clientPresent : Surroundings :=
  ⟨true, ZigbeeStack.ezbErrNone, fun _ ↦ ZigbeeStack.ezbErrNone, 0, 0, 0, 0, fun _ ↦ none, true, true⟩

/-- A device is announced, and a client asks for it. -/
def annceRequested : List StationLabel :=
  [.announce 0x1234, .task .internal, .task (.reads (headerBytes kMagic Api.waitAnnce.id 0)),
    .task .internal, .task .internal, .task .internal, .task .internal, .task .internal]

/-- The response is written. -/
def responseWritten : List StationLabel :=
  [.task (.writes (headerBytes kMagic Api.waitAnnce.id 2)), .task .internal,
    .task (.writes [0x34, 0x12]), .task .internal, .task .internal]

theorem Station.exists_of_execute {start : Station} (labels : List StationLabel)
    (test : Station → Bool)
    (hexecute : (execute Station.next (fun _ _ ↦ true) start labels).any test = true) :
    ∃ station, Reachable Station.Step start station ∧ test station = true := by
  obtain ⟨station, hreach, htest⟩ := Reachable.exists_of_execute Station.Step.of_next labels hexecute
  exact ⟨station, hreach.of_restrict, htest⟩

theorem announcements_accounted_written :
    ∃ station, Reachable Station.Step (.initial clientPresent) station ∧
      handedOut station.thread.marks = [(0x1234, true)] ∧
      station.accepted =
        (handedOut station.thread.marks).map Prod.fst ++ station.thread.state.annceQ := by
  obtain ⟨station, hreach, htest⟩ := Station.exists_of_execute (annceRequested ++ responseWritten)
    (fun station ↦ !processing station.thread.marks &&
      decide (handedOut station.thread.marks = [(0x1234, true)]))
    (by decide +kernel : (execute _ _ (.initial clientPresent) _).any _ = true)
  simp only [Bool.and_eq_true, Bool.not_eq_true', decide_eq_true_eq] at htest
  exact ⟨station, hreach, htest.2, (announcements_accounted hreach htest.1).1⟩

/-- The client has gone when the response is to be written. -/
theorem announcement_lost :
    ∃ station, Reachable Station.Step (.initial clientPresent) station ∧
      processing station.thread.marks = false ∧ 0x1234 ∈ station.accepted ∧
      0x1234 ∉ station.thread.state.annceQ ∧ 0x1234 ∉ delivered station.thread.marks := by
  obtain ⟨station, hreach, htest⟩ := Station.exists_of_execute
    (annceRequested ++ [.task .writeFails, .task .internal])
    (fun station ↦ decide (processing station.thread.marks = false ∧ 0x1234 ∈ station.accepted ∧
      0x1234 ∉ station.thread.state.annceQ ∧ 0x1234 ∉ delivered station.thread.marks))
    (by decide +kernel : (execute _ _ (.initial clientPresent) _).any _ = true)
  exact ⟨station, hreach, of_decide_eq_true htest⟩

end Runs

end ZigbeeRemote.Server
