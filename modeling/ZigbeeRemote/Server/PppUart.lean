import ZigbeeRemote.Foundation.TransitionSystem
import Mathlib.Data.List.Basic

/-!
# The PPP link of the server

The reconnect logic of `zb_rpc_server/main/ppp_uart.c`: the task `reconnect_task`, the event handlers
`on_ip_event` and `on_ppp_status`, and the part of `ppp_uart_start` that creates the task and starts
PPP for the first time. The two tasks share an event group of two bits and a notification count. A
step of the model is one access to these or one call of the network interface, so that everything
can happen between any two of them. Events are posted by the current session and handled in that
order, any time later.

`history` records what the properties speak of and is read by nothing.

* `failure_pending`: a failure that has been handled is not forgotten.
* `restarts_from_dead_phase`: PPP is restarted only from the dead phase, whatever is left of the bit
  from earlier sessions.
* `disconnects_failed_session`: the session that is torn down has itself failed, provided that no
  notification and no failure event of the previous session was left over when it was started;
  `disconnects_new_session` shows what happens otherwise.
-/

set_option autoImplicit false
set_option relaxedAutoImplicit false

namespace ZigbeeRemote.Server.PppUart

open Foundation

/-! ### Events and their handlers -/

/-- The numbers of `esp_netif_ppp.h` that `on_ppp_status` compares with. -/
structure StatusIds where
  phaseDead : Int
  errorNone : Int
  phaseOffset : Int
  internalErrOffset : Int

/-- The events the two handlers are registered for. `ours` is `event_is_for_our_netif`. -/
inductive PppEvent : Type
  | gotIp (ours : Bool)
  | lostIp (ours : Bool)
  | status (eventId : Int)
  deriving DecidableEq

/-- The accesses of the handlers to what they share with `reconnect_task`. -/
inductive Access : Type
  | clearPhaseDead
  | setPhaseDead
  | clearLinkUp
  | setLinkUp
  | notify
  deriving DecidableEq

/-- `request_reconnect`. -/
def requestReconnect : List Access := [.clearLinkUp, .notify]

/-- `on_ip_event`. -/
def onIpEvent (gotIp ours : Bool) : List Access :=
  if !ours then []
  else if gotIp then [.clearPhaseDead, .setLinkUp]
  else requestReconnect

/-- `on_ppp_status`. -/
def onPppStatus (ids : StatusIds) (eventId : Int) : List Access :=
  if eventId = ids.phaseDead then [.setPhaseDead]
  else if eventId = ids.errorNone ∨ ids.phaseOffset ≤ eventId ∧ eventId < ids.internalErrOffset then []
  else requestReconnect

/-- What the handler of an event does. -/
def handler (ids : StatusIds) : PppEvent → List Access
  | .gotIp ours => onIpEvent true ours
  | .lostIp ours => onIpEvent false ours
  | .status eventId => onPppStatus ids eventId

/-- A status is an error unless it is `NETIF_PPP_ERRORNONE`, `NETIF_PPP_PHASE_DEAD` or another phase. -/
def StatusIds.isError (ids : StatusIds) (eventId : Int) : Bool :=
  decide (eventId ≠ ids.errorNone ∧ eventId ≠ ids.phaseDead ∧
    ¬ (ids.phaseOffset ≤ eventId ∧ eventId < ids.internalErrOffset))

/-- The failure events: `LOST_IP` of our interface and the status errors. -/
def PppEvent.isFailure (ids : StatusIds) : PppEvent → Bool
  | .gotIp _ => false
  | .lostIp ours => ours
  | .status eventId => ids.isError eventId

/-- `GOT_IP` of our interface. -/
def PppEvent.isGotIp (event : PppEvent) : Bool := decide (event = .gotIp true)

/-- `NETIF_PPP_PHASE_DEAD`. -/
def PppEvent.isPhaseDead (ids : StatusIds) (event : PppEvent) : Bool :=
  decide (event = .status ids.phaseDead)

/-- The four things a handler can do. -/
theorem handler_cases (ids : StatusIds) (event : PppEvent) :
    (handler ids event = [] ∧ event.isPhaseDead ids = false ∧ event.isFailure ids = false ∧
        event.isGotIp = false) ∨
      (handler ids event = [.clearPhaseDead, .setLinkUp] ∧ event.isPhaseDead ids = false ∧
        event.isFailure ids = false ∧ event.isGotIp = true) ∨
      (handler ids event = requestReconnect ∧ event.isPhaseDead ids = false ∧
        event.isFailure ids = true ∧ event.isGotIp = false) ∨
      (handler ids event = [.setPhaseDead] ∧ event.isPhaseDead ids = true ∧
        event.isFailure ids = false ∧ event.isGotIp = false) := by
  cases event with
  | gotIp ours => cases ours <;> simp [handler, onIpEvent, PppEvent.isPhaseDead,
      PppEvent.isFailure, PppEvent.isGotIp, requestReconnect]
  | lostIp ours => cases ours <;> simp [handler, onIpEvent, PppEvent.isPhaseDead,
      PppEvent.isFailure, PppEvent.isGotIp, requestReconnect]
  | status eventId =>
    by_cases hdead : eventId = ids.phaseDead
    · simp [handler, onPppStatus, PppEvent.isPhaseDead, PppEvent.isFailure, StatusIds.isError,
        PppEvent.isGotIp, hdead]
    · have herror : ids.isError eventId = true ↔ ¬ (eventId = ids.errorNone ∨
          ids.phaseOffset ≤ eventId ∧ eventId < ids.internalErrOffset) := by
        simp only [StatusIds.isError, decide_eq_true_eq, ne_eq, hdead, not_false_eq_true, true_and,
          not_or]
      by_cases hquiet : eventId = ids.errorNone ∨
          ids.phaseOffset ≤ eventId ∧ eventId < ids.internalErrOffset
      · have hnone : ids.isError eventId = false :=
          Bool.eq_false_iff.mpr fun hset ↦ herror.mp hset hquiet
        simp [handler, onPppStatus, PppEvent.isPhaseDead, PppEvent.isFailure, PppEvent.isGotIp,
          hdead, hquiet, hnone]
      · simp [handler, onPppStatus, PppEvent.isPhaseDead, PppEvent.isFailure, PppEvent.isGotIp,
          hdead, hquiet, herror.mpr hquiet]

/-- The handlers ask for a reconnect on the failure events and on no others. -/
theorem handler_eq_requestReconnect_iff (ids : StatusIds) (event : PppEvent) :
    handler ids event = requestReconnect ↔ event.isFailure ids = true := by
  rcases handler_cases ids event with ⟨hdoes, -, hfailure, -⟩ | ⟨hdoes, -, hfailure, -⟩ |
      ⟨hdoes, -, hfailure, -⟩ | ⟨hdoes, -, hfailure, -⟩ <;>
    simp [hdoes, hfailure, requestReconnect]

/-! ### The state of the link -/

/-- The program points of `reconnect_task`: the call it makes next. -/
inductive TaskPoint : Type
  /-- The task has not been created. -/
  | absent
  /-- `ulTaskNotifyTake`. -/
  | take
  /-- `vTaskDelay` and the test of `ppp_uart_is_connected` after it. -/
  | delay
  /-- `esp_netif_action_disconnected`. -/
  | disconnected
  /-- `xEventGroupWaitBits`. -/
  | waitDead
  /-- `xTaskNotifyGive` to itself. -/
  | notifySelf
  /-- `esp_netif_action_stop`. -/
  | stop
  /-- `xEventGroupClearBits`. -/
  | clearDead
  /-- `esp_netif_action_start`. -/
  | start
  /-- `esp_netif_action_connected`. -/
  | connected
  deriving DecidableEq

/-- Between `ulTaskNotifyTake` and the next restart or self-notification. -/
def TaskPoint.acting : TaskPoint → Bool
  | .delay => true
  | .disconnected => true
  | .waitDead => true
  | .notifySelf => true
  | .stop => true
  | .clearDead => true
  | .start => true
  | _ => false

/-- What the properties speak of. -/
inductive Milestone : Type
  | failureHandled (session : ℕ)
  | gotIpHandled (session : ℕ)
  | started (session : ℕ)
  deriving DecidableEq

/-- The state of the link. Sessions are numbered from one by the calls of `esp_netif_action_start`;
zero is the time before the first. -/
structure LinkState where
  /-- `PPP_LINK_UP`. -/
  linkUp : Bool
  /-- `PPP_UART_PHASE_DEAD`. -/
  phaseDead : Bool
  /-- The notification value of `reconnect_task`. -/
  notifications : ℕ
  point : TaskPoint
  /-- The events posted and not yet taken up, each with the session that posted it. -/
  queue : List (PppEvent × ℕ)
  /-- The event being handled, or handled last. -/
  current : PppEvent × ℕ
  /-- What its handler still has to do. -/
  accesses : List Access
  session : ℕ
  /-- Whether the current session has entered the dead phase. -/
  enteredDead : Bool
  /-- The session whose event last set `PPP_UART_PHASE_DEAD`. -/
  deadFrom : ℕ
  history : List Milestone
  deriving DecidableEq

/-- Before `ppp_uart_start` creates the task. -/
def LinkState.initial : LinkState :=
  ⟨false, false, 0, .absent, [], (.gotIp false, 0), [], 0, false, 0, []⟩

/-- `ppp_uart_is_connected`. -/
def LinkState.pppUartIsConnected (state : LinkState) : Bool := state.linkUp

/-- One access of the handler of an event posted by `session`. -/
def LinkState.perform (state : LinkState) (session : ℕ) : Access → LinkState
  | .clearPhaseDead => { state with phaseDead := false }
  | .setPhaseDead => { state with phaseDead := true, deadFrom := session }
  | .clearLinkUp => { state with linkUp := false }
  | .setLinkUp => { state with linkUp := true }
  | .notify =>
    if state.point = .absent then state
    else { state with notifications := state.notifications + 1 }

/-- What is recorded when an event has been handled. -/
def handledMilestone (ids : StatusIds) (event : PppEvent × ℕ) : List Milestone :=
  if event.1.isFailure ids then [.failureHandled event.2]
  else if event.1.isGotIp then [.gotIpHandled event.2]
  else []

/-- The handler of the current event makes its next access. The event has been handled with the last
of them. -/
def LinkState.advance (ids : StatusIds) (state : LinkState) (next : Access) (rest : List Access) :
    LinkState :=
  { state.perform state.current.2 next with
    accesses := rest
    history := if rest = [] then state.history ++ handledMilestone ids state.current
      else state.history }

/-- The steps of the system. -/
inductive Happening : Type
  | createTask
  | firstStart
  | post (event : PppEvent)
  | takeUp
  | access
  | task (point : TaskPoint)
  deriving DecidableEq

/-- One step. -/
inductive Step (ids : StatusIds) : LinkState → Happening → LinkState → Prop
  /-- `xTaskCreate` in `ppp_uart_start`. -/
  | createTask {state : LinkState} (hpoint : state.point = .absent) :
      Step ids state .createTask { state with point := .take }
  /-- `esp_netif_action_start` in `ppp_uart_start`. -/
  | firstStart {state : LinkState} (hpoint : state.point ≠ .absent) (hsession : state.session = 0) :
      Step ids state .firstStart
        { state with session := 1, history := state.history ++ [.started 1] }
  /-- The current session posts an event. -/
  | post {state : LinkState} (event : PppEvent) (hsession : state.session ≠ 0) :
      Step ids state (.post event)
        { state with
          queue := state.queue ++ [(event, state.session)]
          enteredDead := state.enteredDead || event.isPhaseDead ids }
  /-- The event task calls the handler of the next event. -/
  | takeUp {state : LinkState} {event : PppEvent × ℕ} {rest : List (PppEvent × ℕ)}
      (hidle : state.accesses = []) (hqueue : state.queue = event :: rest) :
      Step ids state .takeUp
        { state with queue := rest, current := event, accesses := handler ids event.1 }
  /-- The handler goes on. -/
  | access {state : LinkState} {next : Access} {rest : List Access}
      (haccesses : state.accesses = next :: rest) :
      Step ids state .access (state.advance ids next rest)
  | take {state : LinkState} (hpoint : state.point = .take) (hsome : 0 < state.notifications) :
      Step ids state (.task .take) { state with point := .delay, notifications := 0 }
  | delay {state : LinkState} (hpoint : state.point = .delay) :
      Step ids state (.task .delay)
        { state with point := if state.pppUartIsConnected then .take else .disconnected }
  | disconnected {state : LinkState} (hpoint : state.point = .disconnected) :
      Step ids state (.task .disconnected) { state with point := .waitDead }
  /-- The bit is seen before the timeout. -/
  | sawDead {state : LinkState} (hpoint : state.point = .waitDead) (hdead : state.phaseDead = true) :
      Step ids state (.task .waitDead) { state with point := .stop }
  | timedOut {state : LinkState} (hpoint : state.point = .waitDead)
      (hdead : state.phaseDead = false) :
      Step ids state (.task .waitDead) { state with point := .notifySelf }
  | notifySelf {state : LinkState} (hpoint : state.point = .notifySelf) :
      Step ids state (.task .notifySelf)
        { state with point := .take, notifications := state.notifications + 1 }
  | stop {state : LinkState} (hpoint : state.point = .stop) :
      Step ids state (.task .stop) { state with point := .clearDead }
  | clearDead {state : LinkState} (hpoint : state.point = .clearDead) :
      Step ids state (.task .clearDead) { state with point := .start, phaseDead := false }
  | start {state : LinkState} (hpoint : state.point = .start) :
      Step ids state (.task .start)
        { state with
          point := .connected
          session := state.session + 1
          enteredDead := false
          history := state.history ++ [.started (state.session + 1)] }
  | connected {state : LinkState} (hpoint : state.point = .connected) :
      Step ids state (.task .connected) { state with point := .take }

/-- What the task does at a program point; `none` when it waits or does not exist. -/
def LinkState.proceed (state : LinkState) : Option LinkState :=
  match state.point with
  | .absent => none
  | .take =>
    if 0 < state.notifications then some { state with point := .delay, notifications := 0 } else none
  | .delay =>
    some { state with point := if state.pppUartIsConnected then .take else .disconnected }
  | .disconnected => some { state with point := .waitDead }
  | .waitDead => some { state with point := if state.phaseDead then .stop else .notifySelf }
  | .notifySelf => some { state with point := .take, notifications := state.notifications + 1 }
  | .stop => some { state with point := .clearDead }
  | .clearDead => some { state with point := .start, phaseDead := false }
  | .start =>
    some { state with
      point := .connected
      session := state.session + 1
      enteredDead := false
      history := state.history ++ [.started (state.session + 1)] }
  | .connected => some { state with point := .take }

/-- The steps as a function, to compute runs with. -/
def LinkState.next (ids : StatusIds) (state : LinkState) : Happening → Option LinkState
  | .createTask => if state.point = .absent then some { state with point := .take } else none
  | .firstStart =>
    if state.point ≠ .absent ∧ state.session = 0 then
      some { state with session := 1, history := state.history ++ [.started 1] }
    else none
  | .post event =>
    if state.session ≠ 0 then
      some { state with
        queue := state.queue ++ [(event, state.session)]
        enteredDead := state.enteredDead || event.isPhaseDead ids }
    else none
  | .takeUp =>
    match state.accesses, state.queue with
    | [], event :: rest =>
      some { state with queue := rest, current := event, accesses := handler ids event.1 }
    | _, _ => none
  | .access =>
    match state.accesses with
    | next :: rest => some (state.advance ids next rest)
    | [] => none
  | .task point => if state.point = point then state.proceed else none

theorem Step.of_proceed {ids : StatusIds} {before after : LinkState}
    (hproceed : before.proceed = some after) : Step ids before (.task before.point) after := by
  unfold LinkState.proceed at hproceed
  cases hpoint : before.point <;> simp only [hpoint] at hproceed
  case absent => simp at hproceed
  case take =>
    split_ifs at hproceed with hsome
    exact Option.some.inj hproceed ▸ .take hpoint hsome
  case delay => exact Option.some.inj hproceed ▸ .delay hpoint
  case disconnected => exact Option.some.inj hproceed ▸ .disconnected hpoint
  case waitDead =>
    by_cases hdead : before.phaseDead = true
    · rw [if_pos hdead] at hproceed
      exact Option.some.inj hproceed ▸ .sawDead hpoint hdead
    · rw [if_neg hdead] at hproceed
      exact Option.some.inj hproceed ▸ .timedOut hpoint (by simpa using hdead)
  case notifySelf => exact Option.some.inj hproceed ▸ .notifySelf hpoint
  case stop => exact Option.some.inj hproceed ▸ .stop hpoint
  case clearDead => exact Option.some.inj hproceed ▸ .clearDead hpoint
  case start => exact Option.some.inj hproceed ▸ .start hpoint
  case connected => exact Option.some.inj hproceed ▸ .connected hpoint

theorem Step.of_next {ids : StatusIds} {before after : LinkState} {label : Happening}
    (hnext : before.next ids label = some after) : Step ids before label after := by
  cases label with
  | createTask =>
    simp only [LinkState.next] at hnext
    split_ifs at hnext with hpoint
    exact Option.some.inj hnext ▸ .createTask hpoint
  | firstStart =>
    simp only [LinkState.next] at hnext
    split_ifs at hnext with hready
    exact Option.some.inj hnext ▸ .firstStart hready.1 hready.2
  | post event =>
    simp only [LinkState.next] at hnext
    split_ifs at hnext with hsession
    exact Option.some.inj hnext ▸ .post event hsession
  | takeUp =>
    simp only [LinkState.next] at hnext
    split at hnext
    · rename_i hidle hqueue
      exact Option.some.inj hnext ▸ .takeUp hidle hqueue
    · simp at hnext
  | access =>
    simp only [LinkState.next] at hnext
    split at hnext
    · rename_i haccesses
      exact Option.some.inj hnext ▸ .access haccesses
    · simp at hnext
  | task point =>
    simp only [LinkState.next] at hnext
    split_ifs at hnext with hpoint
    exact hpoint ▸ .of_proceed hnext

/-! ### What holds of every run -/

section Orderly

variable {ids : StatusIds} {state before after : LinkState} {label : Happening}

/-- Nothing happens before the first session, the task exists from then on, and the handler of an
event goes through its accesses in order. -/
structure Orderly (ids : StatusIds) (state : LinkState) : Prop where
  created : state.point = .absent → state.session = 0
  quiet : state.session = 0 → state.queue = [] ∧ state.accesses = [] ∧ state.notifications = 0 ∧
    state.point.acting = false ∧ state.phaseDead = false ∧ state.enteredDead = false
  inOrder : state.accesses <:+ handler ids state.current.1

@[simp] theorem advance_session (next : Access) (rest : List Access) :
    (state.advance ids next rest).session = state.session := by
  cases next <;> simp only [LinkState.advance, LinkState.perform]
  split_ifs <;> rfl

@[simp] theorem advance_point (next : Access) (rest : List Access) :
    (state.advance ids next rest).point = state.point := by
  cases next <;> simp only [LinkState.advance, LinkState.perform]
  split_ifs <;> rfl

@[simp] theorem advance_current (next : Access) (rest : List Access) :
    (state.advance ids next rest).current = state.current := by
  cases next <;> simp only [LinkState.advance, LinkState.perform]
  split_ifs <;> rfl

theorem Orderly.initial : Orderly ids .initial :=
  ⟨fun _ ↦ rfl, fun _ ↦ ⟨rfl, rfl, rfl, rfl, rfl, rfl⟩, List.nil_suffix⟩

theorem Orderly.step (horderly : Orderly ids before) (hstep : Step ids before label after) :
    Orderly ids after := by
  obtain ⟨hcreated, hquiet, horder⟩ := horderly
  cases hstep with
  | createTask hpoint =>
    exact ⟨by simp, fun h ↦ by simpa [hpoint, TaskPoint.acting] using hquiet h, horder⟩
  | firstStart hpoint hsession => exact ⟨fun h ↦ absurd h hpoint, by simp, horder⟩
  | post event hsession => exact ⟨hcreated, fun h ↦ absurd h hsession, horder⟩
  | takeUp hidle hqueue =>
    refine ⟨hcreated, fun h ↦ ?_, List.suffix_rfl⟩
    simp [(hquiet h).1] at hqueue
  | access haccesses =>
    refine ⟨by simpa using hcreated, fun h ↦ ?_, ?_⟩
    · simp only [advance_session] at h
      simp [(hquiet h).2.1] at haccesses
    · rw [haccesses] at horder
      rw [advance_current]
      exact (List.suffix_cons _ _).trans horder
  | take hpoint hsome =>
    refine ⟨by simp, fun h ↦ ?_, horder⟩
    have hnone := (hquiet h).2.2.1
    omega
  | delay hpoint =>
    refine ⟨fun h ↦ ?_, fun h ↦ ?_, horder⟩
    · simp only at h
      split_ifs at h
    · have hacting := (hquiet h).2.2.2.1
      simp [hpoint, TaskPoint.acting] at hacting
  | _ hpoint =>
    all_goals
      refine ⟨by simp, fun h ↦ ?_, horder⟩
      have hacting := hquiet
      simp_all [TaskPoint.acting]

/-- The five things the handler of an event can do next. -/
theorem Orderly.advance_cases (horderly : Orderly ids state) {next : Access} {rest : List Access}
    (haccesses : state.accesses = next :: rest) :
    (state.accesses = [.clearPhaseDead, .setLinkUp] ∧ state.advance ids next rest =
        { state with phaseDead := false, accesses := [.setLinkUp] }) ∨
      (state.accesses = [.setLinkUp] ∧ state.advance ids next rest =
        { state with
          linkUp := true
          accesses := []
          history := state.history ++ [.gotIpHandled state.current.2] }) ∨
      (state.accesses = [.clearLinkUp, .notify] ∧ state.advance ids next rest =
        { state with linkUp := false, accesses := [.notify] }) ∨
      (state.accesses = [.notify] ∧ state.advance ids next rest =
        { state with
          notifications := state.notifications + 1
          accesses := []
          history := state.history ++ [.failureHandled state.current.2] }) ∨
      (state.accesses = [.setPhaseDead] ∧ state.advance ids next rest =
        { state with phaseDead := true, deadFrom := state.current.2, accesses := [] }) := by
  have hexists : state.point ≠ .absent := by
    intro habsent
    simp [(horderly.quiet (horderly.created habsent)).2.1] at haccesses
  have hsuffix := horderly.inOrder
  rw [haccesses] at hsuffix ⊢
  rcases handler_cases ids state.current.1 with
      ⟨hdoes, -, -, -⟩ | ⟨hdoes, -, hfailure, hgot⟩ | ⟨hdoes, -, hfailure, -⟩ |
        ⟨hdoes, -, hfailure, hgot⟩
  · rw [hdoes] at hsuffix
    simp at hsuffix
  · rw [hdoes] at hsuffix
    simp only [List.suffix_cons_iff, List.suffix_nil, List.cons.injEq, reduceCtorEq, or_false]
      at hsuffix
    rcases hsuffix with ⟨rfl, rfl⟩ | ⟨rfl, rfl⟩
    · exact Or.inl ⟨rfl, rfl⟩
    · refine Or.inr (Or.inl ⟨rfl, ?_⟩)
      simp [LinkState.advance, LinkState.perform, handledMilestone, hfailure, hgot]
  · rw [hdoes, requestReconnect] at hsuffix
    simp only [List.suffix_cons_iff, List.suffix_nil, List.cons.injEq, reduceCtorEq, or_false]
      at hsuffix
    rcases hsuffix with ⟨rfl, rfl⟩ | ⟨rfl, rfl⟩
    · exact Or.inr (Or.inr (Or.inl ⟨rfl, rfl⟩))
    · refine Or.inr (Or.inr (Or.inr (Or.inl ⟨rfl, ?_⟩)))
      simp [LinkState.advance, LinkState.perform, handledMilestone, hfailure, hexists]
  · rw [hdoes] at hsuffix
    simp only [List.suffix_cons_iff, List.suffix_nil, List.cons.injEq, reduceCtorEq, or_false]
      at hsuffix
    obtain ⟨rfl, rfl⟩ := hsuffix
    refine Or.inr (Or.inr (Or.inr (Or.inr ⟨rfl, ?_⟩)))
    simp [LinkState.advance, LinkState.perform, handledMilestone, hfailure, hgot]

end Orderly

/-! ### No failure is forgotten -/

section Failures

variable {ids : StatusIds} {state before after : LinkState} {label : Happening}

/-- Some failure event has been handled after the most recent start of PPP and after the most recent
`GOT_IP`. -/
def FailureOutstanding (history : List Milestone) : Prop :=
  ∃ session earlier later, history = earlier ++ .failureHandled session :: later ∧
    ∀ milestone ∈ later, ∀ n, milestone ≠ .started n ∧ milestone ≠ .gotIpHandled n

/-- There are no other milestones: the last one decides. -/
theorem failureOutstanding_iff (history : List Milestone) :
    FailureOutstanding history ↔ ∃ session, history.getLast? = some (.failureHandled session) := by
  constructor
  · rintro ⟨session, earlier, later, rfl, hlater⟩
    rcases List.eq_nil_or_concat later with rfl | ⟨others, last, rfl⟩
    · exact ⟨session, by simp⟩
    · cases last with
      | failureHandled other =>
        refine ⟨other, ?_⟩
        rw [List.concat_eq_append, ← List.cons_append, ← List.append_assoc, List.getLast?_concat]
      | gotIpHandled other => exact absurd rfl (hlater _ (by simp) other).2
      | started other => exact absurd rfl (hlater _ (by simp) other).1
  · rintro ⟨session, hlast⟩
    obtain ⟨earlier, rfl⟩ := List.getLast?_eq_some_iff.mp hlast
    exact ⟨session, earlier, [], rfl, by simp⟩

/-- The link is down while a failure is outstanding, and the task knows of it. -/
structure Remembers (ids : StatusIds) (state : LinkState) : Prop where
  orderly : Orderly ids state
  notifying : state.accesses = [.notify] → state.linkUp = false
  linkDown : FailureOutstanding state.history → state.linkUp = false
  pending : FailureOutstanding state.history →
    0 < state.notifications ∨ state.point.acting = true

theorem Remembers.initial : Remembers ids .initial where
  orderly := .initial
  notifying := fun _ ↦ rfl
  linkDown := fun _ ↦ rfl
  pending := fun h ↦ by simp [failureOutstanding_iff, LinkState.initial] at h

theorem not_outstanding_concat {history : List Milestone} {milestone : Milestone}
    (hother : ∀ session, milestone ≠ .failureHandled session) :
    ¬ FailureOutstanding (history ++ [milestone]) := by
  rw [failureOutstanding_iff, List.getLast?_concat]
  rintro ⟨session, hlast⟩
  exact hother session (Option.some.inj hlast)

theorem Remembers.step (hremembers : Remembers ids before) (hstep : Step ids before label after) :
    Remembers ids after := by
  have horderly := hremembers.orderly.step hstep
  obtain ⟨hbefore, hnotifying, hdown, hpending⟩ := hremembers
  cases hstep with
  | createTask hpoint =>
    refine ⟨horderly, hnotifying, hdown, fun h ↦ ?_⟩
    have hnow := hpending h
    simpa [hpoint, TaskPoint.acting] using hnow
  | firstStart hpoint hsession =>
    exact ⟨horderly, hnotifying, fun h ↦ absurd h (not_outstanding_concat (by simp)),
      fun h ↦ absurd h (not_outstanding_concat (by simp))⟩
  | post event hsession => exact ⟨horderly, hnotifying, hdown, hpending⟩
  | @takeUp event rest hidle hqueue =>
    refine ⟨horderly, fun h ↦ ?_, hdown, hpending⟩
    -- No handler starts with the notification.
    rcases handler_cases ids event.1 with ⟨hdoes, -⟩ | ⟨hdoes, -⟩ | ⟨hdoes, -⟩ | ⟨hdoes, -⟩ <;>
      simp [hdoes, requestReconnect] at h
  | access haccesses =>
    rcases hbefore.advance_cases haccesses with
        ⟨hdoes, hafter⟩ | ⟨hdoes, hafter⟩ | ⟨hdoes, hafter⟩ | ⟨hdoes, hafter⟩ | ⟨hdoes, hafter⟩ <;>
      rw [hafter] at horderly ⊢
    · exact ⟨horderly, by simp, hdown, hpending⟩
    · exact ⟨horderly, by simp, fun h ↦ absurd h (not_outstanding_concat (by simp)),
        fun h ↦ absurd h (not_outstanding_concat (by simp))⟩
    · exact ⟨horderly, fun _ ↦ rfl, fun _ ↦ rfl, hpending⟩
    · exact ⟨horderly, by simp, fun _ ↦ hnotifying hdoes, fun _ ↦ Or.inl (Nat.succ_pos _)⟩
    · exact ⟨horderly, by simp, hdown, hpending⟩
  | take hpoint hsome => exact ⟨horderly, hnotifying, hdown, fun _ ↦ Or.inr rfl⟩
  | delay hpoint =>
    refine ⟨horderly, hnotifying, hdown, fun h ↦ Or.inr ?_⟩
    simp [LinkState.pppUartIsConnected, hdown h, TaskPoint.acting]
  | disconnected hpoint => exact ⟨horderly, hnotifying, hdown, fun _ ↦ Or.inr rfl⟩
  | sawDead hpoint hdead => exact ⟨horderly, hnotifying, hdown, fun _ ↦ Or.inr rfl⟩
  | timedOut hpoint hdead => exact ⟨horderly, hnotifying, hdown, fun _ ↦ Or.inr rfl⟩
  | notifySelf hpoint => exact ⟨horderly, hnotifying, hdown, fun _ ↦ Or.inl (Nat.succ_pos _)⟩
  | stop hpoint => exact ⟨horderly, hnotifying, hdown, fun _ ↦ Or.inr rfl⟩
  | clearDead hpoint => exact ⟨horderly, hnotifying, hdown, fun _ ↦ Or.inr rfl⟩
  | start hpoint =>
    exact ⟨horderly, hnotifying, fun h ↦ absurd h (not_outstanding_concat (by simp)),
      fun h ↦ absurd h (not_outstanding_concat (by simp))⟩
  | connected hpoint =>
    refine ⟨horderly, hnotifying, hdown, fun h ↦ ?_⟩
    have hnow := hpending h
    simpa [hpoint, TaskPoint.acting] using hnow

/-- No failure is forgotten: while a handled failure is outstanding, the task has a notification
pending or is on its way to the next restart or self-notification; it is not parked with a count of
zero. -/
theorem failure_pending (hreach : Reachable (Step ids) .initial state)
    (houtstanding : FailureOutstanding state.history) :
    (0 < state.notifications ∨ state.point.acting = true) ∧
      ¬ (state.point = .take ∧ state.notifications = 0) := by
  have hremembers : Remembers ids state :=
    hreach.invariant .initial fun _ _ _ hbefore hstep ↦ hbefore.step hstep
  have hpending := hremembers.pending houtstanding
  refine ⟨hpending, ?_⟩
  rintro ⟨hpoint, hnone⟩
  simp [hpoint, hnone, TaskPoint.acting] at hpending

/-- The numbers of ESP-IDF. -/
def StatusIds.espIdf : StatusIds := ⟨0x100, 0, 0x100, 0x200⟩

/-- The first session has lost its address, and the task has been told. -/
def lostIpState : LinkState :=
  ⟨false, false, 1, .take, [], (.lostIp true, 1), [], 1, false, 0, [.started 1, .failureHandled 1]⟩

theorem reachable_lostIpState : Reachable (Step .espIdf) .initial lostIpState :=
  (Reachable.of_execute Step.of_next (fun _ _ ↦ true) [.createTask, .firstStart,
    .post (.lostIp true), .takeUp, .access, .access] (.refl _) (by decide)).of_restrict

theorem failure_pending_lostIp :
    (0 < lostIpState.notifications ∨ lostIpState.point.acting = true) ∧
      ¬ (lostIpState.point = .take ∧ lostIpState.notifications = 0) :=
  failure_pending reachable_lostIpState ⟨1, [.started 1], [], rfl, by simp⟩

end Failures

/-! ### Restarts happen in the dead phase -/

section DeadPhase

variable {ids : StatusIds} {state before after : LinkState} {label : Happening}

/-- What the network interface promises: a session posts `NETIF_PPP_PHASE_DEAD` once, when it enters
the dead phase. -/
def deadOnce (ids : StatusIds) (state : LinkState) : Happening → Bool
  | .post event => !(event.isPhaseDead ids && state.enteredDead)
  | _ => true

/-- The events of the dead phase that have not had their effect yet: one may be in the handler, the
others are queued. -/
def pendingDead (ids : StatusIds) (accesses : List Access) (queue : List (PppEvent × ℕ)) : ℕ :=
  accesses.count .setPhaseDead + queue.countP fun event ↦ event.1.isPhaseDead ids

theorem pendingDead_concat (accesses : List Access) (queue : List (PppEvent × ℕ))
    (event : PppEvent × ℕ) :
    pendingDead ids accesses (queue ++ [event]) =
      pendingDead ids accesses queue + if event.1.isPhaseDead ids then 1 else 0 := by
  rw [pendingDead, pendingDead, List.countP_append, List.countP_singleton, Nat.add_assoc]

theorem setPhaseDead_mem_handler {event : PppEvent} (hmember : .setPhaseDead ∈ handler ids event) :
    event.isPhaseDead ids = true := by
  rcases handler_cases ids event with ⟨hdoes, hdead, -⟩ | ⟨hdoes, hdead, -⟩ | ⟨hdoes, hdead, -⟩ |
      ⟨hdoes, hdead, -⟩ <;>
    simp_all [requestReconnect]

theorem pendingDead_handler (event : PppEvent × ℕ) (queue : List (PppEvent × ℕ)) :
    pendingDead ids (handler ids event.1) queue = pendingDead ids [] (event :: queue) := by
  have hcount : (handler ids event.1).count .setPhaseDead =
      if event.1.isPhaseDead ids then 1 else 0 := by
    rcases handler_cases ids event.1 with ⟨hdoes, hdead, -⟩ | ⟨hdoes, hdead, -⟩ |
        ⟨hdoes, hdead, -⟩ | ⟨hdoes, hdead, -⟩ <;>
      simp [hdoes, hdead, requestReconnect]
  rw [pendingDead, pendingDead, hcount, List.countP_cons, List.count_nil]
  omega

/-- The program points at which the task relies on the dead phase. -/
def TaskPoint.leaving : TaskPoint → Bool
  | .stop => true
  | .clearDead => true
  | .start => true
  | _ => false

/-- The bit and the events that set it belong to the current session, and there is at most one of
them. -/
structure Fresh (ids : StatusIds) (state : LinkState) : Prop where
  orderly : Orderly ids state
  notEntered : state.enteredDead = false →
    pendingDead ids state.accesses state.queue = 0 ∧ state.phaseDead = false
  spent : state.phaseDead = true → pendingDead ids state.accesses state.queue = 0
  once : pendingDead ids state.accesses state.queue ≤ 1
  leaving : state.point.leaving = true →
    state.enteredDead = true ∧ pendingDead ids state.accesses state.queue = 0
  cleared : state.point = .start → state.phaseDead = false
  queued : ∀ event ∈ state.queue, event.1.isPhaseDead ids = true → event.2 = state.session
  handling : .setPhaseDead ∈ state.accesses → state.current.2 = state.session
  owner : state.phaseDead = true → state.deadFrom = state.session

theorem Fresh.initial : Fresh ids .initial where
  orderly := .initial
  notEntered := fun _ ↦ ⟨rfl, rfl⟩
  spent := fun _ ↦ rfl
  once := Nat.zero_le 1
  leaving := fun h ↦ by simp [LinkState.initial, TaskPoint.leaving] at h
  cleared := fun _ ↦ rfl
  queued := fun event hevent ↦ by simp [LinkState.initial] at hevent
  handling := fun h ↦ by simp [LinkState.initial] at h
  owner := fun h ↦ by simp [LinkState.initial] at h

/-- A step of the task that leaves the bit, the events and the session alone. -/
theorem Fresh.move {point : TaskPoint} {notifications : ℕ} (hfresh : Fresh ids before)
    (horderly : Orderly ids { before with point := point, notifications := notifications })
    (hleaving : point.leaving = true →
      before.enteredDead = true ∧ pendingDead ids before.accesses before.queue = 0)
    (hcleared : point = .start → before.phaseDead = false) :
    Fresh ids { before with point := point, notifications := notifications } :=
  ⟨horderly, hfresh.notEntered, hfresh.spent, hfresh.once, hleaving, hcleared, hfresh.queued,
    hfresh.handling, hfresh.owner⟩

theorem Fresh.post (hfresh : Fresh ids before) {event : PppEvent}
    (hpromise : event.isPhaseDead ids = true → before.enteredDead = false)
    (horderly : Orderly ids { before with
      queue := before.queue ++ [(event, before.session)]
      enteredDead := before.enteredDead || event.isPhaseDead ids }) :
    Fresh ids { before with
      queue := before.queue ++ [(event, before.session)]
      enteredDead := before.enteredDead || event.isPhaseDead ids } := by
  obtain ⟨-, hnotEntered, hspent, honce, hleaving, hcleared, hqueued, hhandling, howner⟩ := hfresh
  have hqueued' : ∀ other ∈ before.queue ++ [(event, before.session)],
      other.1.isPhaseDead ids = true → other.2 = before.session := by
    intro other hother hdead
    rcases List.mem_append.mp hother with hold | hnew
    · exact hqueued other hold hdead
    · rw [List.mem_singleton.mp hnew]
  refine ⟨horderly, ?_, ?_, ?_, ?_, hcleared, hqueued', hhandling, howner⟩ <;>
    simp only [pendingDead_concat] <;> grind

theorem Fresh.access (hfresh : Fresh ids before) {next : Access} {rest : List Access}
    (haccesses : before.accesses = next :: rest)
    (horderly : Orderly ids (before.advance ids next rest)) :
    Fresh ids (before.advance ids next rest) := by
  have hcases := hfresh.orderly.advance_cases haccesses
  obtain ⟨-, hnotEntered, hspent, honce, hleaving, hcleared, hqueued, hhandling, howner⟩ := hfresh
  rcases hcases with
      ⟨hdoes, hafter⟩ | ⟨hdoes, hafter⟩ | ⟨hdoes, hafter⟩ | ⟨hdoes, hafter⟩ | ⟨hdoes, hafter⟩ <;>
    rw [hafter] at horderly ⊢ <;> rw [hdoes] at hnotEntered hspent honce hleaving hhandling
  all_goals
    refine ⟨horderly, ?_, ?_, ?_, ?_, ?_, hqueued, ?_, ?_⟩ <;>
      simp only [pendingDead] at * <;> grind [TaskPoint.leaving]

theorem Fresh.step (hfresh : Fresh ids before) (hstep : Step ids before label after)
    (hpromise : deadOnce ids before label = true) : Fresh ids after := by
  have horderly := hfresh.orderly.step hstep
  cases hstep with
  | createTask hpoint => exact hfresh.move horderly (by simp [TaskPoint.leaving]) (by simp)
  | firstStart hpoint hsession =>
    obtain ⟨hqueue, haccesses, -, -, hdead, -⟩ := hfresh.orderly.quiet hsession
    exact ⟨horderly, hfresh.notEntered, hfresh.spent, hfresh.once, hfresh.leaving,
      hfresh.cleared, by simp [hqueue], by simp [haccesses], by simp [hdead]⟩
  | post event hsession => exact hfresh.post (fun hdead ↦ by simpa [deadOnce, hdead] using hpromise) horderly
  | @takeUp event rest hidle hqueue =>
    obtain ⟨-, hnotEntered, hspent, honce, hleaving, hcleared, hqueued, -, howner⟩ := hfresh
    rw [hqueue] at hnotEntered hspent honce hleaving hqueued
    rw [hidle] at hnotEntered hspent honce hleaving
    rw [← pendingDead_handler] at hnotEntered hspent honce hleaving
    exact ⟨horderly, hnotEntered, hspent, honce, hleaving, hcleared,
      fun other hother ↦ hqueued other (List.mem_cons_of_mem event hother),
      fun hmember ↦ hqueued event List.mem_cons_self (setPhaseDead_mem_handler hmember), howner⟩
  | access haccesses => exact hfresh.access haccesses horderly
  | take hpoint hsome => exact hfresh.move horderly (by simp [TaskPoint.leaving]) (by simp)
  | delay hpoint =>
    refine hfresh.move horderly ?_ ?_
    · split_ifs <;> simp [TaskPoint.leaving]
    · split_ifs <;> simp
  | disconnected hpoint => exact hfresh.move horderly (by simp [TaskPoint.leaving]) (by simp)
  | sawDead hpoint hdead =>
    refine hfresh.move horderly (fun _ ↦ ⟨?_, hfresh.spent hdead⟩) (by simp)
    by_contra hnot
    simp [(hfresh.notEntered (by simpa using hnot)).2] at hdead
  | timedOut hpoint hdead => exact hfresh.move horderly (by simp [TaskPoint.leaving]) (by simp)
  | notifySelf hpoint => exact hfresh.move horderly (by simp [TaskPoint.leaving]) (by simp)
  | stop hpoint =>
    exact hfresh.move horderly (fun _ ↦ hfresh.leaving (by simp [hpoint, TaskPoint.leaving]))
      (by simp)
  | clearDead hpoint =>
    have hleaving := hfresh.leaving (by simp [hpoint, TaskPoint.leaving])
    exact ⟨horderly, fun h ↦ ⟨(hfresh.notEntered h).1, rfl⟩, fun _ ↦ hleaving.2, hfresh.once,
      fun _ ↦ hleaving, fun _ ↦ rfl, hfresh.queued, hfresh.handling, by simp⟩
  | start hpoint =>
    -- Nothing of the old session that could set the bit is left.
    have hnone := (hfresh.leaving (by simp [hpoint, TaskPoint.leaving])).2
    have hclear := hfresh.cleared hpoint
    have hcounts := hnone
    rw [pendingDead, Nat.add_eq_zero_iff, List.count_eq_zero, List.countP_eq_zero] at hcounts
    exact ⟨horderly, fun _ ↦ ⟨hnone, hclear⟩, fun _ ↦ hnone, hfresh.once,
      by simp [TaskPoint.leaving], by simp,
      fun event hevent hdead ↦ absurd hdead (hcounts.2 event hevent),
      fun hmember ↦ absurd hmember hcounts.1, by simp [hclear]⟩
  | connected hpoint => exact hfresh.move horderly (by simp [TaskPoint.leaving]) (by simp)

/-- PPP is restarted only from the dead phase: when the task calls `esp_netif_action_stop` or
`esp_netif_action_start`, the current session has entered the dead phase, and a bit that ends its
wait was set by an event of the current session. Assumes: each session posts the event of the dead
phase once, on entering it. -/
theorem restarts_from_dead_phase
    (hreach : Reachable (restrict (Step ids) fun state label ↦ deadOnce ids state label = true)
      .initial state) :
    (∀ after, Step ids state (.task .stop) after → state.enteredDead = true) ∧
      (∀ after, Step ids state (.task .start) after → state.enteredDead = true) ∧
      (∀ after, Step ids state (.task .waitDead) after → after.point = .stop →
        state.deadFrom = state.session) := by
  have hfresh : Fresh ids state :=
    hreach.invariant .initial fun _ _ _ hbefore hstep ↦ hbefore.step hstep.1 hstep.2
  refine ⟨fun after hstep ↦ ?_, fun after hstep ↦ ?_, fun after hstep hsaw ↦ ?_⟩
  · cases hstep with
    | stop hpoint => exact (hfresh.leaving (by simp [hpoint, TaskPoint.leaving])).1
  · cases hstep with
    | start hpoint => exact (hfresh.leaving (by simp [hpoint, TaskPoint.leaving])).1
  · cases hstep with
    | sawDead hpoint hdead => exact hfresh.owner hdead
    | timedOut hpoint hdead => simp at hsaw

/-- The first session has failed and entered the dead phase, and the task has seen it. -/
def deadState : LinkState :=
  ⟨false, true, 0, .stop, [], (.status 0x100, 1), [], 1, true, 1, [.started 1, .failureHandled 1]⟩

theorem restarts_from_dead_phase_first :
    deadState.enteredDead = true ∧ deadState.deadFrom = deadState.session := by
  have hreach : Reachable
      (restrict (Step .espIdf) fun state label ↦ deadOnce .espIdf state label = true)
      .initial deadState :=
    .of_execute Step.of_next (deadOnce .espIdf) [.createTask, .firstStart, .post (.lostIp true),
      .takeUp, .access, .access, .task .take, .task .delay, .task .disconnected,
      .post (.status 0x100), .takeUp, .access, .task .waitDead] (.refl _) (by decide)
  exact ⟨(restarts_from_dead_phase hreach).1 _ (.stop rfl), rfl⟩

end DeadPhase

/-! ### The session that is torn down -/

section TearDown

variable {ids : StatusIds} {state before after : LinkState} {label : Happening}

/-- Nothing of the ended session is left when the next one is started: no notification is pending
and no failure event is waiting or being handled. -/
def cleanRestart (ids : StatusIds) (state : LinkState) : Happening → Bool
  | .task .start => state.notifications == 0 && !state.accesses.contains .notify &&
      state.queue.all fun event ↦ !event.1.isFailure ids
  | _ => true

/-- The failures on their way to the task, and those it acts on, are the current session's. -/
structure OwnFailures (ids : StatusIds) (state : LinkState) : Prop where
  orderly : Orderly ids state
  queued : ∀ event ∈ state.queue, event.1.isFailure ids = true → event.2 = state.session
  handling : .notify ∈ state.accesses → state.current.2 = state.session
  notified : 0 < state.notifications → .failureHandled state.session ∈ state.history
  acting : state.point.acting = true → .failureHandled state.session ∈ state.history

theorem OwnFailures.initial : OwnFailures ids .initial where
  orderly := .initial
  queued := fun event hevent ↦ by simp [LinkState.initial] at hevent
  handling := fun h ↦ by simp [LinkState.initial] at h
  notified := fun h ↦ by simp [LinkState.initial] at h
  acting := fun h ↦ by simp [LinkState.initial, TaskPoint.acting] at h

theorem notify_mem_handler {event : PppEvent} (hmember : .notify ∈ handler ids event) :
    event.isFailure ids = true := by
  rcases handler_cases ids event with ⟨hdoes, -⟩ | ⟨hdoes, -⟩ | ⟨-, -, hfailure, -⟩ | ⟨hdoes, -⟩
  · simp [hdoes] at hmember
  · simp [hdoes] at hmember
  · exact hfailure
  · simp [hdoes] at hmember

/-- A step of the task that leaves the events and the session alone. -/
theorem OwnFailures.move {point : TaskPoint} {phaseDead : Bool} (hown : OwnFailures ids before)
    (horderly : Orderly ids { before with point := point, phaseDead := phaseDead })
    (hacting : point.acting = true → before.point.acting = true) :
    OwnFailures ids { before with point := point, phaseDead := phaseDead } :=
  ⟨horderly, hown.queued, hown.handling, hown.notified, fun h ↦ hown.acting (hacting h)⟩

theorem OwnFailures.access (hown : OwnFailures ids before) {next : Access} {rest : List Access}
    (haccesses : before.accesses = next :: rest)
    (horderly : Orderly ids (before.advance ids next rest)) :
    OwnFailures ids (before.advance ids next rest) := by
  rcases hown.orderly.advance_cases haccesses with
      ⟨hdoes, hafter⟩ | ⟨hdoes, hafter⟩ | ⟨hdoes, hafter⟩ | ⟨hdoes, hafter⟩ | ⟨hdoes, hafter⟩ <;>
    rw [hafter] at horderly ⊢
  · exact ⟨horderly, hown.queued, by simp, hown.notified, hown.acting⟩
  · exact ⟨horderly, hown.queued, by simp, fun h ↦ List.mem_append_left _ (hown.notified h),
      fun h ↦ List.mem_append_left _ (hown.acting h)⟩
  · exact ⟨horderly, hown.queued, fun _ ↦ hown.handling (by simp [hdoes]), hown.notified,
      hown.acting⟩
  · have hcurrent := hown.handling (by simp [hdoes])
    exact ⟨horderly, hown.queued, by simp, fun _ ↦ by simp [hcurrent],
      fun _ ↦ by simp [hcurrent]⟩
  · exact ⟨horderly, hown.queued, by simp, hown.notified, hown.acting⟩

theorem OwnFailures.step (hown : OwnFailures ids before) (hstep : Step ids before label after)
    (hclean : cleanRestart ids before label = true) : OwnFailures ids after := by
  have horderly := hown.orderly.step hstep
  cases hstep with
  | createTask hpoint => exact hown.move horderly (by simp [TaskPoint.acting])
  | firstStart hpoint hsession =>
    obtain ⟨hqueue, haccesses, hnone, hacting, -⟩ := hown.orderly.quiet hsession
    exact ⟨horderly, by simp [hqueue], by simp [haccesses], by simp [hnone], by simp [hacting]⟩
  | post event hsession =>
    refine ⟨horderly, fun other hother hfailure ↦ ?_, hown.handling, hown.notified, hown.acting⟩
    rcases List.mem_append.mp hother with hold | hnew
    · exact hown.queued other hold hfailure
    · rw [List.mem_singleton.mp hnew]
  | @takeUp event rest hidle hqueue =>
    have hqueued := hown.queued
    rw [hqueue] at hqueued
    exact ⟨horderly, fun other hother ↦ hqueued other (List.mem_cons_of_mem event hother),
      fun hmember ↦ hqueued event List.mem_cons_self (notify_mem_handler hmember), hown.notified,
      hown.acting⟩
  | access haccesses => exact hown.access haccesses horderly
  | take hpoint hsome =>
    exact ⟨horderly, hown.queued, hown.handling, by simp, fun _ ↦ hown.notified hsome⟩
  | delay hpoint => exact hown.move horderly (by simp [hpoint, TaskPoint.acting])
  | disconnected hpoint => exact hown.move horderly (by simp [hpoint, TaskPoint.acting])
  | sawDead hpoint hdead => exact hown.move horderly (by simp [hpoint, TaskPoint.acting])
  | timedOut hpoint hdead => exact hown.move horderly (by simp [hpoint, TaskPoint.acting])
  | notifySelf hpoint =>
    have hfailed := hown.acting (by simp [hpoint, TaskPoint.acting])
    exact ⟨horderly, hown.queued, hown.handling, fun _ ↦ hfailed, fun _ ↦ hfailed⟩
  | stop hpoint => exact hown.move horderly (by simp [hpoint, TaskPoint.acting])
  | clearDead hpoint => exact hown.move horderly (by simp [hpoint, TaskPoint.acting])
  | start hpoint =>
    simp only [cleanRestart, Bool.and_eq_true, beq_iff_eq, Bool.not_eq_true', List.all_eq_true]
      at hclean
    obtain ⟨⟨hnone, hidle⟩, hqueue⟩ := hclean
    refine ⟨horderly, fun event hevent hfailure ↦ ?_, fun hmember ↦ ?_, by simp [hnone],
      by simp [TaskPoint.acting]⟩
    · simp [hqueue event hevent] at hfailure
    · simp [hmember] at hidle
  | connected hpoint => exact hown.move horderly (by simp [TaskPoint.acting])

/-- The session that is torn down has failed: whenever the task calls
`esp_netif_action_disconnected`, a failure event of the current session has been handled. Assumes:
at every restart nothing of the ended session was left, neither a notification nor a failure
event. -/
theorem disconnects_failed_session
    (hreach : Reachable (restrict (Step ids) fun state label ↦ cleanRestart ids state label = true)
      .initial state) (hstep : Step ids state (.task .disconnected) after) :
    .failureHandled state.session ∈ state.history := by
  have hown : OwnFailures ids state :=
    hreach.invariant .initial fun _ _ _ hbefore hstep ↦ hbefore.step hstep.1 hstep.2
  cases hstep with
  | disconnected hpoint => exact hown.acting (by simp [hpoint, TaskPoint.acting])

/-- The task is about to tear down a second session that has lost its address like the first. -/
def failedState : LinkState :=
  ⟨false, false, 0, .disconnected, [], (.lostIp true, 2), [], 2, false, 1,
    [.started 1, .failureHandled 1, .started 2, .failureHandled 2]⟩

/-- A run with a restart between the two failures. -/
theorem disconnects_failed_session_first :
    .failureHandled failedState.session ∈ failedState.history := by
  have hreach : Reachable
      (restrict (Step .espIdf) fun state label ↦ cleanRestart .espIdf state label = true)
      .initial failedState :=
    .of_execute Step.of_next (cleanRestart .espIdf) [.createTask, .firstStart,
      .post (.lostIp true), .takeUp, .access, .access, .task .take, .task .delay,
      .task .disconnected, .post (.status 0x100), .takeUp, .access, .task .waitDead, .task .stop,
      .task .clearDead, .task .start, .task .connected, .post (.lostIp true), .takeUp, .access,
      .access, .task .take, .task .delay] (.refl _) (by decide)
  exact disconnects_failed_session hreach (.disconnected rfl)

/-- The second session has not failed and the task is about to tear it down. -/
def healthyState : LinkState :=
  ⟨false, false, 0, .disconnected, [], (.status 0x100, 1), [], 2, false, 1,
    [.started 1, .failureHandled 1, .failureHandled 1, .started 2]⟩

/-- The first session posts two failure events, and the second is handled after `ulTaskNotifyTake`
has cleared the count. Its notification outlives the restart. -/
theorem disconnects_new_session :
    ∃ state after, Reachable (Step .espIdf) .initial state ∧
      Step .espIdf state (.task .disconnected) after ∧
        .failureHandled state.session ∉ state.history := by
  refine ⟨healthyState, _, ?_, .disconnected rfl, by decide⟩
  exact (Reachable.of_execute Step.of_next (fun _ _ ↦ true) [.createTask, .firstStart,
    .post (.lostIp true), .post (.status 5), .takeUp, .access, .access, .task .take, .takeUp,
    .access, .access, .task .delay, .task .disconnected, .post (.status 0x100), .takeUp, .access,
    .task .waitDead, .task .stop, .task .clearDead, .task .start, .task .connected, .task .take,
    .task .delay] (.refl _) (by decide)).of_restrict

end TearDown

end ZigbeeRemote.Server.PppUart
