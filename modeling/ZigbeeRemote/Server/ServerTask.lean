import Mathlib.Logic.Function.Basic
import ZigbeeRemote.Foundation.MarkDiscipline
import ZigbeeRemote.Server.Session

/-!
# The server task

`server_task`, `create_listener` and `serve_client` of `zb_rpc_server/main/rpc_server.cpp`. The task
waits for the link, opens a listener, and serves one client after the other until the link is gone.
A session is the program of `serve_client` in execution, so its single reads and writes are steps,
and between any two steps of the task the rest of the firmware may change the state of the machine
in any way: the link may come and go, and the Zigbee stack goes on.

`descriptors_accounted`: in every run the open descriptors of the task are those it holds at its
point, at most a listener and one client. `s_client_fd` names the client while it is served, up to
the step that resets it, and is -1 otherwise. So `client_connected`, which only handlers call, never
looks at a descriptor that has been closed, and a handler is never called outside a session.

`invocations_answered`: in every run, the calls of handlers and the writing of their responses
alternate, over all sessions. A handler is never called before the response of the one before it has
been written or has failed to be, and a session never ends with a call that is not answered for.
-/

set_option autoImplicit false
set_option relaxedAutoImplicit false

namespace ZigbeeRemote.Server

open Foundation Rpc WireType

/-! ### The points of the task -/

/-- What is left of a session. -/
abbrev SessionProg (σ : Type) := Prog σ ServerMark (Bool × ErrorCode)

/-- The points of `server_task` and of what it calls, with their local variables. -/
inductive TaskPoint (σ : Type) : Type
  | waitConnected
  | socket
  /-- The three calls of `setsockopt`, whose results are ignored. -/
  | setOptions (listener : Int)
  | bind (listener : Int)
  | listen (listener : Int)
  | closeFailed (listener : Int)
  | delay
  | linkTest (listener : Int)
  | accept (listener : Int)
  | publish (listener client : Int)
  | serving (listener client : Int) (prog : SessionProg σ)
  | unpublish (listener client : Int)
  | shutdown (listener client : Int)
  | closeClient (listener client : Int)
  | closeListener (listener : Int)

/-- The task: its point, `s_client_fd`, its open descriptors with whether they have been shut down,
the state of the machine, and the marks of all sessions so far. -/
structure Task (σ : Type) where
  point : TaskPoint σ
  sClientFd : Int
  sockets : Int → Option Bool
  machine : σ
  marks : List ServerMark

/-- What a system call answers. A step that makes none has the answer `ok`. -/
inductive TaskAnswer : Type
  | ok
  | failed
  /-- `EAGAIN` or `EWOULDBLOCK` from `accept`. -/
  | again
  | opened (fd : Int)
  deriving DecidableEq

/-- A step of the task, a step of the session in it, or one of the rest of the firmware. -/
inductive TaskLabel (σ : Type) : Type
  | task (answer : TaskAnswer)
  | session (move : Move)
  | world (machine : σ)

namespace Task

variable {σ : Type}

/-- A task that has just been created. -/
def initial (machine : σ) : Task σ := ⟨.waitConnected, -1, fun _ ↦ none, machine, []⟩

/-- The task goes on at another point. -/
def goto (task : Task σ) (point : TaskPoint σ) : Task σ := { task with point := point }

/-- A system call returns a new descriptor. -/
def openSocket (task : Task σ) (fd : Int) : Task σ :=
  { task with sockets := Function.update task.sockets fd (some false) }

/-- `close`. -/
def closeSocket (task : Task σ) (fd : Int) : Task σ :=
  { task with sockets := Function.update task.sockets fd none }

/-- `shutdown`. -/
def shutSocket (task : Task σ) (fd : Int) : Task σ :=
  { task with sockets := Function.update task.sockets fd ((task.sockets fd).map fun _ ↦ true) }

section Definitions

variable (pppUartIsConnected : StateM σ Bool) (handlers : List (Handler σ ServerMark))

/-- One step of `server_task`. -/
def taskStep (task : Task σ) : TaskPoint σ → TaskAnswer → Option (Task σ)
  | .waitConnected, .ok => some (task.goto .socket)
  | .socket, .failed => some (task.goto .delay)
  | .socket, .opened fd =>
    if 0 ≤ fd ∧ task.sockets fd = none then some ((task.openSocket fd).goto (.setOptions fd))
    else none
  | .setOptions listener, .ok => some (task.goto (.bind listener))
  | .bind listener, .ok => some (task.goto (.listen listener))
  | .bind listener, .failed => some (task.goto (.closeFailed listener))
  | .listen listener, .ok => some (task.goto (.linkTest listener))
  | .listen listener, .failed => some (task.goto (.closeFailed listener))
  | .closeFailed listener, .ok => some ((task.closeSocket listener).goto .delay)
  | .delay, .ok => some (task.goto .waitConnected)
  | .linkTest listener, .ok =>
    let result := pppUartIsConnected.run task.machine
    some ({ task with machine := result.2 }.goto
      (if result.1 then .accept listener else .closeListener listener))
  | .accept listener, .again => some (task.goto (.linkTest listener))
  | .accept listener, .failed => some (task.goto (.closeListener listener))
  | .accept listener, .opened fd =>
    if 0 ≤ fd ∧ task.sockets fd = none then some ((task.openSocket fd).goto (.publish listener fd))
    else none
  | .publish listener client, .ok =>
    some ({ task with sClientFd := client }.goto
      (.serving listener client (serveClient pppUartIsConnected handlers)))
  | .serving listener client (.done result), .ok =>
    if serveAgain pppUartIsConnected handlers result = none then
      some (task.goto (.unpublish listener client))
    else none
  | .unpublish listener client, .ok =>
    some ({ task with sClientFd := -1 }.goto (.shutdown listener client))
  | .shutdown listener client, .ok =>
    some ((task.shutSocket client).goto (.closeClient listener client))
  | .closeClient listener client, .ok => some ((task.closeSocket client).goto (.linkTest listener))
  | .closeListener listener, .ok => some ((task.closeSocket listener).goto .waitConnected)
  | _, _ => none

/-- One step of the session. -/
def sessionStep (task : Task σ) (move : Move) : Option (Task σ) :=
  match task.point with
  | .serving listener client prog =>
    (Thread.next (serveAgain pppUartIsConnected handlers) ⟨prog, task.machine, task.marks⟩ move).map
      fun later ↦
        { task with
          point := .serving listener client later.prog
          machine := later.state
          marks := later.marks }
  | _ => none

/-- One step. -/
def next (task : Task σ) : TaskLabel σ → Option (Task σ)
  | .task answer => task.taskStep pppUartIsConnected handlers task.point answer
  | .session move => task.sessionStep pppUartIsConnected handlers move
  | .world machine => some { task with machine := machine }

/-- The steps as a relation. -/
def Step (before : Task σ) (label : TaskLabel σ) (after : Task σ) : Prop :=
  before.next pppUartIsConnected handlers label = some after

end Definitions

end Task

/-! ### Descriptors -/

section Held

variable {σ : Type}

/-- The descriptors that the task holds at a point, the listener first. -/
def TaskPoint.held : TaskPoint σ → List Int
  | .setOptions listener => [listener]
  | .bind listener => [listener]
  | .listen listener => [listener]
  | .closeFailed listener => [listener]
  | .linkTest listener => [listener]
  | .accept listener => [listener]
  | .publish listener client => [listener, client]
  | .serving listener client _ => [listener, client]
  | .unpublish listener client => [listener, client]
  | .shutdown listener client => [listener, client]
  | .closeClient listener client => [listener, client]
  | .closeListener listener => [listener]
  | _ => []

/-- The client that `s_client_fd` names at a point. -/
def TaskPoint.served : TaskPoint σ → Option Int
  | .serving _ client _ => some client
  | .unpublish _ client => some client
  | _ => none

/-- The client that has been shut down and not yet closed. -/
def TaskPoint.shutDown : TaskPoint σ → Option Int
  | .closeClient _ client => some client
  | _ => none

/-- What the descriptors are at a point: whether one is open, and whether it has been shut down. -/
def TaskPoint.sockets (point : TaskPoint σ) (fd : Int) : Option Bool :=
  if fd ∈ point.held then some (decide (point.shutDown = some fd)) else none

/-- The client that is served is held and has not been shut down. -/
theorem TaskPoint.held_of_served (point : TaskPoint σ) {client : Int}
    (hserved : point.served = some client) : client ∈ point.held ∧ point.shutDown = none := by
  cases point with
  | serving listener other prog =>
    cases hserved
    exact ⟨by simp [TaskPoint.held], rfl⟩
  | unpublish listener other =>
    cases hserved
    exact ⟨by simp [TaskPoint.held], rfl⟩
  | _ => cases hserved

/-- The descriptors of a task are those that its point accounts for. -/
structure Task.Accounted (task : Task σ) : Prop where
  sockets : ∀ fd, task.sockets fd = task.point.sockets fd
  valid : ∀ fd ∈ task.point.held, 0 ≤ fd
  nodup : task.point.held.Nodup
  served : task.sClientFd = task.point.served.getD (-1)

namespace Task

variable {task after : Task σ} {point : TaskPoint σ}

theorem accounted_initial (machine : σ) : (initial machine).Accounted := by
  constructor
  all_goals simp [initial, TaskPoint.held, TaskPoint.served, TaskPoint.sockets]

/-- A step that opens and closes nothing. -/
theorem Accounted.moved (haccounted : task.Accounted) (hsockets : after.sockets = task.sockets)
    (hheld : after.point.held = task.point.held)
    (hshut : after.point.shutDown = task.point.shutDown)
    (hserved : after.sClientFd = after.point.served.getD (-1)) : after.Accounted where
  sockets := by
    intro fd
    rw [hsockets, haccounted.sockets, TaskPoint.sockets, TaskPoint.sockets, hheld, hshut]
  valid := by
    rw [hheld]
    exact haccounted.valid
  nodup := by
    rw [hheld]
    exact haccounted.nodup
  served := hserved

/-- A system call returns a new descriptor. -/
theorem Accounted.opened (haccounted : task.Accounted) {fd : Int} (hvalid : 0 ≤ fd)
    (hnew : task.sockets fd = none) (hheld : point.held = task.point.held ++ [fd])
    (hbefore : task.point.shutDown = none) (hafter : point.shutDown = none)
    (hserved : task.sClientFd = point.served.getD (-1)) :
    ((task.openSocket fd).goto point).Accounted where
  sockets := by
    intro other
    show Function.update task.sockets fd (some false) other = point.sockets other
    rcases eq_or_ne other fd with rfl | hother
    · simp [TaskPoint.sockets, hheld, hafter]
    · rw [Function.update_of_ne hother, haccounted.sockets]
      simp [TaskPoint.sockets, hheld, hafter, hbefore, hother]
  valid := by
    intro other hmem
    rw [show ((task.openSocket fd).goto point).point = point from rfl, hheld, List.mem_append,
      List.mem_singleton] at hmem
    rcases hmem with hold | rfl
    · exact haccounted.valid other hold
    · exact hvalid
  nodup := by
    show point.held.Nodup
    rw [hheld, List.nodup_append]
    refine ⟨haccounted.nodup, by simp, fun first hfirst second hsecond hequal ↦ ?_⟩
    rw [List.mem_singleton] at hsecond
    rw [hequal, hsecond] at hfirst
    rw [haccounted.sockets, TaskPoint.sockets, if_pos hfirst] at hnew
    cases hnew
  served := hserved

/-- `close` of the descriptor that was opened last. -/
theorem Accounted.closed (haccounted : task.Accounted) {fd : Int}
    (hheld : task.point.held = point.held ++ [fd])
    (hshut : ∀ other, other ≠ fd → (task.point.shutDown = some other ↔ point.shutDown = some other))
    (hserved : task.sClientFd = point.served.getD (-1)) :
    ((task.closeSocket fd).goto point).Accounted where
  sockets := by
    intro other
    have hnodup := haccounted.nodup
    rw [hheld, List.nodup_append] at hnodup
    show Function.update task.sockets fd none other = point.sockets other
    rcases eq_or_ne other fd with rfl | hother
    · have hgone : other ∉ point.held := fun hmem ↦
        hnodup.2.2 other hmem other (List.mem_singleton_self other) rfl
      rw [Function.update_self, TaskPoint.sockets, if_neg hgone]
    · rw [Function.update_of_ne hother, haccounted.sockets]
      simp [TaskPoint.sockets, hheld, hother, hshut other hother]
  valid := by
    intro other hmem
    refine haccounted.valid other ?_
    rw [hheld]
    exact List.mem_append_left _ hmem
  nodup := by
    have hnodup := haccounted.nodup
    rw [hheld, List.nodup_append] at hnodup
    exact hnodup.1
  served := hserved

/-- `shutdown` of the client that is to be closed next. -/
theorem Accounted.shut (haccounted : task.Accounted) {listener client : Int}
    (hpoint : task.point = .shutdown listener client) :
    ((task.shutSocket client).goto (.closeClient listener client)).Accounted where
  sockets := by
    intro fd
    have hsockets := haccounted.sockets fd
    rw [hpoint] at hsockets
    show Function.update task.sockets client _ fd = _
    rcases eq_or_ne fd client with rfl | hother
    · rw [Function.update_self, hsockets]
      simp [TaskPoint.sockets, TaskPoint.held, TaskPoint.shutDown, goto]
    · rw [Function.update_of_ne hother, hsockets]
      simp [TaskPoint.sockets, TaskPoint.held, TaskPoint.shutDown, goto, hother.symm]
  valid := by
    have hvalid := haccounted.valid
    rw [hpoint] at hvalid
    exact hvalid
  nodup := by
    have hnodup := haccounted.nodup
    rw [hpoint] at hnodup
    exact hnodup
  served := by
    have hserved := haccounted.served
    rw [hpoint] at hserved
    exact hserved

section Steps

variable {pppUartIsConnected : StateM σ Bool} {handlers : List (Handler σ ServerMark)}

theorem accounted_taskStep {answer : TaskAnswer} (haccounted : task.Accounted)
    (hpoint : task.point = point)
    (hstep : task.taskStep pppUartIsConnected handlers point answer = some after) :
    after.Accounted := by
  have hserved := haccounted.served
  rw [hpoint] at hserved
  have hgoto : ∀ {later : Task σ}, later.sockets = task.sockets → later.point.held = point.held →
      later.point.shutDown = point.shutDown → later.sClientFd = later.point.served.getD (-1) →
      later.Accounted := by
    intro later hsockets hheld hshut hlater
    exact haccounted.moved hsockets (by rw [hheld, hpoint]) (by rw [hshut, hpoint]) hlater
  have hopen : ∀ {later : TaskPoint σ} {fd : Int}, 0 ≤ fd ∧ task.sockets fd = none →
      later.held = point.held ++ [fd] → point.shutDown = none → later.shutDown = none →
      task.sClientFd = later.served.getD (-1) → ((task.openSocket fd).goto later).Accounted := by
    intro later fd hfd hheld hbefore hafter hlater
    rw [← hpoint] at hheld hbefore
    exact haccounted.opened hfd.1 hfd.2 hheld hbefore hafter hlater
  have hclose : ∀ {later : TaskPoint σ} {fd : Int}, point.held = later.held ++ [fd] →
      (∀ other, other ≠ fd → (point.shutDown = some other ↔ later.shutDown = some other)) →
      task.sClientFd = later.served.getD (-1) → ((task.closeSocket fd).goto later).Accounted := by
    intro later fd hheld hshut hlater
    exact haccounted.closed (by rw [hpoint, hheld]) (by rwa [hpoint]) hlater
  unfold taskStep at hstep
  split at hstep
  all_goals try split_ifs at hstep
  all_goals cases hstep
  all_goals first
    | exact hgoto rfl rfl rfl hserved
    | exact hgoto rfl rfl rfl rfl
    | exact hopen ‹_› rfl rfl rfl hserved
    | exact hclose rfl (fun other hother ↦ Iff.rfl) hserved
    | exact haccounted.shut hpoint
    | skip
  · -- The test of the link leads to `accept` or out of the loop.
    refine hgoto rfl ?_ ?_ (hserved.trans ?_)
    all_goals dsimp only [goto]
    all_goals split
    all_goals rfl
  · refine hclose rfl (fun other hother ↦ ?_) hserved
    simp [TaskPoint.shutDown, hother.symm]

theorem accounted_sessionStep {move : Move} (haccounted : task.Accounted)
    (hstep : task.sessionStep pppUartIsConnected handlers move = some after) : after.Accounted := by
  unfold sessionStep at hstep
  split at hstep
  · next listener client prog hpoint =>
    obtain ⟨later, -, rfl⟩ := Option.map_eq_some_iff.mp hstep
    refine haccounted.moved rfl (by rw [hpoint]; rfl) (by rw [hpoint]; rfl) ?_
    rw [haccounted.served, hpoint]
    rfl
  · cases hstep

theorem accounted_step {label : TaskLabel σ} (haccounted : task.Accounted)
    (hstep : Step pppUartIsConnected handlers task label after) : after.Accounted := by
  cases label with
  | task answer => exact accounted_taskStep haccounted rfl hstep
  | session move => exact accounted_sessionStep haccounted hstep
  | world machine =>
    cases hstep
    exact haccounted.moved rfl rfl rfl haccounted.served

/-- Both descriptors of a session are open, and `s_client_fd` names the client's. -/
theorem Accounted.serving (haccounted : task.Accounted) {listener client : Int}
    {prog : SessionProg σ} (hpoint : task.point = .serving listener client prog) :
    task.sClientFd = client ∧ 0 ≤ client ∧ listener ≠ client ∧ task.sockets client = some false ∧
      task.sockets listener = some false := by
  obtain ⟨hsockets, hvalid, hnodup, hserved⟩ := haccounted
  rw [hpoint] at hsockets hvalid hnodup hserved
  refine ⟨hserved, hvalid client (by simp [TaskPoint.held]), ?_, ?_, ?_⟩
  · simpa [TaskPoint.held] using hnodup
  · rw [hsockets]
    simp [TaskPoint.sockets, TaskPoint.held, TaskPoint.shutDown]
  · rw [hsockets]
    simp [TaskPoint.sockets, TaskPoint.held, TaskPoint.shutDown]

theorem accounted_of_reachable {machine : σ}
    (hreach : Reachable (Step pppUartIsConnected handlers) (initial machine) task) :
    task.Accounted :=
  hreach.invariant (accounted_initial machine) fun _ _ _ haccounted hstep ↦
    accounted_step haccounted hstep

/-- What `s_client_fd` holds: -1, or the client that is served, which is open and not shut down. -/
theorem Accounted.sClientFd (haccounted : task.Accounted) :
    task.sClientFd = -1 ∨ 0 ≤ task.sClientFd ∧ task.point.served = some task.sClientFd ∧
      task.sockets task.sClientFd = some false := by
  have hserved := haccounted.served
  cases hpoint : task.point.served with
  | none =>
    rw [hpoint] at hserved
    exact .inl hserved
  | some client =>
    rw [hpoint] at hserved
    obtain rfl : task.sClientFd = client := hserved
    obtain ⟨hheld, hopen⟩ := task.point.held_of_served hpoint
    refine .inr ⟨haccounted.valid _ hheld, rfl, ?_⟩
    rw [haccounted.sockets, TaskPoint.sockets, if_pos hheld, hopen]
    rfl

/-- In every run of the server task the open descriptors are those its point accounts for, at most a
listener and one client. `s_client_fd` is -1, or it names the client from the first step of the session
to the step that resets it, and that descriptor is open and not shut down. When the task waits for the
link again, everything is closed. -/
theorem descriptors_accounted {machine : σ}
    (hreach : Reachable (Step pppUartIsConnected handlers) (initial machine) task) :
    (∀ fd, task.sockets fd ≠ none ↔ fd ∈ task.point.held) ∧ task.point.held.Nodup ∧
      task.point.held.length ≤ 2 ∧
      (task.sClientFd = -1 ∨ 0 ≤ task.sClientFd ∧ task.point.served = some task.sClientFd ∧
        task.sockets task.sClientFd = some false) ∧
      (∀ client, task.point.served = some client → task.sClientFd = client) ∧
      (∀ listener client prog, task.point = .serving listener client prog →
        task.sClientFd = client ∧ 0 ≤ client ∧ listener ≠ client ∧
          task.sockets client = some false ∧ task.sockets listener = some false) ∧
      (task.point = .waitConnected → ∀ fd, task.sockets fd = none) := by
  have haccounted := accounted_of_reachable hreach
  refine ⟨fun fd ↦ ?_, haccounted.nodup, ?_, haccounted.sClientFd, fun client hclient ↦ ?_,
    fun _ _ _ hpoint ↦ haccounted.serving hpoint, fun hpoint fd ↦ ?_⟩
  · rw [haccounted.sockets, TaskPoint.sockets]
    split_ifs with hmem
    · simp [hmem]
    · simp [hmem]
  · cases task.point <;> simp [TaskPoint.held]
  · rw [haccounted.served, hclient]
    rfl
  · rw [haccounted.sockets, hpoint]
    rfl

/-- A run into a session with the client on descriptor 4. -/
theorem descriptors_accounted_serving :
    ∃ task : Task Unit, Reachable (Step (pure true) []) (initial ()) task ∧ task.sClientFd = 4 ∧
      task.sockets 4 = some false := by
  have hserve : execute (next (pure true) []) (fun _ _ ↦ true) (initial ())
      [.task .ok, .task (.opened 3), .task .ok, .task .ok, .task .ok, .task .ok, .task (.opened 4),
        .task .ok] =
      some ⟨.serving 3 4 (serveClient (pure true) []), 4,
        Function.update (Function.update (fun _ ↦ none) 3 (some false)) 4 (some false), (), []⟩ :=
    rfl
  have hsteps : ∀ {before : Task Unit} {label after},
      next (pure true) [] before label = some after → Step (pure true) [] before label after :=
    fun h ↦ h
  have hreach := (Reachable.of_execute hsteps _ _ (.refl _) hserve).of_restrict
  obtain ⟨-, -, -, hclient, -, -, -⟩ := descriptors_accounted hreach
  exact ⟨_, hreach, rfl, (hclient.resolve_left (by decide)).2.2⟩

end Steps

end Task

end Held

/-! ### The order of invocations -/

section Order

variable {σ : Type}

/-- A handler that has been called and has not been answered for. -/
structure Invocation where
  id : ApiId
  request : Bytes
  responseSize : ℕ

/-- One handler after the other: it is called with a request of its type, and then a response of its
type is written or fails to be. -/
inductive Alternates (handlers : List (Handler σ ServerMark)) :
    Option Invocation → ServerMark → Option Invocation → Prop
  | invoked {handler : Handler σ ServerMark} {request : Bytes} (hmember : handler ∈ handlers)
      (hrequest : request.length = wireSize handler.desc.Req) :
      Alternates handlers none (.invoked handler.desc.id request)
        (some ⟨handler.desc.id, request, wireSize handler.desc.Resp⟩)
  | responded {invocation : Invocation} {response : Bytes} {sent : Bool}
      (hresponse : response.length = invocation.responseSize) :
      Alternates handlers (some invocation) (.responded invocation.id response sent) none

section Engine

variable {ε α β : Type} {error : ErrorCode}

theorem quiet_run_bind {first : EngineM σ ε α} {next : α → EngineM σ ε β}
    (hfirst : (first.run error).Quiet) (hnext : ∀ value code, ((next value).run code).Quiet) :
    ((first >>= next).run error).Quiet :=
  Prog.Quiet.bind hfirst fun result ↦ hnext result.1 result.2

theorem quiet_run_lift {program : Prog σ ε α} (hquiet : program.Quiet) :
    ((EngineM.lift program).run error).Quiet :=
  Prog.Quiet.bind hquiet fun _ ↦ trivial

theorem quiet_receiveHeader : ((receiveHeader : EngineM σ ε _).run error).Quiet := by
  refine quiet_run_bind (by trivial) fun _ cleared ↦
    quiet_run_bind (quiet_run_lift fun bytes ↦ trivial) fun bytes code ↦ ?_
  cases bytes with
  | none => trivial
  | some bytes =>
    dsimp only
    split_ifs
    all_goals trivial

theorem quiet_receivePayload (T : Type) [WireType T] (header : FrameHeader) :
    ((receivePayload T header : EngineM σ ε _).run error).Quiet := by
  unfold receivePayload
  split_ifs
  · trivial
  · trivial
  · trivial
  · refine quiet_run_bind (quiet_run_lift fun bytes ↦ trivial) fun bytes code ↦ ?_
    cases bytes with
    | none => trivial
    | some bytes => trivial

theorem quiet_send {T : Type} [WireType T] (id : ApiId) (payload : T) :
    ((send id payload : EngineM σ ε Bool).run error).Quiet := by
  unfold send
  split_ifs
  · exact quiet_run_lift fun sent ↦ trivial
  · refine quiet_run_bind (quiet_run_lift fun sent ↦ trivial) fun sent code ↦ ?_
    cases sent with
    | false => trivial
    | true => exact quiet_run_lift fun sent ↦ trivial

theorem quiet_discardPayload (size : UInt32) : (discardPayload size : Prog σ ε Bool).Quiet := by
  fun_induction discardPayload size with
  | case1 => trivial
  | case2 size hsize ih =>
    intro bytes
    cases bytes with
    | none => trivial
    | some bytes => exact ih

end Engine

section Rules

variable {α β : Type} {error : ErrorCode} {handlers : List (Handler σ ServerMark)}
  {phase : Option Invocation}

theorem along_run_bind {first : EngineM σ ServerMark α} {next : α → EngineM σ ServerMark β}
    {post : β × ErrorCode → Option Invocation → Prop}
    (hfirst : (first.run error).Along (Alternates handlers) (fun result later ↦
      ((next result.1).run result.2).Along (Alternates handlers) post later) phase) :
    ((first >>= next).run error).Along (Alternates handlers) post phase := Prog.Along.bind hfirst

/-- The handlers' functions leave no marks of their own. -/
def LeaveNoMarks (handlers : List (Handler σ ServerMark)) : Prop :=
  ∀ handler ∈ handlers, ∀ request, (handler.function request).Quiet

/-- A program ends between two invocations. -/
def Idle (_ : α) (phase : Option Invocation) : Prop := phase = none

/-- A program is entered and left between two invocations. -/
def KeepsIdle (handlers : List (Handler σ ServerMark)) (program : EngineM σ ServerMark α) : Prop :=
  ∀ error, (program.run error).Along (Alternates handlers) Idle none

theorem KeepsIdle.bind {first : EngineM σ ServerMark α} {next : α → EngineM σ ServerMark β}
    (hfirst : KeepsIdle handlers first) (hnext : ∀ value, KeepsIdle handlers (next value)) :
    KeepsIdle handlers (first >>= next) := by
  intro error
  refine along_run_bind ((hfirst error).imp fun result later hidle ↦ ?_)
  rw [show later = none from hidle]
  exact hnext result.1 result.2

theorem KeepsIdle.of_quiet {program : EngineM σ ServerMark α}
    (hquiet : ∀ error, (program.run error).Quiet) : KeepsIdle handlers program :=
  fun error ↦ (hquiet error).along fun _ ↦ rfl

theorem KeepsIdle.pure (value : α) : KeepsIdle handlers (Pure.pure value) := fun _ ↦ rfl

/-- Assumes: the handler's own function leaves no marks. -/
theorem keepsIdle_invokeOne {handler : Handler σ ServerMark} (hmember : handler ∈ handlers)
    (hquiet : ∀ request, (handler.function request).Quiet) (header : FrameHeader) :
    KeepsIdle handlers (invokeOne handler header) := by
  unfold invokeOne
  split_ifs with hid
  · exact .pure _
  refine .bind (.of_quiet fun _ ↦ quiet_receivePayload _ header) fun payload ↦ ?_
  cases payload with
  | none =>
    refine .bind (fun _ ↦ rfl) fun code ↦ ?_
    dsimp only
    split_ifs
    · refine .bind (fun _ ↦ rfl) fun code ↦ .bind (.of_quiet fun _ ↦ quiet_send _ _) fun _ ↦ .pure _
    · exact .pure _
  | some request =>
    intro error
    -- The first mark enters the invocation, the second one leaves it.
    refine ⟨_, .invoked hmember (length_wireBytes request), ?_⟩
    refine along_run_bind ((quiet_run_lift (hquiet request)).along fun response ↦ ?_)
    refine along_run_bind ((quiet_send _ _).along fun sent ↦ ?_)
    exact ⟨_, .responded (length_wireBytes response.1), rfl⟩

theorem keepsIdle_invokeFirst (hquiet : LeaveNoMarks handlers)
    {some : List (Handler σ ServerMark)} (hsome : some ⊆ handlers) (header : FrameHeader) :
    KeepsIdle handlers (invokeFirst some header) := by
  induction some with
  | nil => exact .pure _
  | cons handler others ih =>
    have hhandler : handler ∈ handlers := hsome List.mem_cons_self
    refine .bind (keepsIdle_invokeOne hhandler (hquiet handler hhandler) header) fun result ↦ ?_
    split_ifs
    · exact ih fun other hother ↦ hsome (List.mem_cons_of_mem _ hother)
    · exact .pure _

theorem keepsIdle_dispatch (hquiet : LeaveNoMarks handlers)
    (header : FrameHeader) : KeepsIdle handlers (dispatch handlers header) := by
  refine .bind (keepsIdle_invokeFirst hquiet (List.Subset.refl _) header) fun result ↦ ?_
  split_ifs
  · refine .bind (.of_quiet fun _ ↦ quiet_run_lift (quiet_discardPayload _)) fun discarded ↦ ?_
    split_ifs
    · exact .pure _
    · exact .bind (.of_quiet fun _ ↦ quiet_send _ _) fun _ ↦ .pure _
  · exact .pure _

theorem keepsIdle_serveRound (hquiet : LeaveNoMarks handlers)
    (pppUartIsConnected : StateM σ Bool) :
    KeepsIdle handlers (serveRound pppUartIsConnected handlers) := by
  refine .bind (.of_quiet fun _ ↦ quiet_run_lift fun state ↦ trivial) fun connected ↦ ?_
  split_ifs
  · refine .bind (.of_quiet fun _ ↦ quiet_receiveHeader) fun header ↦ ?_
    cases header with
    | none =>
      refine .bind (fun _ ↦ rfl) fun code ↦ ?_
      dsimp only
      split_ifs
      · exact .bind (fun _ ↦ rfl) fun code ↦
          .bind (.of_quiet fun _ ↦ quiet_send _ _) fun _ ↦ .pure _
      · exact .pure _
    | some header => exact keepsIdle_dispatch hquiet header
  · exact .pure _

end Rules

/-- A handler that has been called and answered for. -/
structure Answered where
  id : ApiId
  request : Bytes
  response : Bytes
  sent : Bool

namespace Answered

/-- The marks it leaves. -/
def marks (answered : Answered) : List ServerMark :=
  [.invoked answered.id answered.request, .responded answered.id answered.response answered.sent]

/-- One of the handlers was called with a request of its type and returned a response of its type.
-/
def By (handlers : List (Handler σ ServerMark)) (answered : Answered) : Prop :=
  ∃ handler ∈ handlers, answered.id = handler.desc.id ∧
    answered.request.length = wireSize handler.desc.Req ∧
    answered.response.length = wireSize handler.desc.Resp

end Answered

/-- What has been called last and is not answered for. -/
def pendingMarks (phase : Option Invocation) : List ServerMark :=
  phase.toList.map fun invocation ↦ .invoked invocation.id invocation.request

/-- One of the handlers has been called with a request of its type. -/
def Invocation.Of (handlers : List (Handler σ ServerMark)) (invocation : Invocation) : Prop :=
  ∃ handler ∈ handlers, invocation.id = handler.desc.id ∧
    invocation.request.length = wireSize handler.desc.Req ∧
    invocation.responseSize = wireSize handler.desc.Resp

/-- Marks in order are those of handlers that were answered for, one after the other, and then
perhaps the call of one that is not yet. -/
theorem exists_answered {handlers : List (Handler σ ServerMark)} {marks : List ServerMark}
    {phase : Option Invocation} (hrun : Run (Alternates handlers) none marks phase) :
    ∃ answered : List Answered, marks = answered.flatMap Answered.marks ++ pendingMarks phase ∧
      (∀ each ∈ answered, each.By handlers) ∧ ∀ invocation ∈ phase, invocation.Of handlers := by
  induction hrun with
  | refl => exact ⟨[], rfl, by simp, by simp⟩
  | tail _ hstep ih =>
    obtain ⟨answered, rfl, hby, hof⟩ := ih
    cases hstep with
    | invoked hmember hrequest =>
      refine ⟨answered, by simp [pendingMarks], hby, fun invocation hinvocation ↦ ?_⟩
      cases hinvocation
      exact ⟨_, hmember, rfl, hrequest, rfl⟩
    | @responded invocation response sent hresponse =>
      obtain ⟨handler, hmember, hid, hrequest, hsize⟩ := hof invocation rfl
      refine ⟨answered ++ [⟨invocation.id, invocation.request, response, sent⟩], ?_, ?_, by simp⟩
      · simp [pendingMarks, Answered.marks]
      · intro each heach
        rcases List.mem_append.mp heach with hearlier | hlast
        · exact hby each hearlier
        · rw [List.mem_singleton] at hlast
          rw [hlast]
          exact ⟨handler, hmember, hid, hrequest, hresponse.trans hsize⟩

namespace Task

variable {task after : Task σ} {pppUartIsConnected : StateM σ Bool}
  {handlers : List (Handler σ ServerMark)}

/-- What a point has ahead of it fits the marks so far. Outside a session nothing is left to be
answered. -/
def Ready (handlers : List (Handler σ ServerMark)) (phase : Option Invocation) : TaskPoint σ → Prop
  | .serving _ _ prog => prog.Along (Alternates handlers) Idle phase
  | _ => phase = none

/-- The marks of a task are in order and will stay so. -/
def Orderly (handlers : List (Handler σ ServerMark)) (task : Task σ) : Prop :=
  ∃ phase, Run (Alternates handlers) none task.marks phase ∧ Ready handlers phase task.point

theorem orderly_taskStep {answer : TaskAnswer} {point : TaskPoint σ}
    (hquiet : LeaveNoMarks handlers)
    (horderly : task.Orderly handlers) (hpoint : task.point = point)
    (hstep : task.taskStep pppUartIsConnected handlers point answer = some after) :
    after.Orderly handlers := by
  obtain ⟨phase, hmarks, hready⟩ := horderly
  rw [hpoint] at hready
  unfold taskStep at hstep
  split at hstep
  all_goals try split_ifs at hstep
  all_goals cases hstep
  all_goals try exact ⟨phase, hmarks, hready⟩
  · refine ⟨phase, hmarks, ?_⟩
    dsimp only [goto]
    split_ifs
    all_goals exact hready
  · cases show phase = none from hready
    exact ⟨none, hmarks, keepsIdle_serveRound hquiet pppUartIsConnected .none⟩

theorem orderly_sessionStep {move : Move}
    (hquiet : LeaveNoMarks handlers)
    (horderly : task.Orderly handlers)
    (hstep : task.sessionStep pppUartIsConnected handlers move = some after) :
    after.Orderly handlers := by
  obtain ⟨phase, hmarks, hready⟩ := horderly
  unfold sessionStep at hstep
  split at hstep
  · next listener client prog hpoint =>
    obtain ⟨later, hnext, rfl⟩ := Option.map_eq_some_iff.mp hstep
    rw [hpoint] at hready
    refine (Thread.Step.of_next hnext).along (fun result phase following hidle hagain ↦ ?_)
      hmarks hready
    unfold serveAgain at hagain
    split_ifs at hagain
    cases hagain
    rw [show phase = none from hidle]
    exact keepsIdle_serveRound hquiet pppUartIsConnected result.2
  · cases hstep

theorem orderly_step {label : TaskLabel σ}
    (hquiet : LeaveNoMarks handlers)
    (horderly : task.Orderly handlers)
    (hstep : Step pppUartIsConnected handlers task label after) : after.Orderly handlers := by
  cases label with
  | task answer => exact orderly_taskStep hquiet horderly rfl hstep
  | session move => exact orderly_sessionStep hquiet horderly hstep
  | world machine =>
    cases hstep
    exact horderly

/-- In every run of the server, whatever the clients send, whichever calls fail and whatever else
the firmware does in the meantime, each call of a handler is followed by the writing of its
response, successful or not, before any other handler is called, by the same client or by a later
one. Only the last call may be without a response, and then its session is still going on. Assumes:
the handlers' functions leave no marks of their own. -/
theorem invocations_answered {machine : σ}
    (hquiet : LeaveNoMarks handlers)
    (hreach : Reachable (Step pppUartIsConnected handlers) (initial machine) task) :
    ∃ (answered : List Answered) (phase : Option Invocation),
      task.marks = answered.flatMap Answered.marks ++ pendingMarks phase ∧
      (∀ each ∈ answered, each.By handlers) ∧ (∀ invocation ∈ phase, invocation.Of handlers) ∧
      (phase ≠ none → ∃ listener client prog, task.point = .serving listener client prog ∧
        task.sClientFd = client ∧ task.sockets client = some false) := by
  have horderly : task.Orderly handlers :=
    hreach.invariant ⟨none, .refl, rfl⟩ fun _ _ _ hbefore hstep ↦ orderly_step hquiet hbefore hstep
  have haccounted := accounted_of_reachable hreach
  obtain ⟨phase, hmarks, hready⟩ := horderly
  obtain ⟨answered, hequal, hby, hof⟩ := exists_answered hmarks
  refine ⟨answered, phase, hequal, hby, hof, fun hpending ↦ ?_⟩
  cases hpoint : task.point with
  | serving listener client prog =>
    obtain ⟨hserved, -, -, hopen, -⟩ := haccounted.serving hpoint
    exact ⟨listener, client, prog, rfl, hserved, hopen⟩
  | _ =>
    rw [hpoint] at hready
    exact absurd hready hpending

/-- A run in which the handler of `get_channel` has been called and has not returned. -/
theorem invocations_answered_pending :
    ∃ (task : Task Unit) (answered : List Answered) (phase : Option Invocation),
      Reachable (Step (pure true) (handlersOf zeroFunctions [.getChannel])) (initial ()) task ∧
      task.marks = answered.flatMap Answered.marks ++ pendingMarks phase ∧
      task.marks.length = 1 := by
  have hinvoke : (execute (next (pure true) (handlersOf zeroFunctions [.getChannel]))
      (fun _ _ ↦ true) (initial ())
      [.task .ok, .task (.opened 3), .task .ok, .task .ok, .task .ok, .task .ok, .task (.opened 4),
        .task .ok, .session .internal, .session (.reads (frame (Api.id .getChannel) [])),
        .session .internal, .session .internal]).any (fun task ↦ task.marks.length == 1) =
      true := by decide +kernel
  have hsteps : ∀ {before label after},
      next (pure true) (handlersOf zeroFunctions [.getChannel]) before label = some after →
      Step (pure true) (handlersOf zeroFunctions [.getChannel]) before label after := fun h ↦ h
  obtain ⟨task, hreach, hlength⟩ := Reachable.exists_of_execute hsteps _ hinvoke
  have hquiet : LeaveNoMarks (handlersOf zeroFunctions [.getChannel]) := by
    intro handler hhandler request
    obtain ⟨api, -, rfl⟩ := List.mem_map.mp hhandler
    exact fun state ↦ trivial
  obtain ⟨answered, phase, hmarks, -⟩ := invocations_answered hquiet hreach.of_restrict
  exact ⟨task, answered, phase, hreach.of_restrict, hmarks, by simpa using hlength⟩

end Task

end Order

end ZigbeeRemote.Server
