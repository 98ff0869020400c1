import ZigbeeRemote.Client.Stubs
import ZigbeeRemote.Client.ThermostatApp
import Mathlib.Logic.Function.Basic

/-!
# The client's main program

`main` and `on_signal` of `zb_rpc_client/main.cpp`. The main program waits for the link, connects, runs
the application, and may reconnect and run it once more. A signal handler sets a flag and shuts down
the socket it finds in a global variable; that is the only way to end a read of the application, which
is tried again when it is interrupted.

A `Point` is a place in the program text between two accesses to the globals or the operating system,
and `Process.next` is one such access, with what the system call answered. The handler runs between any
two of them, as one step; a handler that another thread runs while the main program goes on, with a
descriptor it has already loaded, is not modelled. The application at its point is the program of the
stubs in execution, so its single reads and writes are steps too. A write that fails only returns an
error: `SIGPIPE` is taken to be ignored. What comes before the first test of the flag is one step, and
so is the release of the link at the end.

`stop_reaches_run`: after a stop request the application never runs on a socket that is still open,
provided that the flag is not set when the main program publishes the socket of its second connection.
The flag is tested after the first socket is published, and not after the second: `stop_missed` is a run
in which the application starts after the request and waits for a response on an open socket.

`redial_of_second_run`: without a stop request, what follows the first run of the application is what
`mainRedial` says, the second run on a new socket or none.
-/

set_option autoImplicit false
set_option relaxedAutoImplicit false

namespace ZigbeeRemote.Client

open Foundation Rpc Zigbee
open ThermostatApp (Report Result)

/-- `thermostat_app::run` on the client's functions. -/
def remoteRun (probeCachedSensor : Bool) : Prog ClientState Report Result :=
  (ThermostatApp.run probeCachedSensor).interpret rpcApi.ask Prog.mark

/-- What `main` does after the first run of the application: it runs it once more, without the probe and
on a new connection, when it is asked to. -/
def mainRedial (client : ClientState) (result : Result) :
    Option (Prog ClientState Report Result × ClientState) :=
  if result = .retryWithoutCache then some (remoteRun false, client) else none

/-! ### The points of the program -/

/-- The two calls of `connect_rpc`. -/
inductive Attempt : Type
  | first
  | retry
  deriving DecidableEq

/-- The points of `connect_rpc`, with its local variables. -/
inductive ConnectPoint : Type
  | inetPton
  | attemptTest (attempt : ℕ)
  | stopTest (attempt : ℕ)
  | socket (attempt : ℕ)
  | getFlags (attempt : ℕ) (socketFd : Int)
  | setNonblock (attempt : ℕ) (socketFd : Int)
  | giveUp (socketFd : Int)
  | connect (attempt : ℕ) (socketFd : Int)
  | poll (attempt : ℕ) (socketFd : Int)
  | pollAgain (attempt : ℕ) (socketFd : Int)
  | getsockopt (attempt : ℕ) (socketFd : Int)
  | restoreFlags (socketFd : Int)
  | close (attempt : ℕ) (socketFd : Int)
  | sleepTest (attempt : ℕ)
  | usleep (attempt : ℕ)

/-- The points of `main`, with its local variables. -/
inductive Point : Type
  | setUp
  | testStop
  | waitTest (elapsed : ℕ)
  | waitStop (elapsed : ℕ)
  | waitIsUp (elapsed : ℕ)
  | waitSleep (elapsed : ℕ)
  | connecting (attempt : Attempt) (point : ConnectPoint)
  | connected (attempt : Attempt) (socketFd : Int)
  | publish (attempt : Attempt) (socketFd : Int)
  | attach (attempt : Attempt) (socketFd : Int)
  | runTest (socketFd : Int)
  | running (probe : Bool) (socketFd : Int) (prog : Prog ClientState Report Result)
      (reports : List Report)
  | retryTest (result : Result) (socketFd : Int)
  | retryDetach (socketFd : Int)
  | retryUnpublish (socketFd : Int)
  | retryShutdown (socketFd : Int)
  | retryClose (socketFd : Int)
  | detach (result : Result) (socketFd : Int)
  | unpublish (result : Result) (socketFd : Int)
  | shutdown (result : Result) (socketFd : Int)
  | close (result : Result) (socketFd : Int)
  | stopLink (success : Bool)
  | exited (code : ℕ)

/-- An open socket: whether the main program or the handler has shut it down. -/
structure Socket where
  shutDown : Bool
  signalled : Bool
  deriving DecidableEq

/-- The process: `options.wait_seconds`, the globals `g_stop_requested`, `g_rpc_socket` and those of
`zigbee_rpc`, the sockets by their descriptors, and the main program. -/
structure Process where
  waitSeconds : ℕ
  gStopRequested : Bool
  gRpcSocket : Int
  client : ClientState
  sockets : Int → Option Socket
  point : Point

/-- The process once the handlers are installed. -/
def Process.initial (waitSeconds : ℕ) : Process := ⟨waitSeconds, false, -1, ⟨-1⟩, fun _ ↦ none, .setUp⟩

/-! ### Steps -/

/-- What a system call answers. A step that makes none has the answer `ok`. -/
inductive Answer : Type
  | ok
  | failed
  /-- `EINPROGRESS`, `EWOULDBLOCK` or `EINTR` from `connect`. -/
  | pending
  /-- `EINTR` from `poll`. -/
  | interrupted
  | opened (fd : Int)
  deriving DecidableEq

/-- A step of the process: the handler, the main program, or the application in it. -/
inductive ProcessLabel : Type
  | signal
  | main (answer : Answer)
  | app (move : Move)
  deriving DecidableEq

namespace Process

/-- Change an open socket. -/
def onSocket (process : Process) (fd : Int) (change : Socket → Socket) : Process :=
  { process with
    sockets := Function.update process.sockets fd ((process.sockets fd).map change) }

/-- `on_signal`. -/
def onSignal (process : Process) : Process :=
  if process.gRpcSocket ≥ 0 then
    { process with gStopRequested := true }.onSocket process.gRpcSocket
      fun socket ↦ { socket with signalled := true }
  else { process with gStopRequested := true }

/-- The program goes on at another point. -/
def goto (process : Process) (point : Point) : Process := { process with point := point }

/-- `close`. -/
def closeSocket (process : Process) (fd : Int) : Process :=
  { process with sockets := Function.update process.sockets fd none }

/-- One step of `connect_rpc`. -/
def connectStep (process : Process) (attempt : Attempt) : ConnectPoint → Answer → Option Process
  | .inetPton, .ok => some (process.goto (.connecting attempt (.attemptTest 0)))
  | .inetPton, .failed => some (process.goto (.connected attempt (-1)))
  | .attemptTest number, .ok =>
    some (process.goto
      (if number < 50 then .connecting attempt (.stopTest number) else .connected attempt (-1)))
  | .stopTest number, .ok =>
    some (process.goto
      (if process.gStopRequested then .connected attempt (-1)
      else .connecting attempt (.socket number)))
  | .socket _, .failed => some (process.goto (.connected attempt (-1)))
  | .socket number, .opened fd =>
    if 0 ≤ fd ∧ process.sockets fd = none then
      some ({ process with
        sockets := Function.update process.sockets fd (some ⟨false, false⟩) }.goto
          (.connecting attempt (.getFlags number fd)))
    else none
  | .getFlags number fd, .ok => some (process.goto (.connecting attempt (.setNonblock number fd)))
  | .getFlags _ fd, .failed => some (process.goto (.connecting attempt (.giveUp fd)))
  | .setNonblock number fd, .ok => some (process.goto (.connecting attempt (.connect number fd)))
  | .setNonblock _ fd, .failed => some (process.goto (.connecting attempt (.giveUp fd)))
  | .giveUp fd, .ok => some ((process.closeSocket fd).goto (.connected attempt (-1)))
  | .connect _ fd, .ok => some (process.goto (.connecting attempt (.restoreFlags fd)))
  | .connect number fd, .pending => some (process.goto (.connecting attempt (.poll number fd)))
  | .connect number fd, .failed => some (process.goto (.connecting attempt (.close number fd)))
  -- The answer `failed` stands for a timeout as well.
  | .poll number fd, .ok => some (process.goto (.connecting attempt (.getsockopt number fd)))
  | .poll number fd, .failed => some (process.goto (.connecting attempt (.close number fd)))
  | .poll number fd, .interrupted => some (process.goto (.connecting attempt (.pollAgain number fd)))
  | .pollAgain number fd, .ok =>
    some (process.goto (.connecting attempt
      (if process.gStopRequested then .close number fd else .poll number fd)))
  | .getsockopt _ fd, .ok => some (process.goto (.connecting attempt (.restoreFlags fd)))
  | .getsockopt number fd, .failed => some (process.goto (.connecting attempt (.close number fd)))
  | .restoreFlags fd, .ok => some (process.goto (.connected attempt fd))
  | .close number fd, .ok =>
    some ((process.closeSocket fd).goto (.connecting attempt (.sleepTest number)))
  | .sleepTest number, .ok =>
    some (process.goto (.connecting attempt
      (if process.gStopRequested then .attemptTest (number + 1) else .usleep number)))
  | .usleep number, .ok => some (process.goto (.connecting attempt (.attemptTest (number + 1))))
  | _, _ => none

/-- One step of `main`. -/
def mainStep (process : Process) : Point → Answer → Option Process
  | .setUp, .ok => some (process.goto .testStop)
  | .setUp, .failed => some (process.goto (.exited 1))
  | .testStop, .ok =>
    some (process.goto (if process.gStopRequested then .stopLink false else .waitTest 0))
  | .waitTest elapsed, .ok =>
    some (process.goto
      (if elapsed < process.waitSeconds * 10 then .waitStop elapsed else .stopLink false))
  | .waitStop elapsed, .ok =>
    some (process.goto (if process.gStopRequested then .stopLink false else .waitIsUp elapsed))
  | .waitIsUp _, .ok => some (process.goto (.connecting .first .inetPton))
  | .waitIsUp elapsed, .failed => some (process.goto (.waitSleep elapsed))
  | .waitSleep elapsed, .ok => some (process.goto (.waitTest (elapsed + 1)))
  | .connecting attempt point, answer => process.connectStep attempt point answer
  | .connected .first fd, .ok =>
    some (process.goto (if fd ≥ 0 then .publish .first fd else .stopLink false))
  | .connected .retry fd, .ok =>
    some (process.goto (if fd ≥ 0 then .publish .retry fd else .detach .retryWithoutCache fd))
  | .publish attempt fd, .ok => some ({ process with gRpcSocket := fd }.goto (.attach attempt fd))
  | .attach .first fd, .ok => some ({ process with client := ⟨fd⟩ }.goto (.runTest fd))
  | .attach .retry fd, .ok =>
    some ({ process with client := ⟨fd⟩ }.goto (.running false fd (remoteRun false) []))
  | .runTest fd, .ok =>
    some (process.goto
      (if process.gStopRequested then .detach .failure fd else .running true fd (remoteRun true) []))
  | .running probe fd (.done result) _, .ok =>
    some (process.goto (if probe then .retryTest result fd else .detach result fd))
  | .retryTest result fd, .ok =>
    some (process.goto
      (if result = .retryWithoutCache ∧ process.gStopRequested = false then .retryDetach fd
      else .detach result fd))
  | .retryDetach fd, .ok => some ({ process with client := ⟨-1⟩ }.goto (.retryUnpublish fd))
  | .retryUnpublish fd, .ok => some ({ process with gRpcSocket := -1 }.goto (.retryShutdown fd))
  | .retryShutdown fd, .ok =>
    some ((process.onSocket fd fun socket ↦ { socket with shutDown := true }).goto (.retryClose fd))
  | .retryClose fd, .ok => some ((process.closeSocket fd).goto (.connecting .retry .inetPton))
  | .detach result fd, .ok =>
    some ({ process with client := ⟨-1⟩ }.goto
      (if fd ≥ 0 then .unpublish result fd else .stopLink (decide (result = Result.success))))
  | .unpublish result fd, .ok => some ({ process with gRpcSocket := -1 }.goto (.shutdown result fd))
  | .shutdown result fd, .ok =>
    some ((process.onSocket fd fun socket ↦ { socket with shutDown := true }).goto (.close result fd))
  | .close result fd, .ok =>
    some ((process.closeSocket fd).goto (.stopLink (decide (result = Result.success))))
  | .stopLink success, .ok => some (process.goto (.exited (if success then 0 else 1)))
  | _, _ => none

/-- One step of the application. -/
def appStep (process : Process) (move : Move) : Option Process :=
  match process.point with
  | .running probe fd prog reports =>
    (Thread.next (fun _ ↦ none) ⟨prog, process.client, reports⟩ move).map fun later ↦
      { process with client := later.state, point := .running probe fd later.prog later.marks }
  | _ => none

/-- One step of the process. -/
def next (process : Process) : ProcessLabel → Option Process
  | .signal => some process.onSignal
  | .main answer => process.mainStep process.point answer
  | .app move => process.appStep move

/-- The steps of the process as a relation. -/
def Step (before : Process) (label : ProcessLabel) (after : Process) : Prop :=
  before.next label = some after

theorem Step.of_next {before after : Process} {label : ProcessLabel}
    (hnext : before.next label = some after) : Step before label after := hnext

end Process

/-! ### The application leaves the globals alone -/

section ReadOnly

variable {α : Type}

/-- Programs that only look at the globals. -/
def readOnly : Discipline ClientState Report Unit where
  rely := fun _ ↦ True
  ask := fun before after _ _ ↦ after = before
  tell := fun _ _ _ ↦ True

theorem readOnly_stub (d : RpcDesc) (request : d.Req) (otherwise : α) (convert : d.Resp → α) :
    (stub d request otherwise convert : Prog ClientState Report α).Follows readOnly
      (fun _ _ ↦ True) () := by
  refine Prog.Follows.bind (Prog.follows_lift fun state _ ↦ ⟨(), rfl, ?_⟩)
  split_ifs
  · trivial
  · refine Prog.Follows.bind ((silent_call d request .none).follows fun result ↦ ?_)
    cases hresult : result.1 <;> trivial

theorem readOnly_ask (call : ApiCall) :
    (rpcApi.ask call : Prog ClientState Report call.Result).Follows readOnly (fun _ _ ↦ True) () := by
  cases call <;> exact readOnly_stub _ _ _ _

theorem readOnly_interpret (script : ThermostatApp.App α) :
    (script.interpret rpcApi.ask Prog.mark : Prog ClientState Report α).Follows readOnly
      (fun _ _ ↦ True) () := by
  induction script with
  | done value => trivial
  | call call next ih => exact Prog.Follows.bind ((readOnly_ask call).imp fun answer _ _ ↦ ih answer)
  | note report next ih => exact ⟨(), trivial, ih⟩

end ReadOnly

/-! ### A stop request reaches the application -/

/-- The socket that `connect_rpc` holds at a point. -/
def ConnectPoint.socketFd : ConnectPoint → Option Int
  | .getFlags _ fd => some fd
  | .setNonblock _ fd => some fd
  | .giveUp fd => some fd
  | .connect _ fd => some fd
  | .poll _ fd => some fd
  | .pollAgain _ fd => some fd
  | .getsockopt _ fd => some fd
  | .restoreFlags fd => some fd
  | .close _ fd => some fd
  | _ => none

namespace Process

/-- A descriptor of an open socket. -/
def Opened (process : Process) (fd : Int) : Prop := 0 ≤ fd ∧ process.sockets fd ≠ none

/-- After a stop request the handler has shut this socket down. -/
def Signalled (process : Process) (fd : Int) : Prop :=
  process.gStopRequested = true →
    ∃ socket, process.sockets fd = some socket ∧ socket.signalled = true

/-- The handler knows this open socket. -/
def Published (process : Process) (fd : Int) : Prop :=
  process.gRpcSocket = fd ∧ process.Opened fd

/-- What holds at a point. -/
def SoundAt (process : Process) : Point → Prop
  | .connecting _ point => ∀ fd, point.socketFd = some fd → process.Opened fd
  | .connected _ fd => 0 ≤ fd → process.Opened fd
  | .publish _ fd => process.Opened fd
  | .attach .first fd => process.Published fd
  | .attach .retry fd => process.Published fd ∧ process.Signalled fd
  | .runTest fd => process.Published fd ∧ process.client = ⟨fd⟩
  | .running _ fd prog _ => process.Published fd ∧ process.Signalled fd ∧ process.client = ⟨fd⟩ ∧
      prog.Follows readOnly (fun _ _ ↦ True) ()
  | _ => True

/-- What holds at the point where the program is. -/
def Sound (process : Process) : Prop := process.SoundAt process.point

section Signal

variable {process : Process} {fd : Int}

theorem onSignal_point : process.onSignal.point = process.point := by
  unfold onSignal
  split_ifs <;> rfl

theorem onSignal_client : process.onSignal.client = process.client := by
  unfold onSignal
  split_ifs <;> rfl

theorem onSignal_gRpcSocket : process.onSignal.gRpcSocket = process.gRpcSocket := by
  unfold onSignal
  split_ifs <;> rfl

theorem Opened.onSignal (hopened : process.Opened fd) : process.onSignal.Opened fd := by
  refine ⟨hopened.1, ?_⟩
  unfold Process.onSignal
  split_ifs with hsocket
  · by_cases hsame : fd = process.gRpcSocket
    · subst hsame
      simpa [onSocket] using hopened.2
    · simpa [onSocket, Function.update_of_ne hsame] using hopened.2
  · exact hopened.2

theorem Published.onSignal (hpublished : process.Published fd) :
    process.onSignal.Published fd ∧ process.onSignal.Signalled fd := by
  refine ⟨⟨onSignal_gRpcSocket.trans hpublished.1, hpublished.2.onSignal⟩, fun _ ↦ ?_⟩
  obtain ⟨rfl, hvalid, hopen⟩ := hpublished
  obtain ⟨socket, hsocket⟩ := Option.ne_none_iff_exists'.mp hopen
  refine ⟨{ socket with signalled := true }, ?_, rfl⟩
  rw [Process.onSignal, if_pos hvalid]
  simp [onSocket, hsocket]

/-- The handler can run at every point. -/
theorem SoundAt.onSignal {point : Point} (hsound : process.SoundAt point) :
    process.onSignal.SoundAt point := by
  cases point with
  | connecting attempt point => exact fun fd hfd ↦ (hsound fd hfd).onSignal
  | connected attempt fd => exact fun hvalid ↦ (hsound hvalid).onSignal
  | publish attempt fd => exact Opened.onSignal hsound
  | attach attempt fd =>
    cases attempt with
    | first => exact (Published.onSignal hsound).1
    | retry => exact Published.onSignal hsound.1
  | runTest fd => exact ⟨(Published.onSignal hsound.1).1, onSignal_client.trans hsound.2⟩
  | running probe fd prog reports =>
    obtain ⟨hpublished, hsignalled⟩ := Published.onSignal hsound.1
    exact ⟨hpublished, hsignalled, onSignal_client.trans hsound.2.2.1, hsound.2.2.2⟩
  | _ => trivial

end Signal

section Steps

variable {process after : Process}

/-- `connect_rpc` holds an open socket and returns an open one. -/
theorem sound_connectStep {attempt : Attempt} {point : ConnectPoint} {answer : Answer}
    (hsound : process.SoundAt (.connecting attempt point))
    (hstep : process.connectStep attempt point answer = some after) : after.Sound := by
  have hkept : ∀ fd, point.socketFd = some fd → process.Opened fd := hsound
  unfold connectStep at hstep
  split at hstep
  case h_6 =>
    split_ifs at hstep with hfresh
    cases hstep
    rintro _ ⟨⟩
    exact ⟨hfresh.1, by simp [goto]⟩
  -- Every other step keeps the socket it holds, holds none, or returns it or a failure.
  all_goals cases hstep
  all_goals simp only [goto]
  all_goals (try split_ifs)
  all_goals first
    | exact fun fd hfd ↦ hkept fd hfd
    | exact fun fd hfd ↦ nomatch hfd
    | exact fun hvalid ↦ absurd hvalid (by decide)
    | exact fun _ ↦ hkept _ rfl

/-- Unless the step publishes the socket of the second connection, the flag may be set. -/
def inTime (process : Process) : ProcessLabel → Bool
  | .main .ok =>
    match process.point with
    | .publish .retry _ => !process.gStopRequested
    | _ => true
  | _ => true

/-- Outside `connect_rpc` only two steps depend on the answer of a system call. -/
theorem answer_of_mainStep {point : Point} {answer : Answer}
    (hstep : process.mainStep point answer = some after) :
    answer = .ok ∨ (∃ attempt connectPoint, point = .connecting attempt connectPoint) ∨
      point = .setUp ∨ ∃ elapsed, point = .waitIsUp elapsed := by
  unfold mainStep at hstep
  split at hstep
  all_goals first
    | exact Or.inl rfl
    | exact Or.inr (Or.inl ⟨_, _, rfl⟩)
    | exact Or.inr (Or.inr (Or.inl rfl))
    | exact Or.inr (Or.inr (Or.inr ⟨_, rfl⟩))
    | cases hstep

theorem sound_ok {point : Point} (hpoint : process.point = point) (hsound : process.SoundAt point)
    (htime : process.inTime (.main .ok) = true) (hstep : process.mainStep point .ok = some after) :
    after.Sound := by
  cases point with
  | connecting attempt point => exact sound_connectStep hsound hstep
  | publish attempt fd =>
    cases hstep
    cases attempt with
    | first => exact ⟨rfl, hsound⟩
    | retry =>
      refine ⟨⟨rfl, hsound⟩, fun hstop ↦ ?_⟩
      rw [inTime, hpoint] at htime
      simp [goto] at hstop
      simp [hstop] at htime
  | connected attempt fd =>
    cases attempt <;>
    · cases hstep
      simp only [goto]
      split_ifs with hvalid
      · exact hsound hvalid
      · trivial
  | attach attempt fd =>
    cases attempt with
    | first =>
      cases hstep
      exact ⟨hsound, rfl⟩
    | retry =>
      cases hstep
      exact ⟨hsound.1, hsound.2, rfl, readOnly_interpret _⟩
  | runTest fd =>
    cases hstep
    simp only [goto]
    split_ifs with hstop
    · trivial
    · exact ⟨hsound.1, fun hset ↦ absurd hset hstop, hsound.2, readOnly_interpret _⟩
  | running probe fd prog reports =>
    cases prog with
    | done result =>
      cases hstep
      cases probe <;> trivial
    | _ => cases hstep
  | _ =>
    -- The other steps lead to points where nothing is required, or into `connect_rpc`.
    cases hstep <;> simp only [goto] <;> (try split_ifs) <;>
      first | trivial | exact fun fd hfd ↦ nomatch hfd

theorem sound_mainStep {answer : Answer} (hsound : process.SoundAt process.point)
    (htime : process.inTime (.main answer) = true)
    (hstep : process.mainStep process.point answer = some after) : after.Sound := by
  rcases answer_of_mainStep hstep with rfl | ⟨attempt, point, hpoint⟩ | hpoint | ⟨elapsed, hpoint⟩
  · exact sound_ok rfl hsound htime hstep
  · rw [hpoint] at hsound hstep
    exact sound_connectStep hsound hstep
  · rw [hpoint] at hstep
    cases answer <;> cases hstep <;> trivial
  · rw [hpoint] at hstep
    cases answer <;> cases hstep
    · exact fun fd hfd ↦ nomatch hfd
    · trivial

/-- The application reads and writes, and leaves the globals alone. -/
theorem sound_appStep {move : Move} (hsound : process.SoundAt process.point)
    (hstep : process.appStep move = some after) : after.Sound := by
  unfold appStep at hstep
  split at hstep
  · next probe fd prog reports hpoint =>
    rw [hpoint] at hsound
    obtain ⟨hpublished, hsignalled, hclient, hfollows⟩ := hsound
    obtain ⟨later, hlater, rfl⟩ := Option.map_eq_some_iff.mp hstep
    have hthread : Thread.Step (fun _ ↦ none) ⟨prog, process.client, reports⟩ move later :=
      .of_next hlater
    have hprogram : (⟨prog, process.client, reports⟩ : Thread ClientState Report Result).prog.Follows
        readOnly (fun _ _ ↦ True) () := hfollows
    obtain ⟨_, hprog, hdid⟩ := hprogram.step trivial (fun _ _ hnone ↦ by cases hnone) hthread
    have hstate : later.state = process.client := by
      cases hdid with
      | asked hask _ => exact hask
      | told _ hstate _ => exact hstate
      | neither _ hstate _ => exact hstate
    exact ⟨hpublished, hsignalled, hstate.trans hclient, hprog⟩
  · cases hstep

end Steps

/-- What holds at the points of the program, in every run that does not publish the second socket
after a stop request. -/
theorem sound_of_reachable {waitSeconds : ℕ} {process : Process}
    (hreach : Reachable (restrict Step fun before label ↦ before.inTime label = true)
      (initial waitSeconds) process) : process.Sound := by
  have hstart : (initial waitSeconds).Sound := trivial
  refine hreach.invariant hstart ?_
  rintro before label after hbefore ⟨hstep, htime⟩
  cases label with
  | signal =>
    cases Option.some.inj hstep
    have hpoint : before.onSignal.SoundAt before.point := SoundAt.onSignal hbefore
    rw [← onSignal_point] at hpoint
    exact hpoint
  | main answer => exact sound_mainStep hbefore htime hstep
  | app move => exact sound_appStep hbefore hstep

/-- After a stop request, the socket the application runs on has been shut down by the handler. Assumes:
in the run so far, the flag was not set when the main program published the socket of its second
connection. -/
theorem stop_reaches_run {waitSeconds : ℕ} {process : Process}
    (hreach : Reachable (restrict Step fun before label ↦ before.inTime label = true)
      (initial waitSeconds) process) (hstop : process.gStopRequested = true) {probe : Bool} {socketFd : Int}
    {prog : Prog ClientState Report Result} {reports : List Report}
    (hpoint : process.point = .running probe socketFd prog reports) :
    ∃ socket, process.sockets process.client.gFd = some socket ∧ socket.signalled = true := by
  have hsound : process.SoundAt process.point := sound_of_reachable hreach
  rw [hpoint] at hsound
  obtain ⟨-, hsignalled, hclient, -⟩ := hsound
  rw [hclient]
  exact hsignalled hstop

/-! ### From the first run to the second -/

section SecondRun

/-- What the main program does after a first run of the application that has ended with `result`, when
nobody asks it to stop. -/
def AfterRunAt (result : Result) (process : Process) : Point → Prop
  | .running true _ prog _ => prog = .done result
  | .retryTest other _ => other = result
  | .retryDetach _ => result = .retryWithoutCache
  | .retryUnpublish _ => result = .retryWithoutCache
  | .retryShutdown _ => result = .retryWithoutCache
  | .retryClose _ => result = .retryWithoutCache
  | .connecting attempt _ => attempt = .retry ∧ result = .retryWithoutCache
  | .connected attempt _ => attempt = .retry ∧ result = .retryWithoutCache
  | .publish attempt fd => attempt = .retry ∧ result = .retryWithoutCache ∧ 0 ≤ fd
  | .attach attempt fd => attempt = .retry ∧ result = .retryWithoutCache ∧ 0 ≤ fd
  | .running false fd prog reports => result = .retryWithoutCache ∧ 0 ≤ fd ∧ prog = remoteRun false ∧
      reports = [] ∧ process.client = ⟨fd⟩
  | .detach other _ => other = result
  | .unpublish other _ => other = result
  | .shutdown other _ => other = result
  | .close other _ => other = result
  | .stopLink success => success = decide (result = .success)
  | .exited code => code = if result = .success then 0 else 1
  | _ => False

/-- The same at the point where the program is. -/
def AfterRun (result : Result) (process : Process) : Prop :=
  process.gStopRequested = false ∧ process.AfterRunAt result process.point

/-- The step is one of the main program. -/
def isMain (_ : Process) : ProcessLabel → Bool
  | .main _ => true
  | _ => false

variable {process after : Process} {result : Result}

theorem afterRun_connectStep {attempt : Attempt} {point : ConnectPoint} {answer : Answer}
    (hstop : process.gStopRequested = false)
    (hbefore : process.AfterRunAt result (.connecting attempt point))
    (hstep : process.connectStep attempt point answer = some after) : after.AfterRun result := by
  unfold connectStep at hstep
  split at hstep
  case h_6 =>
    split_ifs at hstep
    cases hstep
    exact ⟨hstop, hbefore⟩
  all_goals cases hstep
  all_goals simp only [goto]
  all_goals (try split_ifs)
  all_goals exact ⟨hstop, hbefore⟩

theorem afterRun_ok {point : Point} (hstop : process.gStopRequested = false)
    (hat : process.AfterRunAt result point) (hstep : process.mainStep point .ok = some after) :
    after.AfterRun result := by
  cases point with
  | connecting attempt point => exact afterRun_connectStep hstop hat hstep
  | running probe fd prog reports =>
    cases probe with
    | true =>
      obtain rfl : prog = .done result := hat
      cases hstep
      exact ⟨hstop, rfl⟩
    | false =>
      -- The application has only started.
      obtain ⟨-, -, rfl, -, -⟩ := hat
      cases hstep
  | retryTest other fd =>
    obtain rfl : other = result := hat
    cases hstep
    refine ⟨hstop, ?_⟩
    simp only [goto]
    split_ifs with hagain
    · exact hagain.1
    · rfl
  | connected attempt fd =>
    obtain ⟨rfl, hresult⟩ := hat
    cases hstep
    refine ⟨hstop, ?_⟩
    simp only [goto]
    split_ifs with hvalid
    · exact ⟨rfl, hresult, hvalid⟩
    · exact hresult.symm
  | attach attempt fd =>
    obtain ⟨rfl, hresult, hvalid⟩ := hat
    cases hstep
    exact ⟨hstop, hresult, hvalid, rfl, rfl, rfl⟩
  | detach other fd =>
    obtain rfl : other = result := hat
    cases hstep
    refine ⟨hstop, ?_⟩
    simp only [goto]
    split_ifs <;> rfl
  | close other fd =>
    obtain rfl : other = result := hat
    cases hstep
    exact ⟨hstop, rfl⟩
  | stopLink success =>
    obtain rfl : success = decide (result = .success) := hat
    cases hstep
    refine ⟨hstop, ?_⟩
    simp [goto, AfterRunAt]
  | _ =>
    -- The other steps only go on, or are not made after a run.
    cases hstep <;> first | exact ⟨hstop, hat⟩ | exact ⟨hstop, rfl, hat⟩ | exact hat.elim

theorem afterRun_mainStep {answer : Answer} (hbefore : process.AfterRun result)
    (hstep : process.mainStep process.point answer = some after) : after.AfterRun result := by
  obtain ⟨hstop, hat⟩ := hbefore
  rcases answer_of_mainStep hstep with rfl | ⟨attempt, point, hpoint⟩ | hpoint | ⟨elapsed, hpoint⟩
  · exact afterRun_ok hstop hat hstep
  · rw [hpoint] at hat hstep
    exact afterRun_connectStep hstop hat hstep
  · rw [hpoint] at hat
    exact hat.elim
  · rw [hpoint] at hat
    exact hat.elim

/-- After the first run the main program does as its result says, as long as nobody asks it to stop. -/
theorem afterRun_of_reachable {start : Process} (hstart : start.AfterRun result)
    (hreach : Reachable (restrict Step fun before label ↦ before.isMain label = true) start process) :
    process.AfterRun result := by
  refine hreach.invariant hstart ?_
  rintro before label after hbefore ⟨hstep, hmain⟩
  cases label with
  | signal => cases hmain
  | main answer => exact afterRun_mainStep hbefore hstep
  | app move => cases hmain

/-- When the main program runs the application again, it is because `mainRedial` says so of the result of
the first run, with the program it says and on a socket that is attached. -/
theorem redial_of_second_run {start : Process} {socketFd againFd : Int} {reports later : List Report}
    {prog : Prog ClientState Report Result} (hstop : start.gStopRequested = false)
    (hfirst : start.point = .running true socketFd (.done result) reports)
    (hreach : Reachable (restrict Step fun before label ↦ before.isMain label = true) start process)
    (hsecond : process.point = .running false againFd prog later) :
    mainRedial process.client result = some (prog, process.client) ∧
      process.client.attached = true ∧ later = [] := by
  have hstart : start.AfterRunAt result start.point := by
    rw [hfirst]
    rfl
  obtain ⟨-, hat⟩ := afterRun_of_reachable ⟨hstop, hstart⟩ hreach
  rw [hsecond] at hat
  obtain ⟨rfl, hvalid, rfl, hnone, hclient⟩ := hat
  refine ⟨if_pos rfl, ?_, hnone⟩
  rw [hclient]
  exact decide_eq_true hvalid

end SecondRun

/-! ### Runs -/

/-- The steps from the start to the application, with a first connection that succeeds at once. -/
def firstRun : List ProcessLabel :=
  List.replicate 8 (.main .ok) ++ [.main (.opened 3)] ++ List.replicate 8 (.main .ok)

/-- The application asks for the PAN id and waits for the response. -/
def panidRequest : List ProcessLabel :=
  [.app .internal, .app (.writes (headerBytes kMagic Api.getPanid.id 0)), .app .internal]

/-- A call is sent, and the end of the stream is found in place of the response. -/
def callAtEnd (api : Api) : List ProcessLabel :=
  [.app .internal, .app (.writes (headerBytes kMagic api.id 0)), .app .internal, .app .readFails]

/-- The PAN id arrives, and the server ends its stream. It may still read, so the requests are
written. -/
def brokenProbe : List ProcessLabel :=
  [.app (.reads (headerBytes kMagic Api.getPanid.id 2)), .app .internal, .app (.reads [0x34, 0x12]),
    .app .internal] ++ callAtEnd .getChannel ++ callAtEnd .getSensorAddr

/-- The steps from the end of the first run to the second, with something in between once `connect` has
succeeded. -/
def reconnect (meanwhile : List ProcessLabel) : List ProcessLabel :=
  List.replicate 9 (.main .ok) ++ [.main (.opened 3)] ++ List.replicate 3 (.main .ok) ++ meanwhile ++
    List.replicate 4 (.main .ok)

/-- The application waits for the start of a response after a stop request. -/
def isWaiting (process : Process) : Bool :=
  process.gStopRequested &&
    match process.point with
    | .running _ _ (.recv size _) _ => size == Packed.size WireHeader
    | _ => false

theorem exists_running_of_isWaiting {process : Process} (hwaiting : process.isWaiting = true) :
    process.gStopRequested = true ∧ ∃ probe socketFd rest reports,
      process.point = .running probe socketFd (.recv (Packed.size WireHeader) rest) reports := by
  rw [isWaiting, Bool.and_eq_true] at hwaiting
  refine ⟨hwaiting.1, ?_⟩
  have hread := hwaiting.2
  split at hread
  · next probe socketFd size rest reports hpoint =>
    exact ⟨probe, socketFd, rest, reports, by rw [hpoint, ← beq_iff_eq.mp hread]⟩
  · cases hread

/-- The second run of the application. -/
def isSecondRun (process : Process) : Bool :=
  match process.point with
  | .running probe _ _ _ => !probe
  | _ => false

/-- A stop request while the application waits for its first response, in its second run. -/
theorem stop_reaches_first_run :
    ∃ process, Reachable (restrict Step fun before label ↦ before.inTime label = true) (initial 60)
        process ∧ process.isSecondRun = true ∧ process.isWaiting = true ∧
      ∃ socket, process.sockets process.client.gFd = some socket ∧ socket.signalled = true := by
  have hrun : ((execute next inTime (initial 60) (firstRun ++ panidRequest ++ brokenProbe ++
      reconnect [] ++ panidRequest ++ [.signal])).any fun process ↦ process.isSecondRun &&
        process.isWaiting) = true := by
    decide +kernel
  obtain ⟨process, hreach, htest⟩ := Reachable.exists_of_execute Step.of_next _ hrun
  rw [Bool.and_eq_true] at htest
  obtain ⟨hstop, probe, socketFd, rest, reports, hpoint⟩ := exists_running_of_isWaiting htest.2
  exact ⟨process, hreach, htest.1, htest.2, stop_reaches_run hreach hstop hpoint⟩

/-- A stop request in the second call of `connect_rpc`, after its last test of the flag: the
application runs on and waits for a response on a socket that nobody has shut down. -/
theorem stop_missed :
    ∃ process, Reachable Step (initial 60) process ∧ process.gStopRequested = true ∧
      (∃ probe socketFd rest reports,
        process.point = .running probe socketFd (.recv (Packed.size WireHeader) rest) reports) ∧
      process.sockets process.client.gFd = some ⟨false, false⟩ := by
  have hrun : ((execute next (fun _ _ ↦ true) (initial 60) (firstRun ++ panidRequest ++ brokenProbe ++
      reconnect [.signal] ++ panidRequest)).any fun process ↦ process.isWaiting &&
        process.sockets process.client.gFd == some ⟨false, false⟩) = true := by
    decide +kernel
  obtain ⟨process, hreach, htest⟩ := Reachable.exists_of_execute Step.of_next _ hrun
  rw [Bool.and_eq_true] at htest
  obtain ⟨hstop, hpoint⟩ := exists_running_of_isWaiting htest.1
  exact ⟨process, hreach.of_restrict, hstop, hpoint, beq_iff_eq.mp htest.2⟩

end Process

end ZigbeeRemote.Client
