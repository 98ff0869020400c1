import ZigbeeRemote.Client.Main

/-!
# The sockets of the main program

What `main` and `connect_rpc` of `zb_rpc_client/main.cpp` do with descriptors, in every run: any
answers of the system calls, signals at any time between two steps of the main program, and the
application at any pace.

`sockets_accounted`: there is never more than one open socket, the one the main program holds at its
point. After every step `g_rpc_socket` names that socket or none, and so does the descriptor that the
functions of `zigbee_rpc` use. When the process exits nothing is open. A handler that is run by another
thread may still have an older descriptor in hand; that is outside the model.

`stop_bounds_main`: after a stop request the main program makes at most 20 steps, whatever the system
calls answer.
-/

set_option autoImplicit false
set_option relaxedAutoImplicit false

namespace ZigbeeRemote.Client

open Foundation
open ThermostatApp (Report Result)

/-! ### What the main program holds -/

/-- A descriptor, unless it is negative. -/
def validFd (fd : Int) : Option Int := if 0 ≤ fd then some fd else none

theorem validFd_of_nonneg {fd : Int} (hvalid : 0 ≤ fd) : validFd fd = some fd := if_pos hvalid

theorem validFd_of_neg {fd : Int} (hvalid : ¬ 0 ≤ fd) : validFd fd = none := if_neg hvalid

/-- The socket that the main program holds at a point. -/
def Point.heldFd : Point → Option Int
  | .connecting _ point => point.socketFd
  | .connected _ fd => validFd fd
  | .publish _ fd => some fd
  | .attach _ fd => some fd
  | .runTest fd => some fd
  | .running _ fd _ _ => some fd
  | .retryTest _ fd => some fd
  | .retryDetach fd => some fd
  | .retryUnpublish fd => some fd
  | .retryShutdown fd => some fd
  | .retryClose fd => some fd
  | .detach _ fd => validFd fd
  | .unpublish _ fd => some fd
  | .shutdown _ fd => some fd
  | .close _ fd => some fd
  | _ => none

/-- The socket that `g_rpc_socket` names at a point. -/
def Point.publishedFd : Point → Option Int
  | .attach _ fd => some fd
  | .runTest fd => some fd
  | .running _ fd _ _ => some fd
  | .retryTest _ fd => some fd
  | .retryDetach fd => some fd
  | .retryUnpublish fd => some fd
  | .detach _ fd => validFd fd
  | .unpublish _ fd => some fd
  | _ => none

/-- The socket that the functions of `zigbee_rpc` use at a point. -/
def Point.attachedFd : Point → Option Int
  | .runTest fd => some fd
  | .running _ fd _ _ => some fd
  | .retryTest _ fd => some fd
  | .retryDetach fd => some fd
  | .detach _ fd => validFd fd
  | _ => none

/-- Where a socket is published or attached, the main program holds it. -/
theorem Point.publishedFd_eq (point : Point) :
    point.publishedFd = none ∨ point.publishedFd = point.heldFd := by
  cases point
  all_goals first | exact .inl rfl | exact .inr rfl

theorem Point.attachedFd_eq (point : Point) :
    point.attachedFd = none ∨ point.attachedFd = point.heldFd := by
  cases point
  all_goals first | exact .inl rfl | exact .inr rfl

namespace Process

/-- The descriptors of a process are those that its point accounts for. -/
structure Accounted (process : Process) : Prop where
  held : ∀ fd, process.sockets fd ≠ none ↔ process.point.heldFd = some fd
  valid : ∀ fd, process.point.heldFd = some fd → 0 ≤ fd
  published : process.gRpcSocket = process.point.publishedFd.getD (-1)
  attached : process.client = ⟨process.point.attachedFd.getD (-1)⟩
  follows : ∀ probe fd prog reports, process.point = .running probe fd prog reports →
    prog.Follows readOnly (fun _ _ ↦ True) ()

theorem accounted_initial (waitSeconds : ℕ) : (initial waitSeconds).Accounted := by
  constructor
  all_goals simp [initial, Point.heldFd, Point.publishedFd, Point.attachedFd]

section Steps

variable {process after : Process} {point : Point}

/-- A step that opens and closes nothing. -/
theorem Accounted.moved (haccounted : process.Accounted) (hsockets : after.sockets = process.sockets)
    (hheld : after.point.heldFd = process.point.heldFd)
    (hpublished : after.gRpcSocket = after.point.publishedFd.getD (-1))
    (hattached : after.client = ⟨after.point.attachedFd.getD (-1)⟩)
    (hfollows : ∀ probe fd prog reports, after.point = .running probe fd prog reports →
      prog.Follows readOnly (fun _ _ ↦ True) ()) : after.Accounted where
  held := by
    intro fd
    rw [hsockets, hheld]
    exact haccounted.held fd
  valid := by
    intro fd hfd
    exact haccounted.valid fd (hheld ▸ hfd)
  published := hpublished
  attached := hattached
  follows := hfollows

/-- A step to a point that holds the same. -/
theorem Accounted.goto (haccounted : process.Accounted) (hheld : point.heldFd = process.point.heldFd)
    (hpublished : point.publishedFd = process.point.publishedFd)
    (hattached : point.attachedFd = process.point.attachedFd)
    (hfollows : ∀ probe fd prog reports, point = .running probe fd prog reports →
      prog.Follows readOnly (fun _ _ ↦ True) ()) : (process.goto point).Accounted := by
  refine haccounted.moved rfl hheld ?_ ?_ hfollows
  · show process.gRpcSocket = point.publishedFd.getD (-1)
    rw [hpublished, haccounted.published]
  · show process.client = ⟨point.attachedFd.getD (-1)⟩
    rw [hattached, haccounted.attached]

/-- `close` of the socket that is held, once nobody else knows it. -/
theorem Accounted.close (haccounted : process.Accounted) {fd : Int}
    (hheld : process.point.heldFd = some fd) (hpublished : process.point.publishedFd = none)
    (hattached : process.point.attachedFd = none) (hnone : point.heldFd = none)
    (hfollows : ∀ probe fd prog reports, point ≠ .running probe fd prog reports) :
    ((process.closeSocket fd).goto point).Accounted where
  held := by
    intro other
    have hother := haccounted.held other
    rw [hheld] at hother
    show Function.update process.sockets fd none other ≠ none ↔ point.heldFd = some other
    rw [hnone]
    by_cases hsame : other = fd
    · simp [hsame]
    · simp only [Function.update_of_ne hsame, reduceCtorEq, iff_false]
      rw [hother]
      simp [Ne.symm hsame]
  valid := by
    intro other hother
    have hsome : point.heldFd = some other := hother
    rw [hnone] at hsome
    cases hsome
  published := by
    have hpoint := point.publishedFd_eq
    rw [hnone, or_self] at hpoint
    show process.gRpcSocket = point.publishedFd.getD (-1)
    rw [hpoint, haccounted.published, hpublished]
  attached := by
    have hpoint := point.attachedFd_eq
    rw [hnone, or_self] at hpoint
    show process.client = ⟨point.attachedFd.getD (-1)⟩
    rw [hpoint, haccounted.attached, hattached]
  follows := fun probe fd prog reports hrunning ↦ absurd hrunning (hfollows probe fd prog reports)

/-- `socket` returns a new descriptor. -/
theorem Accounted.opened (haccounted : process.Accounted) {fd : Int} {attempt : Attempt} {number : ℕ}
    (hpoint : process.point = .connecting attempt (.socket number)) (hvalid : 0 ≤ fd) :
    ({ process with sockets := Function.update process.sockets fd (some ⟨false, false⟩) }.goto
      (.connecting attempt (.getFlags number fd))).Accounted where
  held := by
    intro other
    have hother := haccounted.held other
    rw [hpoint] at hother
    show Function.update process.sockets fd (some ⟨false, false⟩) other ≠ none ↔ some fd = some other
    by_cases hsame : other = fd
    · simp [hsame]
    · simp only [Function.update_of_ne hsame, Option.some.injEq, Ne.symm hsame, iff_false]
      exact fun hopen ↦ nomatch hother.mp hopen
  valid := by
    intro other hother
    cases hother
    exact hvalid
  published := by
    have hpublished := haccounted.published
    rw [hpoint] at hpublished
    exact hpublished
  attached := by
    have hattached := haccounted.attached
    rw [hpoint] at hattached
    exact hattached
  follows := nofun

theorem onSocket_point (fd : Int) (change : Socket → Socket) :
    (process.onSocket fd change).point = process.point := rfl

/-- A change of an open socket opens and closes nothing. -/
theorem Accounted.onSocket (haccounted : process.Accounted) (fd : Int) (change : Socket → Socket) :
    (process.onSocket fd change).Accounted where
  held := by
    intro other
    have hother := haccounted.held other
    show Function.update process.sockets fd ((process.sockets fd).map change) other ≠ none ↔
      process.point.heldFd = some other
    rw [← hother]
    by_cases hsame : other = fd
    · simp [hsame]
    · rw [Function.update_of_ne hsame]
  valid := haccounted.valid
  published := haccounted.published
  attached := haccounted.attached
  follows := haccounted.follows

theorem Accounted.onSignal (haccounted : process.Accounted) : process.onSignal.Accounted := by
  have hstopped : Accounted { process with gStopRequested := true } :=
    ⟨haccounted.held, haccounted.valid, haccounted.published, haccounted.attached,
      haccounted.follows⟩
  unfold Process.onSignal
  split_ifs
  · exact hstopped.onSocket _ _
  · exact hstopped

theorem accounted_connectStep {attempt : Attempt} {connectPoint : ConnectPoint} {answer : Answer}
    (haccounted : process.Accounted) (hpoint : process.point = .connecting attempt connectPoint)
    (hstep : process.connectStep attempt connectPoint answer = some after) : after.Accounted := by
  have hgoto : ∀ {point : Point}, point.heldFd = connectPoint.socketFd → point.publishedFd = none →
      point.attachedFd = none → (∀ probe fd prog reports, point ≠ .running probe fd prog reports) →
      (process.goto point).Accounted := by
    intro point hheld hpublished hattached hother
    refine haccounted.goto ?_ ?_ ?_ fun _ _ _ _ hrunning ↦ absurd hrunning (hother _ _ _ _)
    · rw [hheld, hpoint]
      rfl
    · rw [hpublished, hpoint]
      rfl
    · rw [hattached, hpoint]
      rfl
  have hclose : ∀ {point : Point} {fd : Int}, connectPoint.socketFd = some fd →
      point.heldFd = none → (∀ probe fd prog reports, point ≠ .running probe fd prog reports) →
      ((process.closeSocket fd).goto point).Accounted := by
    intro point fd hfd hnone hother
    refine haccounted.close ?_ ?_ ?_ hnone hother
    all_goals rw [hpoint]
    · exact hfd
    · rfl
    · rfl
  unfold connectStep at hstep
  split at hstep
  case h_6 number fd =>
    split_ifs at hstep with hnew
    cases hstep
    exact haccounted.opened hpoint hnew.1
  case h_21 fd =>
    cases hstep
    refine hgoto ?_ rfl rfl nofun
    have hvalid := haccounted.valid fd
    rw [hpoint] at hvalid
    exact validFd_of_nonneg (hvalid rfl)
  all_goals cases hstep
  all_goals first
    | exact hgoto rfl rfl rfl nofun
    | exact hclose rfl rfl nofun
    | (split_ifs <;> exact hgoto rfl rfl rfl nofun)

/-- The steps of the main program outside `connect_rpc`. -/
theorem accounted_ok (haccounted : process.Accounted)
    (hstep : process.mainStep process.point .ok = some after) : after.Accounted := by
  obtain ⟨hheld, hvalid, hpublished, hattached, hfollows⟩ := id haccounted
  cases hpoint : process.point with
  | connecting attempt point =>
    rw [hpoint] at hstep
    exact accounted_connectStep haccounted hpoint hstep
  | connected attempt fd =>
    rw [hpoint] at hstep
    cases attempt <;>
    · cases hstep
      by_cases hfd : 0 ≤ fd
      · rw [if_pos hfd]
        refine haccounted.goto ?_ (by rw [hpoint]; rfl) (by rw [hpoint]; rfl) nofun
        rw [hpoint]
        exact (validFd_of_nonneg hfd).symm
      · rw [if_neg hfd]
        have hnone := validFd_of_neg hfd
        refine haccounted.goto ?_ ?_ ?_ nofun
        all_goals rw [hpoint]; simp [Point.heldFd, Point.publishedFd, Point.attachedFd, hnone]
  | publish attempt fd =>
    rw [hpoint] at hstep hattached
    cases hstep
    exact haccounted.moved rfl (by rw [hpoint]; rfl) rfl hattached nofun
  | attach attempt fd =>
    rw [hpoint] at hstep hpublished
    cases attempt with
    | first =>
      cases hstep
      exact haccounted.moved rfl (by rw [hpoint]; rfl) hpublished rfl nofun
    | retry =>
      cases hstep
      refine haccounted.moved rfl (by rw [hpoint]; rfl) hpublished rfl ?_
      rintro probe fd prog reports ⟨⟩
      exact readOnly_interpret _
  | runTest fd =>
    rw [hpoint] at hstep hvalid
    have hfd := validFd_of_nonneg (hvalid fd rfl)
    cases hstep
    split_ifs
    · refine haccounted.goto ?_ ?_ ?_ nofun
      all_goals rw [hpoint]; exact hfd
    · refine haccounted.goto (by rw [hpoint]; rfl) (by rw [hpoint]; rfl) (by rw [hpoint]; rfl) ?_
      rintro probe fd prog reports ⟨⟩
      exact readOnly_interpret _
  | running probe fd prog reports =>
    rw [hpoint] at hstep hvalid
    have hfd := validFd_of_nonneg (hvalid fd rfl)
    cases prog with
    | done result =>
      cases hstep
      split_ifs
      · refine haccounted.goto ?_ ?_ ?_ nofun
        all_goals rw [hpoint]; rfl
      · refine haccounted.goto ?_ ?_ ?_ nofun
        all_goals rw [hpoint]; exact hfd
    | _ => cases hstep
  | retryTest result fd =>
    rw [hpoint] at hstep hvalid
    have hfd := validFd_of_nonneg (hvalid fd rfl)
    cases hstep
    split_ifs
    · refine haccounted.goto ?_ ?_ ?_ nofun
      all_goals rw [hpoint]; rfl
    · refine haccounted.goto ?_ ?_ ?_ nofun
      all_goals rw [hpoint]; exact hfd
  | retryDetach fd =>
    rw [hpoint] at hstep hpublished
    cases hstep
    exact haccounted.moved rfl (by rw [hpoint]; rfl) hpublished rfl nofun
  | retryUnpublish fd =>
    rw [hpoint] at hstep hattached
    cases hstep
    exact haccounted.moved rfl (by rw [hpoint]; rfl) rfl hattached nofun
  | retryShutdown fd =>
    rw [hpoint] at hstep
    cases hstep
    refine (haccounted.onSocket fd _).goto ?_ ?_ ?_ nofun
    all_goals rw [onSocket_point, hpoint]; rfl
  | retryClose fd =>
    rw [hpoint] at hstep
    cases hstep
    exact haccounted.close (by rw [hpoint]; rfl) (by rw [hpoint]; rfl) (by rw [hpoint]; rfl) rfl nofun
  | detach result fd =>
    rw [hpoint] at hstep hpublished
    cases hstep
    by_cases hfd : 0 ≤ fd
    · rw [if_pos hfd]
      refine haccounted.moved rfl ?_ ?_ rfl nofun
      · rw [hpoint]
        exact (validFd_of_nonneg hfd).symm
      · show process.gRpcSocket = fd
        rw [hpublished]
        simp [Point.publishedFd, validFd_of_nonneg hfd]
    · rw [if_neg hfd]
      refine haccounted.moved rfl ?_ ?_ rfl nofun
      · rw [hpoint]
        exact (validFd_of_neg hfd).symm
      · show process.gRpcSocket = -1
        rw [hpublished]
        simp [Point.publishedFd, validFd_of_neg hfd]
  | unpublish result fd =>
    rw [hpoint] at hstep hattached
    cases hstep
    exact haccounted.moved rfl (by rw [hpoint]; rfl) rfl hattached nofun
  | shutdown result fd =>
    rw [hpoint] at hstep
    cases hstep
    refine (haccounted.onSocket fd _).goto ?_ ?_ ?_ nofun
    all_goals rw [onSocket_point, hpoint]; rfl
  | close result fd =>
    rw [hpoint] at hstep
    cases hstep
    exact haccounted.close (by rw [hpoint]; rfl) (by rw [hpoint]; rfl) (by rw [hpoint]; rfl) rfl nofun
  | exited code =>
    rw [hpoint] at hstep
    cases hstep
  | _ =>
    rw [hpoint] at hstep
    cases hstep
    (try split_ifs) <;>
    · refine haccounted.goto ?_ ?_ ?_ nofun
      all_goals rw [hpoint]; rfl

theorem accounted_mainStep {answer : Answer} (haccounted : process.Accounted)
    (hstep : process.mainStep process.point answer = some after) : after.Accounted := by
  rcases answer_of_mainStep hstep with rfl | ⟨attempt, point, hpoint⟩ | hpoint | ⟨elapsed, hpoint⟩
  · exact accounted_ok haccounted hstep
  · rw [hpoint] at hstep
    exact accounted_connectStep haccounted hpoint hstep
  all_goals
    rw [hpoint] at hstep
    cases answer <;> cases hstep
    all_goals
      refine haccounted.goto ?_ ?_ ?_ nofun
      all_goals rw [hpoint]; rfl

/-- The application leaves the globals alone. -/
theorem accounted_appStep {move : Move} (haccounted : process.Accounted)
    (hstep : process.appStep move = some after) : after.Accounted := by
  unfold appStep at hstep
  split at hstep
  · next probe fd prog reports hpoint =>
    obtain ⟨later, hlater, rfl⟩ := Option.map_eq_some_iff.mp hstep
    have hthread : Thread.Step (fun _ ↦ none) ⟨prog, process.client, reports⟩ move later :=
      .of_next hlater
    have hprogram : (⟨prog, process.client, reports⟩ : Thread ClientState Report Result).prog.Follows
        readOnly (fun _ _ ↦ True) () := haccounted.follows probe fd prog reports hpoint
    obtain ⟨_, hprog, hdid⟩ := hprogram.step trivial (fun _ _ hnone ↦ by cases hnone) hthread
    have hstate : later.state = process.client := by
      cases hdid with
      | asked hask _ => exact hask
      | told _ hstate _ => exact hstate
      | neither _ hstate _ => exact hstate
    have hpublished := haccounted.published
    have hattached := haccounted.attached
    rw [hpoint] at hpublished hattached
    refine haccounted.moved rfl (by rw [hpoint]; rfl) hpublished (hstate.trans hattached) ?_
    rintro probe fd prog reports ⟨⟩
    exact hprog
  · cases hstep

end Steps

theorem accounted_of_reachable {waitSeconds : ℕ} {process : Process}
    (hreach : Reachable Step (initial waitSeconds) process) : process.Accounted := by
  refine hreach.invariant (accounted_initial waitSeconds) fun before label after hbefore hstep ↦ ?_
  cases label with
  | signal =>
    cases Option.some.inj hstep
    exact hbefore.onSignal
  | main answer => exact accounted_mainStep hbefore hstep
  | app move => exact accounted_appStep hbefore hstep

/-- In every run of the process, the open sockets are the one that the main program holds at its point.
What is in `g_rpc_socket` between two steps names that socket or none, and so does the descriptor that
the functions of `zigbee_rpc` use. When the process has exited nothing is open. -/
theorem sockets_accounted {waitSeconds : ℕ} {process : Process}
    (hreach : Reachable Step (initial waitSeconds) process) :
    (∀ fd, process.sockets fd ≠ none ↔ process.point.heldFd = some fd) ∧
      (process.gRpcSocket = -1 ∨ process.point.heldFd = some process.gRpcSocket) ∧
      (process.client.gFd = -1 ∨ process.point.heldFd = some process.client.gFd) ∧
      ∀ code, process.point = .exited code → ∀ fd, process.sockets fd = none := by
  have haccounted := accounted_of_reachable hreach
  refine ⟨haccounted.held, ?_, ?_, ?_⟩
  · rw [haccounted.published]
    rcases process.point.publishedFd_eq with hnone | hheld
    · exact .inl (by rw [hnone]; rfl)
    · cases hpublished : process.point.publishedFd with
      | none => exact .inl rfl
      | some fd => exact .inr (hheld ▸ hpublished)
  · rw [haccounted.attached]
    rcases process.point.attachedFd_eq with hnone | hheld
    · exact .inl (by rw [hnone]; rfl)
    · cases hattached : process.point.attachedFd with
      | none => exact .inl rfl
      | some fd => exact .inr (hheld ▸ hattached)
  · intro code hexited fd
    by_contra hopen
    have hheld := (haccounted.held fd).mp hopen
    rw [hexited] at hheld
    cases hheld

/-- The socket of a first connection has been published. -/
theorem sockets_accounted_published :
    ∃ process, Reachable Step (initial 1) process ∧ process.gRpcSocket = 3 ∧
      process.point.heldFd = some 3 := by
  have hpublish : execute next (fun _ _ ↦ true) (initial 1)
      [.main .ok, .main .ok, .main .ok, .main .ok, .main .ok, .main .ok, .main .ok, .main .ok,
        .main (.opened 3), .main .ok, .main .ok, .main .ok, .main .ok, .main .ok, .main .ok] =
      some ⟨1, false, 3, ⟨-1⟩, Function.update (fun _ ↦ none) 3 (some ⟨false, false⟩),
        .attach .first 3⟩ := rfl
  have hreach : Reachable Step (initial 1) ⟨1, false, 3, ⟨-1⟩,
      Function.update (fun _ ↦ none) 3 (some ⟨false, false⟩), .attach .first 3⟩ :=
    (Reachable.of_execute Step.of_next _ _ (.refl _) hpublish).of_restrict
  obtain ⟨-, hpublished, -, -⟩ := sockets_accounted hreach
  exact ⟨_, hreach, rfl, hpublished.resolve_left (by decide)⟩

end Process

/-! ### After a stop request -/

/-- How many steps the main program makes at most from a point of `connect_rpc` on, once the flag is
set. -/
def ConnectPoint.stepsLeft : ConnectPoint → ℕ
  | .inetPton => 13
  | .attemptTest _ => 12
  | .stopTest _ => 11
  | .socket _ => 20
  | .getFlags _ _ => 19
  | .setNonblock _ _ => 18
  | .giveUp _ => 11
  | .connect _ _ => 17
  | .poll _ _ => 16
  | .pollAgain _ _ => 15
  | .getsockopt _ _ => 15
  | .restoreFlags _ => 11
  | .close _ _ => 14
  | .sleepTest _ => 13
  | .usleep _ => 13

/-- How many steps the main program makes at most from a point on, once the flag is set. The steps of
the application do not count. -/
def Point.stepsLeft : Point → ℕ
  | .setUp => 3
  | .testStop => 2
  | .waitTest _ => 3
  | .waitStop _ => 2
  | .waitIsUp _ => 14
  | .waitSleep _ => 4
  | .connecting _ point => point.stepsLeft
  | .connected _ _ => 10
  | .publish _ _ => 9
  | .attach _ _ => 8
  | .runTest _ => 6
  | .running _ _ _ _ => 7
  | .retryTest _ _ => 6
  | .retryDetach _ => 17
  | .retryUnpublish _ => 16
  | .retryShutdown _ => 15
  | .retryClose _ => 14
  | .detach _ _ => 5
  | .unpublish _ _ => 4
  | .shutdown _ _ => 3
  | .close _ _ => 2
  | .stopLink _ => 1
  | .exited _ => 0

theorem Point.stepsLeft_le (point : Point) : point.stepsLeft ≤ 20 := by
  cases point with
  | connecting attempt point => cases point <;> simp [stepsLeft, ConnectPoint.stepsLeft]
  | _ => simp [stepsLeft]

/-- A step of the main program itself. -/
def ProcessLabel.byMain : ProcessLabel → Bool
  | .main _ => true
  | _ => false

namespace Process

section Stop

variable {process after : Process}

theorem stepsLeft_connectStep {attempt : Attempt} {point : ConnectPoint} {answer : Answer}
    (hstop : process.gStopRequested = true)
    (hstep : process.connectStep attempt point answer = some after) :
    after.gStopRequested = true ∧ after.point.stepsLeft < point.stepsLeft := by
  unfold connectStep at hstep
  split at hstep
  all_goals try split_ifs at hstep
  all_goals cases hstep
  all_goals simp [goto, closeSocket, hstop, Point.stepsLeft, ConnectPoint.stepsLeft]

theorem stepsLeft_mainStep {answer : Answer} (hstop : process.gStopRequested = true)
    (hstep : process.mainStep process.point answer = some after) :
    after.gStopRequested = true ∧ after.point.stepsLeft < process.point.stepsLeft := by
  generalize hpoint : process.point = point at hstep
  unfold mainStep at hstep
  split at hstep
  case h_9 attempt point answer => exact stepsLeft_connectStep hstop hstep
  all_goals cases hstep
  all_goals simp [goto, closeSocket, onSocket, hstop, Point.stepsLeft, ConnectPoint.stepsLeft]
  all_goals split_ifs <;> simp

/-- The handler and the application leave the main program where it is. -/
theorem stepsLeft_step {label : ProcessLabel} (hstop : process.gStopRequested = true)
    (hstep : Step process label after) :
    after.gStopRequested = true ∧
      after.point.stepsLeft + (if label.byMain then 1 else 0) ≤ process.point.stepsLeft := by
  cases label with
  | signal =>
    cases Option.some.inj hstep
    refine ⟨?_, by rw [onSignal_point]; exact Nat.le_refl _⟩
    unfold onSignal onSocket
    split_ifs <;> rfl
  | main answer =>
    obtain ⟨hset, hless⟩ := stepsLeft_mainStep hstop hstep
    exact ⟨hset, hless⟩
  | app move =>
    have happ : process.appStep move = some after := hstep
    unfold appStep at happ
    split at happ
    · next probe fd prog reports hpoint =>
      obtain ⟨later, -, rfl⟩ := Option.map_eq_some_iff.mp happ
      rw [hpoint]
      exact ⟨hstop, Nat.le_refl _⟩
    · cases happ

theorem stepsLeft_run {labels : List ProcessLabel} (hstop : process.gStopRequested = true)
    (hrun : Run Step process labels after) :
    after.gStopRequested = true ∧
      after.point.stepsLeft + labels.countP ProcessLabel.byMain ≤ process.point.stepsLeft := by
  induction hrun with
  | refl => exact ⟨hstop, Nat.le_refl _⟩
  | tail _ hstep ih =>
    obtain ⟨hset, hless⟩ := stepsLeft_step ih.1 hstep
    refine ⟨hset, ?_⟩
    rw [List.countP_append, List.countP_singleton]
    omega

/-- Unless the process has exited, the main program has a step to make, or the application is running
in it. -/
theorem main_progress (process : Process) :
    (∃ code, process.point = .exited code) ∨
      (∃ probe fd prog reports, process.point = .running probe fd prog reports) ∨
      ∃ answer later, Step process (.main answer) later := by
  cases hpoint : process.point with
  | exited code => exact .inl ⟨code, rfl⟩
  | running probe fd prog reports => exact .inr (.inl ⟨probe, fd, prog, reports, rfl⟩)
  | connecting attempt point =>
    refine .inr (.inr ?_)
    cases point with
    | socket number => exact ⟨.failed, _, by rw [Step, next, hpoint]; rfl⟩
    | _ => exact ⟨.ok, _, by rw [Step, next, hpoint]; rfl⟩
  | connected attempt fd =>
    cases attempt <;> exact .inr (.inr ⟨.ok, _, by rw [Step, next, hpoint]; rfl⟩)
  | attach attempt fd =>
    cases attempt <;> exact .inr (.inr ⟨.ok, _, by rw [Step, next, hpoint]; rfl⟩)
  | _ => exact .inr (.inr ⟨.ok, _, by rw [Step, next, hpoint]; rfl⟩)

/-- After a stop request the main program makes at most 20 steps more, whatever the system calls
answer, however many signals come and however long the application runs. Until it has exited it has a
step to make or waits for the application. -/
theorem stop_bounds_main {labels : List ProcessLabel} (hstop : process.gStopRequested = true)
    (hrun : Run Step process labels after) :
    labels.countP ProcessLabel.byMain ≤ 20 ∧
      ((∃ code, after.point = .exited code) ∨
        (∃ probe fd prog reports, after.point = .running probe fd prog reports) ∨
        ∃ answer later, Step after (.main answer) later) := by
  obtain ⟨-, hless⟩ := stepsLeft_run hstop hrun
  have hbound := process.point.stepsLeft_le
  exact ⟨by omega, main_progress after⟩

end Stop

/-- The steps up to a stop request while the main program waits for the link. -/
def waitingStopped : List ProcessLabel :=
  [.main .ok, .main .ok, .main .ok, .main .ok, .main .failed, .signal]

/-- A signal comes before the link is up: the main program wakes up, sees the flag and exits. -/
theorem stop_bounds_main_waiting :
    ∃ stopped exited labels, Reachable Step (initial 60) stopped ∧ stopped.gStopRequested = true ∧
      Run Step stopped labels exited ∧ exited.point = .exited 1 ∧
      labels.countP ProcessLabel.byMain = 4 ∧ labels.countP ProcessLabel.byMain ≤ 20 := by
  let stopped : Process := { (initial 60) with gStopRequested := true, point := .waitSleep 0 }
  let exited : Process := stopped.goto (.exited 1)
  have hreach : Reachable Step (initial 60) stopped :=
    (Reachable.of_execute Step.of_next (fun _ _ ↦ true) waitingStopped (.refl _) rfl).of_restrict
  have hexecute : execute next (fun _ _ ↦ true) stopped (List.replicate 4 (.main .ok)) = some exited :=
    rfl
  have hrun : Run Step stopped (List.replicate 4 (.main .ok)) exited :=
    Run.of_execute Step.of_next .refl hexecute
  exact ⟨stopped, exited, _, hreach, rfl, hrun, rfl, rfl, (stop_bounds_main rfl hrun).1⟩

end Process

end ZigbeeRemote.Client
