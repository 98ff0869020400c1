import ZigbeeRemote.Client.LifecycleInvariant

/-!
# Safety of the client's threads

`no_faults`: no interleaving of the threads uses what is not there. `transport_ready`: whenever a
thread is inside lwIP, the output callback is in place and the device behind it is open.
`released_at_exit`: when `main` returns, both threads have ended, both records are freed and both
devices are closed. `lwip_overlap` says which threads can be inside lwIP at once, and
`main_never_stuck` that `main` never waits in vain.
-/

set_option autoImplicit false
set_option relaxedAutoImplicit false

namespace ZigbeeRemote.Client.Lifecycle

open Foundation

/-! ### No faults -/

/-- Everything that lwIP's callbacks use is there. -/
structure Profile.Ready (profile : Profile) : Prop where
  serial : profile.serial = true
  device : profile.device = true
  link : profile.link = true
  tun : profile.tun = true
  output : profile.output = true
  io : profile.io = true

theorem MainPoint.ready_of_timeouts {point : MainPoint}
    (htimeouts : point.profile.timeouts = true) : point.profile.Ready := by
  unfold profile at htimeouts ⊢
  split at htimeouts
  all_goals first
    | exact ⟨rfl, rfl, rfl, rfl, rfl, rfl⟩
    | cases htimeouts

theorem MainPoint.ready_of_mayPcb {point : MainPoint} (hpcb : point.profile.mayPcb = true)
    (hreader : point.profile.reader ≠ .after) : point.profile.Ready := by
  unfold profile at hpcb hreader ⊢
  split at hpcb
  all_goals first
    | exact ⟨rfl, rfl, rfl, rfl, rfl, rfl⟩
    | exact absurd rfl hreader
    | cases hpcb

theorem MainPoint.reading_of_during {point : MainPoint} (hreader : point.profile.reader = .during) :
    point.profile.serial = true ∧ point.profile.device = true := by
  unfold profile at hreader ⊢
  split at hreader
  all_goals first
    | exact ⟨rfl, rfl⟩
    | cases hreader

namespace State

variable {state : State} {answer : Answer}

/-- A step that is no fault. -/
def Safe (outcome : Outcome) : Prop := ∀ fault, outcome ≠ faults fault

theorem safe_none : Safe none := nofun

theorem safe_goes (after : State) : Safe (goes after) := nofun

theorem safe_withSerial {use : SerialIo → Outcome} (hserial : state.serial.isSome = true)
    (huse : ∀ serial, state.serial = some serial → Safe (use serial)) :
    Safe (state.withSerial use) := by
  obtain ⟨serial, hsome⟩ := Option.isSome_iff_exists.mp hserial
  rw [withSerial, hsome]
  exact huse serial hsome

theorem safe_withLink {use : PppLink → Outcome} (hlink : state.link.isSome = true)
    (huse : ∀ link, state.link = some link → Safe (use link)) : Safe (state.withLink use) := by
  obtain ⟨link, hsome⟩ := Option.isSome_iff_exists.mp hlink
  rw [withLink, hsome]
  exact huse link hsome

theorem safe_withFile {fd : Int} {use : Outcome} (hopen : state.files fd = true) (huse : Safe use) :
    Safe (state.withFile fd use) := by
  rw [withFile, if_pos hopen]
  exact huse

theorem Sound.isSome_serial (hsound : state.Sound) (hserial : state.main.profile.serial = true) :
    state.serial.isSome = true := by
  rw [← Option.isSome_map, hsound.records.serial, hserial]

theorem Sound.isSome_link (hsound : state.Sound) (hlink : state.main.profile.link = true) :
    state.link.isSome = true := by
  rw [← Option.isSome_map, hsound.records.link, hlink]

theorem Sound.device_open (hsound : state.Sound) (hdevice : state.main.profile.device = true)
    {serial : SerialIo} (hserial : state.serial = some serial) : state.files serial.fd = true :=
  (hsound.records.files serial.fd).mpr (.inl ⟨hdevice, by rw [hserial]; rfl⟩)

theorem Sound.tun_open (hsound : state.Sound) (htun : state.main.profile.tun = true)
    {link : PppLink} (hlink : state.link = some link) : state.files link.tunFd = true :=
  (hsound.records.files link.tunFd).mpr (.inr ⟨htun, by rw [hlink]; rfl⟩)

theorem safe_lwipStep (hsound : state.Sound) (hready : state.main.profile.Ready)
    (stay : State → LwipPoint → State) (leave : State → Bool → State) (point : LwipPoint) :
    Safe (state.lwipStep stay leave point answer) := by
  have hserial := hsound.isSome_serial hready.serial
  have hlink := hsound.isSome_link hready.link
  unfold lwipStep
  split
  all_goals try exact safe_goes _
  · exact safe_withLink hlink fun _ _ ↦ safe_goes _
  · refine safe_withLink hlink fun link hsome ↦ ?_
    have houtput : link.output = true := by
      rw [← hready.output]
      exact hsound.settings.output _ (by rw [hsome]; rfl)
    rw [if_pos houtput]
    exact safe_goes _
  · exact safe_withSerial hserial fun serial hsome ↦
      safe_withFile (hsound.device_open hready.device hsome) (safe_goes _)
  · split_ifs
    · exact safe_withLink hlink fun _ _ ↦ safe_goes _
    · exact safe_goes _
  · exact safe_withLink hlink fun link hsome ↦
      safe_withFile (hsound.tun_open hready.tun hsome) (safe_goes _)
  · exact safe_none

/-- A reader that has not ended has a record and an open device. -/
theorem Sound.reader_alive (hsound : state.Sound) (halive : state.reader.alive = true) :
    state.main.profile.serial = true ∧ state.main.profile.device = true ∧
      state.main.profile.reader ≠ .after := by
  have hfits := hsound.threads.fits
  cases hphase : state.main.profile.reader with
  | before =>
    rw [hphase] at hfits
    rw [show state.reader = .absent from hfits] at halive
    cases halive
  | during =>
    obtain ⟨hserial, hdevice⟩ := MainPoint.reading_of_during hphase
    exact ⟨hserial, hdevice, nofun⟩
  | after =>
    rw [hphase] at hfits
    rw [show state.reader.alive = false from hfits] at halive
    cases halive

theorem Sound.ready_of_reader (hsound : state.Sound) (hinLwip : state.reader.inLwip = true) :
    state.main.profile.Ready := by
  have halive : state.reader.alive = true := by
    revert hinLwip
    cases state.reader with
    | lwip point => exact fun _ ↦ rfl
    | _ => exact nofun
  exact MainPoint.ready_of_mayPcb (hsound.settings.mayPcb (hsound.threads.inLwip hinLwip))
    (hsound.reader_alive halive).2.2

theorem safe_readerStep (hsound : state.Sound) {point : ReaderPoint}
    (hpoint : state.reader = point) : Safe (state.readerStep point answer) := by
  have hserial : point.alive = true → state.serial.isSome = true := fun halive ↦
    hsound.isSome_serial (hsound.reader_alive (by rw [hpoint]; exact halive)).1
  have hdevice : point.alive = true → ∀ serial, state.serial = some serial →
      state.files serial.fd = true := fun halive serial ↦
    hsound.device_open (hsound.reader_alive (by rw [hpoint]; exact halive)).2.1
  unfold readerStep
  split
  all_goals first
    | exact safe_goes _
    | exact safe_withSerial (hserial rfl) fun _ _ ↦ safe_goes _
    | exact safe_withSerial (hserial rfl) fun serial hsome ↦
        safe_withFile (hdevice rfl serial hsome) (safe_goes _)
    | exact safe_none
    | skip
  exact safe_lwipStep hsound (hsound.ready_of_reader (by rw [hpoint]; rfl)) _ _ _

theorem safe_tunStep (hsound : state.Sound) {point : TunPoint} (hpoint : state.tun = point) :
    Safe (state.tunStep point answer) := by
  have hready : point.alive = true → state.main.profile.Ready := fun halive ↦
    MainPoint.ready_of_timeouts (hsound.threads.timeouts (by rw [hpoint]; exact halive))
  have hlink : point.alive = true → state.link.isSome = true := fun halive ↦
    hsound.isSome_link (hready halive).link
  have htun : point.alive = true → ∀ link, state.link = some link → state.files link.tunFd = true :=
    fun halive link ↦ hsound.tun_open (hready halive).tun
  unfold tunStep
  split
  all_goals first
    | exact safe_goes _
    | exact safe_withLink (hlink rfl) fun _ _ ↦ safe_goes _
    | exact safe_withLink (hlink rfl) fun link hsome ↦
        safe_withFile (htun rfl link hsome) (safe_goes _)
    | exact safe_none
    | skip
  exact safe_lwipStep hsound (hready rfl) _ _ _

/-- A serial record that knows of a link is closed before the link is destroyed. -/
theorem Sound.link_of_detach (hsound : state.Sound) {link : Bool}
    (hpoint : state.main = .detachOutput link) : link = true := by
  have hsettings := hsound.settings
  obtain ⟨serial, hserial⟩ := Option.isSome_iff_exists.mp
    (hsound.isSome_serial (by rw [hpoint]; rfl))
  rw [HasSettings, hpoint, hserial] at hsettings
  exact (hsettings.attached _ rfl).symm.trans (hsettings.mustAttach rfl _ rfl)

theorem safe_mainStep (hsound : state.Sound) {point : MainPoint} (hpoint : state.main = point) :
    Safe (state.mainStep point answer) := by
  have hserial : point.profile.serial = true → state.serial.isSome = true := fun hholds ↦
    hsound.isSome_serial (by rw [hpoint]; exact hholds)
  have hlink : point.profile.link = true → state.link.isSome = true := fun hholds ↦
    hsound.isSome_link (by rw [hpoint]; exact hholds)
  have hdevice : point.profile.device = true → ∀ serial, state.serial = some serial →
      state.files serial.fd = true := fun hopen serial ↦
    hsound.device_open (by rw [hpoint]; exact hopen)
  have htun : point.profile.tun = true → ∀ link, state.link = some link →
      state.files link.tunFd = true := fun hopen link ↦
    hsound.tun_open (by rw [hpoint]; exact hopen)
  unfold mainStep
  split
  all_goals try split_ifs
  all_goals first
    | exact safe_goes _
    | exact safe_none
    | exact safe_withSerial (hserial rfl) fun _ _ ↦ safe_goes _
    | exact safe_withLink (hlink rfl) fun _ _ ↦ safe_goes _
    | exact safe_withSerial (hserial rfl) fun serial hsome ↦
        safe_withFile (hdevice rfl serial hsome) (safe_goes _)
    | exact safe_withLink (hlink rfl) fun link hsome ↦
        safe_withFile (htun rfl link hsome) (safe_goes _)
    | skip
  · next hnull => exact absurd (hsound.settings.mustPcb (by rw [hpoint]; rfl)) hnull
  · next hnull => exact absurd (hsound.settings.mustPcb (by rw [hpoint]; rfl)) hnull
  · refine safe_lwipStep hsound ?_ _ _ _
    rw [hpoint]
    exact ⟨rfl, rfl, rfl, rfl, rfl, rfl⟩
  · cases ‹StopSite›
    all_goals exact safe_withLink (hlink rfl) fun _ _ ↦ safe_goes _
  · cases ‹StopSite›
    all_goals exact safe_withLink (hlink rfl) fun _ _ ↦ safe_goes _
  · cases ‹StopSite›
    all_goals exact safe_withLink (hlink rfl) fun _ _ ↦ safe_goes _
  · refine safe_lwipStep hsound ?_ _ _ _
    rw [hpoint]
    exact ⟨rfl, rfl, rfl, rfl, rfl, rfl⟩
  · next link =>
    cases link
    all_goals exact safe_withSerial (hserial rfl) fun _ _ ↦ safe_goes _
  · next link =>
    refine safe_withLink (hlink ?_) fun _ _ ↦ safe_goes _
    exact hsound.link_of_detach hpoint
  · refine safe_withLink (hlink rfl) fun link hsome ↦ ?_
    split_ifs
    · exact safe_withFile (htun rfl link hsome) (safe_goes _)
    · exact safe_goes _

end State

/-! ### Results -/

/-- `main` is inside lwIP. -/
def MainPoint.inLwip : MainPoint → Bool
  | .listen _ => true
  | .close _ => true
  | _ => false

/-- The thread is inside lwIP. -/
def TunPoint.inLwip : TunPoint → Bool
  | .lwip _ => true
  | _ => false

namespace State

variable {state : State}

/-- The state after a step, to compute runs with. -/
def advance (state : State) (label : Label) : Option State :=
  match state.next label with
  | some (.ok after) => some after
  | _ => none

theorem step_of_advance {before after : State} {label : Label}
    (hadvance : before.advance label = some after) : Step before label after := by
  unfold advance at hadvance
  split at hadvance
  · next hnext =>
    cases hadvance
    exact hnext
  · cases hadvance

/-- The steps of `main` up to `ppp_listen`, with the serial device on descriptor 3 and the TUN
device on descriptor 4. -/
def startLabels : List Label :=
  [.main .ok, .main (.opened 3), .main .ok, .main .ok, .main .ok, .main .ok, .main .ok, .main .ok,
    .main (.opened 4), .main .ok, .main .ok, .main .ok, .main .ok, .main .ok, .main .ok, .main .ok]

/-- The steps of the reader from its test of `running` into lwIP. -/
def readLabels : List Label := [.reader .ok, .reader .ok, .reader .ok, .reader .ok, .reader .ok]

theorem exists_reachable (labels : List Label) {test : State → Bool}
    (htest : (execute advance (fun _ _ ↦ true) initial labels).any test = true) :
    ∃ state, Reachable Step initial state ∧ test state = true := by
  obtain ⟨state, hreach, hstate⟩ := Reachable.exists_of_execute step_of_advance labels htest
  exact ⟨state, hreach.of_restrict, hstate⟩

/-- No interleaving of the threads, with any results of the calls and any callbacks from lwIP, reads
a record that is not allocated, calls a callback that is not set or uses a descriptor that is not
open. In particular nothing is freed or closed twice, and nothing is used after it has been. -/
theorem no_faults (hreach : Reachable Step initial state) (label : Label) (fault : Fault) :
    state.next label ≠ faults fault := by
  have hsound := sound_of_reachable hreach
  cases label with
  | main answer => exact safe_mainStep hsound rfl fault
  | reader answer => exact safe_readerStep hsound rfl fault
  | tun answer => exact safe_tunStep hsound rfl fault

/-- A run into `ppp_listen` with the reader in `serial_output`. -/
theorem no_faults_writing :
    ∃ state, Reachable Step initial state ∧ state.reader = .lwip .serialWrite ∧
      state.next (.reader .ok) ≠ faults .closedDescriptor := by
  obtain ⟨state, hreach, htest⟩ := exists_reachable
    (startLabels ++ readLabels ++ [.reader .output, .reader .ok, .reader .ok])
    (show (execute advance _ initial _).any (fun state ↦ state.reader == .lwip .serialWrite) =
      true by decide)
  exact ⟨state, hreach, by simpa using htest, no_faults hreach _ _⟩

/-- Whenever a thread is inside lwIP, the callback for its output is set, and both the serial device
behind it and the TUN device are open. No output of lwIP is lost for want of a transport. -/
theorem transport_ready (hreach : Reachable Step initial state)
    (hinside : state.main.inLwip = true ∨ state.reader.inLwip = true ∨ state.tun.inLwip = true) :
    ∃ serial link, state.serial = some serial ∧ state.link = some link ∧ state.sIo = true ∧
      link.output = true ∧ state.files serial.fd = true ∧ state.files link.tunFd = true ∧
      serial.fd ≠ link.tunFd := by
  have hsound := sound_of_reachable hreach
  have hready : state.main.profile.Ready := by
    rcases hinside with hmain | hreader | htun
    · revert hmain
      cases state.main with
      | listen point => exact fun _ ↦ ⟨rfl, rfl, rfl, rfl, rfl, rfl⟩
      | close point => exact fun _ ↦ ⟨rfl, rfl, rfl, rfl, rfl, rfl⟩
      | _ => exact nofun
    · exact hsound.ready_of_reader hreader
    · refine MainPoint.ready_of_timeouts (hsound.threads.timeouts ?_)
      revert htun
      cases state.tun with
      | lwip point => exact fun _ ↦ rfl
      | _ => exact nofun
  obtain ⟨serial, hserial⟩ := Option.isSome_iff_exists.mp (hsound.isSome_serial hready.serial)
  obtain ⟨link, hlink⟩ := Option.isSome_iff_exists.mp (hsound.isSome_link hready.link)
  refine ⟨serial, link, hserial, hlink, hsound.settings.io hready.io, ?_,
    hsound.device_open hready.device hserial, hsound.tun_open hready.tun hlink, fun hsame ↦ ?_⟩
  · rw [← hready.output]
    exact hsound.settings.output _ (by rw [hlink]; rfl)
  · refine hsound.records.apart hready.device hready.tun ?_
    rw [hserial, hlink]
    exact congrArg some hsame

/-- A run in which the reader is inside lwIP while `main` is in `ppp_listen`. -/
theorem transport_ready_reader :
    ∃ state, Reachable Step initial state ∧ state.reader.inLwip = true ∧
      ∃ serial link, state.serial = some serial ∧ state.link = some link ∧ link.output = true := by
  obtain ⟨state, hreach, htest⟩ := exists_reachable (startLabels ++ readLabels)
    (show (execute advance _ initial _).any (fun state ↦ state.reader.inLwip) = true by decide)
  obtain ⟨serial, link, hserial, hlink, -, houtput, -⟩ := transport_ready hreach (.inr (.inl htest))
  exact ⟨state, hreach, htest, serial, link, hserial, hlink, houtput⟩

/-- When `main` returns, whichever of its calls have failed, both threads have ended or were never
created, both records are freed, and no descriptor is open. -/
theorem released_at_exit (hreach : Reachable Step initial state) (hexit : state.main = .exited) :
    state.reader.alive = false ∧ state.tun.alive = false ∧ state.serial = none ∧
      state.link = none ∧ ∀ fd, state.files fd = false := by
  obtain ⟨hrecords, -, hthreads, -⟩ := sound_of_reachable hreach
  rw [HasRecords, hexit] at hrecords
  rw [HasThreads, hexit] at hthreads
  refine ⟨hthreads.fits, hthreads.dead, ?_, ?_, fun fd ↦ ?_⟩
  · have hserial : (state.serial.map _).isSome = false := hrecords.serial
    simpa using hserial
  · have hlink : (state.link.map _).isSome = false := hrecords.link
    simpa using hlink
  · refine Bool.eq_false_iff.mpr fun hopen ↦ ?_
    rcases (hrecords.files fd).mp hopen with ⟨hdevice, -⟩ | ⟨htun, -⟩
    · cases hdevice
    · cases htun

/-- A run in which the TUN device cannot be opened. -/
theorem released_at_exit_failed :
    ∃ state, Reachable Step initial state ∧ state.main = .exited ∧ state.reader.alive = false ∧
      ∀ fd, state.files fd = false := by
  obtain ⟨state, hreach, htest⟩ := exists_reachable
    (startLabels.take 8 ++ [.main .failed, .main .ok, .main .ok, .reader .ok, .main .ok, .main .ok,
      .main .ok, .main .ok])
    (show (execute advance _ initial _).any (fun state ↦ state.main == .exited) = true by decide)
  have hexit : state.main = .exited := by simpa using htest
  obtain ⟨hreader, -, -, -, hfiles⟩ := released_at_exit hreach hexit
  exact ⟨state, hreach, hexit, hreader, hfiles⟩

/-- Which threads can be inside lwIP at once. `main` and the thread that runs lwIP's timeouts never
are, and while `main` sets up or closes PPP that thread does not even run. The reader of the serial
device can be inside together with either of them. -/
theorem lwip_overlap :
    (∀ state, Reachable Step initial state → state.main.inLwip = true → state.tun.alive = false) ∧
      (∃ state, Reachable Step initial state ∧ state.main.inLwip = true ∧
        state.reader.inLwip = true) ∧
      ∃ state, Reachable Step initial state ∧ state.tun.inLwip = true ∧
        state.reader.inLwip = true := by
  refine ⟨fun state hreach hinside ↦ ?_, ?_, ?_⟩
  · have hthreads := (sound_of_reachable hreach).threads
    revert hinside
    rw [HasThreads] at hthreads
    cases hmain : state.main with
    | listen point =>
      rw [hmain] at hthreads
      exact fun _ ↦ hthreads.dead
    | close point =>
      rw [hmain] at hthreads
      exact fun _ ↦ hthreads.dead
    | _ => exact nofun
  · obtain ⟨state, hreach, htest⟩ := exists_reachable (startLabels ++ readLabels)
      (show (execute advance _ initial _).any
        (fun state ↦ state.main.inLwip && state.reader.inLwip) = true by decide)
    rw [Bool.and_eq_true] at htest
    exact ⟨state, hreach, htest⟩
  · obtain ⟨state, hreach, htest⟩ := exists_reachable
      (startLabels ++ [.main .ok, .main .ok, .main .ok, .tun .ok, .tun .ok, .tun .nothing] ++
        readLabels)
      (show (execute advance _ initial _).any
        (fun state ↦ state.tun.inLwip && state.reader.inLwip) = true by decide)
    rw [Bool.and_eq_true] at htest
    exact ⟨state, hreach, htest⟩

/-! ### Waiting -/

theorem withSerial_ne_none {use : SerialIo → Outcome} (huse : ∀ serial, use serial ≠ none) :
    state.withSerial use ≠ none := by
  unfold withSerial
  split
  · exact nofun
  · exact huse _

theorem withLink_ne_none {use : PppLink → Outcome} (huse : ∀ link, use link ≠ none) :
    state.withLink use ≠ none := by
  unfold withLink
  split
  · exact nofun
  · exact huse _

theorem withFile_ne_none {fd : Int} {use : Outcome} (huse : use ≠ none) :
    state.withFile fd use ≠ none := by
  unfold withFile
  split
  · exact huse
  · exact nofun

theorem goes_ne_none (after : State) : goes after ≠ none := nofun

/-- A thread inside lwIP can always go on. -/
theorem lwipStep_ne_none (stay : State → LwipPoint → State) (leave : State → Bool → State)
    (point : LwipPoint) : state.lwipStep stay leave point .ok ≠ none := by
  cases point with
  | core => exact goes_ne_none _
  | outputTest => exact withLink_ne_none fun _ ↦ goes_ne_none _
  | outputCall =>
    refine withLink_ne_none fun link ↦ ?_
    split_ifs
    · exact goes_ne_none _
    · exact nofun
  | serialWrite => exact withSerial_ne_none fun _ ↦ withFile_ne_none (goes_ne_none _)
  | tunTest =>
    unfold lwipStep
    split_ifs
    · exact withLink_ne_none fun _ ↦ goes_ne_none _
    · exact goes_ne_none _
  | tunWrite => exact withLink_ne_none fun _ ↦ withFile_ne_none (goes_ne_none _)

/-- Only in `pthread_join` does `main` wait for another thread. -/
theorem exists_mainStep {point : MainPoint} (hexit : point ≠ .exited)
    (hjoinsTun : point.joinsTun = false) (hjoinsReader : point.joinsReader = false) :
    ∃ answer, state.mainStep point answer ≠ none := by
  cases point with
  | exited => exact absurd rfl hexit
  | joinTun site => cases hjoinsTun
  | joinReader link => cases hjoinsReader
  | listen inside =>
    refine ⟨.ok, ?_⟩
    rw [mainStep]
    exact lwipStep_ne_none _ _ inside
  | close inside =>
    refine ⟨.ok, ?_⟩
    rw [mainStep]
    exact lwipStep_ne_none _ _ inside
  | openDevice => exact ⟨.failed, withSerial_ne_none fun _ ↦ goes_ne_none _⟩
  | openTun => exact ⟨.failed, withLink_ne_none fun _ ↦ goes_ne_none _⟩
  | configure =>
    refine ⟨.ok, withLink_ne_none fun _ ↦ ?_⟩
    split_ifs
    · exact goes_ne_none _
    · exact nofun
  | closeTun =>
    refine ⟨.ok, withLink_ne_none fun _ ↦ ?_⟩
    split_ifs
    · exact withFile_ne_none (goes_ne_none _)
    · exact goes_ne_none _
  | _ =>
    refine ⟨.ok, ?_⟩
    first
      | exact goes_ne_none _
      | exact withSerial_ne_none fun _ ↦ goes_ne_none _
      | exact withLink_ne_none fun _ ↦ goes_ne_none _
      | exact withSerial_ne_none fun _ ↦ withFile_ne_none (goes_ne_none _)
      | exact withLink_ne_none fun _ ↦ withFile_ne_none (goes_ne_none _)

theorem exists_readerStep {point : ReaderPoint} (halive : point.alive = true) :
    state.readerStep point .ok ≠ none := by
  cases point with
  | absent => cases halive
  | ended => cases halive
  | runningTest => exact withSerial_ne_none fun _ ↦ goes_ne_none _
  | poll => exact withSerial_ne_none fun _ ↦ withFile_ne_none (goes_ne_none _)
  | read => exact withSerial_ne_none fun _ ↦ withFile_ne_none (goes_ne_none _)
  | linkTest => exact withSerial_ne_none fun _ ↦ goes_ne_none _
  | pppTest => exact goes_ne_none _
  | lwip inside =>
    rw [readerStep]
    exact lwipStep_ne_none _ _ inside

theorem exists_tunStep {point : TunPoint} (halive : point.alive = true) :
    state.tunStep point .ok ≠ none := by
  cases point with
  | absent => cases halive
  | ended => cases halive
  | runningTest => exact withLink_ne_none fun _ ↦ goes_ne_none _
  | tunTest => exact withLink_ne_none fun _ ↦ goes_ne_none _
  | select => exact withLink_ne_none fun _ ↦ withFile_ne_none (goes_ne_none _)
  | read => exact withLink_ne_none fun _ ↦ withFile_ne_none (goes_ne_none _)
  | lwip inside =>
    rw [tunStep]
    exact lwipStep_ne_none _ _ inside

theorem exists_goes {outcome : Outcome} (hsafe : Safe outcome) (hsome : outcome ≠ none) :
    ∃ after, outcome = goes after := by
  match outcome, hsafe, hsome with
  | none, _, hsome => exact absurd rfl hsome
  | some (.error fault), hsafe, _ => exact absurd rfl (hsafe fault)
  | some (.ok after), _, _ => exact ⟨after, rfl⟩

/-- `pthread_join` of the TUN thread returns or has a thread to wait for that is about to end. -/
theorem Sound.joinTun (hsound : state.Sound) {site : StopSite}
    (hmain : state.main = .joinTun site) :
    (∃ answer after, Step state (.main answer) after) ∨ (∃ after, Step state (.tun .ok) after) ∧
      (state.tun = .runningTest → Step state (.tun .ok) { state with tun := .ended }) := by
  have hprofile : state.main.profile.link = true ∧ state.main.profile.mustStart = true := by
    rw [hmain]
    cases site
    all_goals exact ⟨rfl, rfl⟩
  obtain ⟨link, hlink⟩ := Option.isSome_iff_exists.mp (hsound.isSome_link hprofile.1)
  have hstarted : link.threadStarted = true :=
    hsound.threads.mustStart hprofile.2 _ (by rw [hlink]; rfl)
  have hcreated : state.tun ≠ .absent :=
    (hsound.threads.mayStart (by rw [hlink, ← hstarted]; rfl)).2
  have hrunning : link.running = false :=
    hsound.joins.tun (by rw [hmain]; rfl) _ (by rw [hlink]; rfl)
  by_cases hended : state.tun = .ended
  · refine .inl ⟨.ok, state.goto (.clearStarted site), ?_⟩
    show state.mainStep state.main .ok = _
    rw [hmain, mainStep, if_pos hended]
  · have halive : state.tun.alive = true := by
      cases htun : state.tun with
      | absent => exact absurd htun hcreated
      | ended => exact absurd htun hended
      | _ => rfl
    refine .inr ⟨exists_goes (safe_tunStep hsound rfl) (exists_tunStep halive), fun htest ↦ ?_⟩
    show state.tunStep state.tun .ok = _
    rw [htest, tunStep, withLink, hlink]
    simp [hrunning]

/-- `pthread_join` of the reader returns or has a thread to wait for that is about to end. -/
theorem Sound.joinReader (hsound : state.Sound) {link : Bool}
    (hmain : state.main = .joinReader link) :
    (∃ answer after, Step state (.main answer) after) ∨ (∃ after, Step state (.reader .ok) after) ∧
      (state.reader = .runningTest → Step state (.reader .ok) { state with reader := .ended }) := by
  have hprofile : state.main.profile.serial = true ∧ state.main.profile.reader = .during := by
    rw [hmain]
    cases link
    all_goals exact ⟨rfl, rfl⟩
  obtain ⟨serial, hserial⟩ := Option.isSome_iff_exists.mp (hsound.isSome_serial hprofile.1)
  have hcreated : state.reader ≠ .absent := by
    have hfits := hsound.threads.fits
    rw [hprofile.2] at hfits
    exact hfits
  have hrunning : serial.running = false :=
    hsound.joins.reader (by rw [hmain]; rfl) _ (by rw [hserial]; rfl)
  by_cases hended : state.reader = .ended
  · refine .inl ⟨.ok, state.goto (.detachTest link), ?_⟩
    show state.mainStep state.main .ok = _
    rw [hmain, mainStep, if_pos hended]
  · have halive : state.reader.alive = true := by
      cases hreader : state.reader with
      | absent => exact absurd hreader hcreated
      | ended => exact absurd hreader hended
      | _ => rfl
    refine .inr ⟨exists_goes (safe_readerStep hsound rfl) (exists_readerStep halive),
      fun htest ↦ ?_⟩
    show state.readerStep state.reader .ok = _
    rw [htest, readerStep, withSerial, hserial]
    simp [hrunning]

/-- Until `main` returns it can go on, or it waits in `pthread_join` for a thread that can go on
itself and that ends at its next test of `running`. There is no deadlock in any interleaving. -/
theorem main_never_stuck (hreach : Reachable Step initial state) (hexit : state.main ≠ .exited) :
    (∃ answer after, Step state (.main answer) after) ∨
      (state.main.joinsTun = true ∧ (∃ after, Step state (.tun .ok) after) ∧
        (state.tun = .runningTest → Step state (.tun .ok) { state with tun := .ended })) ∨
      (state.main.joinsReader = true ∧ (∃ after, Step state (.reader .ok) after) ∧
        (state.reader = .runningTest →
          Step state (.reader .ok) { state with reader := .ended })) := by
  have hsound := sound_of_reachable hreach
  by_cases hjoinsTun : state.main.joinsTun = true
  · obtain ⟨site, hmain⟩ := MainPoint.exists_joinTun hjoinsTun
    exact (hsound.joinTun hmain).imp_right fun hends ↦ .inl ⟨hjoinsTun, hends⟩
  by_cases hjoinsReader : state.main.joinsReader = true
  · obtain ⟨link, hmain⟩ := MainPoint.exists_joinReader hjoinsReader
    exact (hsound.joinReader hmain).imp_right fun hends ↦ .inr ⟨hjoinsReader, hends⟩
  obtain ⟨answer, hsome⟩ := @exists_mainStep state _ hexit (Bool.eq_false_iff.mpr hjoinsTun)
    (Bool.eq_false_iff.mpr hjoinsReader)
  exact .inl ⟨answer, exists_goes (safe_mainStep hsound rfl) hsome⟩

/-- A run in which the TUN device cannot be opened and `main` waits for the reader, which is in
`poll`. -/
theorem main_never_stuck_joining :
    ∃ state, Reachable Step initial state ∧ state.main = .joinReader false ∧
      ∃ label after, Step state label after := by
  obtain ⟨state, hreach, htest⟩ := exists_reachable
    (startLabels.take 8 ++ [.reader .ok, .main .failed, .main .ok, .main .ok])
    (show (execute advance _ initial _).any (fun state ↦ state.main == .joinReader false) = true by
      decide)
  have hmain : state.main = .joinReader false := by simpa using htest
  rcases main_never_stuck hreach (by rw [hmain]; exact nofun) with
    ⟨answer, after, hstep⟩ | ⟨-, ⟨after, hstep⟩, -⟩ | ⟨-, ⟨after, hstep⟩, -⟩
  · exact ⟨state, hreach, hmain, _, after, hstep⟩
  · exact ⟨state, hreach, hmain, _, after, hstep⟩
  · exact ⟨state, hreach, hmain, _, after, hstep⟩

end State

end ZigbeeRemote.Client.Lifecycle
