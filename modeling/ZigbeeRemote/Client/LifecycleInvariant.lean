import ZigbeeRemote.Client.Lifecycle

/-!
# What holds at each point of the client's threads

The invariant of the threads of `Client.Lifecycle`. Each point of `main` stands for a `Profile`:
what is allocated, open and set while `main` is there, and which of the other threads may be
running. The invariant `State.Sound` says that the state is what the point stands for. It has four
parts, each about a part of the state only, so a step that does not touch that part keeps it as it
is: the records and descriptors, the pointers between them, the threads, and what `pthread_join` may
rely on.
-/

set_option autoImplicit false
set_option relaxedAutoImplicit false

namespace ZigbeeRemote.Client.Lifecycle

open Foundation

/-! ### What a point of `main` stands for -/

/-- Whether the thread that reads the serial device has been created and joined. -/
inductive ReaderPhase : Type
  | before
  | during
  | after
  deriving DecidableEq

/-- What is allocated, open and set while `main` is at a point. -/
structure Profile where
  serial : Bool
  device : Bool
  link : Bool
  tun : Bool
  attached : Bool
  output : Bool
  reader : ReaderPhase
  /-- `s_io` is set. -/
  io : Bool
  /-- `ppp` may be set. -/
  mayPcb : Bool
  /-- `ppp` is set. -/
  mustPcb : Bool
  /-- `serial->link` is set. -/
  mustAttach : Bool
  /-- `tun_thread` may be running. -/
  timeouts : Bool
  /-- `thread_started` may be set. -/
  mayStart : Bool
  /-- `thread_started` is set. -/
  mustStart : Bool
  /-- `tun_thread` has been created and `thread_started` is about to be set. -/
  marking : Bool
  deriving DecidableEq

namespace Profile

/-- Nothing is allocated or open. -/
def nothing (reader : ReaderPhase) : Profile :=
  ⟨false, false, false, false, false, false, reader, false, reader = .after, false, false, false,
    false, false, false⟩

/-- The serial device is being read and there is no link. -/
def reading : Profile := { nothing .during with serial := true, device := true }

/-- The link has been created, with or without its TUN device. -/
def linked (tun : Bool) : Profile := { reading with link := true, tun := tun }

/-- Everything is in place for lwIP. -/
def ready : Profile :=
  { linked true with attached := true, output := true, io := true, mayPcb := true }

/-- The device is to be closed, and then the link to be destroyed or not. -/
def closing (link : Bool) : Profile :=
  { nothing .after with serial := true, device := true, link := link, tun := link }

/-- The link is to be destroyed. -/
def destroying : Profile := { nothing .after with link := true, tun := true }

end Profile

/-- What a point stands for. -/
def MainPoint.profile : MainPoint → Profile
  | .callocSerial => .nothing .before
  | .openDevice => { Profile.nothing .before with serial := true }
  | .abandonSerial => { Profile.nothing .before with serial := true }
  | .tcgetattr => { Profile.nothing .before with serial := true, device := true }
  | .tcsetattr => { Profile.nothing .before with serial := true, device := true }
  | .setModemLines => { Profile.nothing .before with serial := true, device := true }
  | .startReader => { Profile.nothing .before with serial := true, device := true }
  | .createReader => { Profile.nothing .before with serial := true, device := true }
  | .abandonDevice => { Profile.nothing .before with serial := true, device := true }
  | .callocLink => .reading
  | .openTun => .linked false
  | .abandonLink => .linked false
  | .tunSetIff => .linked true
  | .tunSetNoCsum => .linked true
  | .abandonTun => .linked true
  | .attachLink => .linked true
  | .attachOutput => { Profile.linked true with attached := true }
  | .setIo => { Profile.linked true with attached := true, output := true }
  | .createPcb => { Profile.ready with mayPcb := false }
  | .configure => { Profile.ready with mustPcb := true }
  | .listen _ => .ready
  | .startTun => .ready
  | .createTun => .ready
  | .clearRunning => .ready
  | .markStarted => { Profile.ready with timeouts := true, marking := true }
  | .application => { Profile.ready with timeouts := true, mayStart := true }
  | .stopTest .stop => { Profile.ready with timeouts := true, mayStart := true }
  | .stopTun .stop => { Profile.ready with timeouts := true, mayStart := true, mustStart := true }
  | .joinTun .stop => { Profile.ready with timeouts := true, mayStart := true, mustStart := true }
  | .clearStarted .stop => { Profile.ready with mayStart := true, mustStart := true }
  | .closeTest => .ready
  | .close _ => .ready
  | .stopReader true => .ready
  | .stopReader false => .reading
  | .joinReader true => .ready
  | .joinReader false => .reading
  | .detachTest link => { Profile.closing link with attached := link, output := link }
  | .detachOutput link =>
    { Profile.closing link with attached := link, output := link, mustAttach := true }
  | .detachLink link => { Profile.closing link with attached := link, mustAttach := true }
  | .closeDevice link => .closing link
  | .freeSerial link => { Profile.closing link with device := false }
  | .stopTest .destroy => .destroying
  | .stopTun .destroy => { Profile.destroying with mustStart := true }
  | .joinTun .destroy => { Profile.destroying with mustStart := true }
  | .clearStarted .destroy => { Profile.destroying with mustStart := true }
  | .closeTun => .destroying
  | .freeLink => { Profile.nothing .after with link := true }
  | .exited => .nothing .after

/-- `main` waits for `tun_thread` to end. -/
def MainPoint.joinsTun : MainPoint → Bool
  | .joinTun _ => true
  | _ => false

/-- `main` waits for `serial_read_task` to end. -/
def MainPoint.joinsReader : MainPoint → Bool
  | .joinReader _ => true
  | _ => false

theorem MainPoint.exists_joinTun {point : MainPoint} (hjoins : point.joinsTun = true) :
    ∃ site, point = .joinTun site := by
  cases point with
  | joinTun site => exact ⟨site, rfl⟩
  | _ => cases hjoins

theorem MainPoint.exists_joinReader {point : MainPoint} (hjoins : point.joinsReader = true) :
    ∃ link, point = .joinReader link := by
  cases point with
  | joinReader link => exact ⟨link, rfl⟩
  | _ => cases hjoins

/-- The thread has been created and has not ended. -/
def ReaderPoint.alive : ReaderPoint → Bool
  | .absent => false
  | .ended => false
  | _ => true

/-- The thread has been created and has not ended. -/
def TunPoint.alive : TunPoint → Bool
  | .absent => false
  | .ended => false
  | _ => true

/-- The thread is inside lwIP. -/
def ReaderPoint.inLwip : ReaderPoint → Bool
  | .lwip _ => true
  | _ => false

/-- The reader's point fits its phase. -/
def ReaderPhase.Fits : ReaderPhase → ReaderPoint → Prop
  | .before, point => point = .absent
  | .during, point => point ≠ .absent
  | .after, point => point.alive = false

/-! ### The invariant -/

/-- The records and descriptors: which records are allocated, with their descriptors, and what is
open. -/
structure Records (serial device link tun : Bool) (serialFd tunFd : Option Int)
    (files : Int → Bool) : Prop where
  serial : serialFd.isSome = serial
  link : tunFd.isSome = link
  files : ∀ fd, files fd = true ↔
    (device = true ∧ serialFd = some fd) ∨ (tun = true ∧ tunFd = some fd)
  apart : device = true → tun = true → serialFd ≠ tunFd
  valid : tun = true → ∀ fd ∈ tunFd, 0 ≤ fd

/-- The pointers between the records, `s_io` and `ppp`. -/
structure Settings (attached mustAttach output io mayPcb mustPcb : Bool)
    (serialLink linkOutput : Option Bool) (sIo ppp : Bool) : Prop where
  attached : ∀ value ∈ serialLink, value = attached
  mustAttach : mustAttach = true → ∀ value ∈ serialLink, value = true
  output : ∀ value ∈ linkOutput, value = output
  io : io = true → sIo = true
  mayPcb : ppp = true → mayPcb = true
  mustPcb : mustPcb = true → ppp = true

/-- The threads: they run only while they may, and `thread_started` tells whether `tun_thread` has
been created and not joined. -/
structure Threads (phase : ReaderPhase) (timeouts mayStart mustStart marking : Bool)
    (reader : ReaderPoint) (tun : TunPoint) (started : Option Bool) (ppp : Bool) : Prop where
  fits : phase.Fits reader
  inLwip : reader.inLwip = true → ppp = true
  timeouts : tun.alive = true → timeouts = true
  mayStart : started = some true → mayStart = true ∧ tun ≠ .absent
  mustStart : mustStart = true → ∀ value ∈ started, value = true
  notStarted : started = some false → marking = false → tun.alive = false
  marking : marking = true → tun ≠ .absent

/-- A thread is joined after it has been told to end. -/
structure Joins (joinsTun joinsReader : Bool) (tunRunning readerRunning : Option Bool) : Prop where
  tun : joinsTun = true → ∀ value ∈ tunRunning, value = false
  reader : joinsReader = true → ∀ value ∈ readerRunning, value = false

namespace State

/-- The records and descriptors are those that the point of `main` stands for. -/
def HasRecords (state : State) : Prop :=
  Records state.main.profile.serial state.main.profile.device state.main.profile.link
    state.main.profile.tun (state.serial.map (·.fd)) (state.link.map (·.tunFd)) state.files

/-- The pointers are set as the point of `main` stands for. -/
def HasSettings (state : State) : Prop :=
  Settings state.main.profile.attached state.main.profile.mustAttach state.main.profile.output
    state.main.profile.io state.main.profile.mayPcb state.main.profile.mustPcb
    (state.serial.map (·.link)) (state.link.map (·.output)) state.sIo state.ppp

/-- The threads run only while the point of `main` lets them. -/
def HasThreads (state : State) : Prop :=
  Threads state.main.profile.reader state.main.profile.timeouts state.main.profile.mayStart
    state.main.profile.mustStart state.main.profile.marking state.reader state.tun
    (state.link.map (·.threadStarted)) state.ppp

/-- Threads that `main` waits for have been told to end. -/
def HasJoins (state : State) : Prop :=
  Joins state.main.joinsTun state.main.joinsReader (state.link.map (·.running))
    (state.serial.map (·.running))

structure Sound (state : State) : Prop where
  records : state.HasRecords
  settings : state.HasSettings
  threads : state.HasThreads
  joins : state.HasJoins

section Steps

variable {state after : State} {answer : Answer}

theorem sound_initial : initial.Sound := by
  refine ⟨⟨rfl, rfl, ?_, ?_, ?_⟩, ⟨?_, ?_, ?_, ?_, ?_, ?_⟩, ⟨rfl, ?_, ?_, ?_, ?_, ?_, ?_⟩, ⟨?_, ?_⟩⟩
  all_goals simp [initial, MainPoint.profile, Profile.nothing, ReaderPoint.inLwip, TunPoint.alive,
    MainPoint.joinsReader, MainPoint.joinsTun]

theorem goes_inj {first second : State} : goes first = goes second ↔ first = second := by
  simp [goes]

theorem withSerial_goes {use : SerialIo → Outcome} :
    state.withSerial use = goes after ↔
      ∃ serial, state.serial = some serial ∧ use serial = goes after := by
  unfold withSerial
  cases state.serial with
  | none => simp [faults, goes]
  | some serial => simp

theorem withLink_goes {use : PppLink → Outcome} :
    state.withLink use = goes after ↔ ∃ link, state.link = some link ∧ use link = goes after := by
  unfold withLink
  cases state.link with
  | none => simp [faults, goes]
  | some link => simp

theorem withFile_goes {fd : Int} {use : Outcome} :
    state.withFile fd use = goes after ↔ state.files fd = true ∧ use = goes after := by
  unfold withFile
  split_ifs with hopen
  · simp [hopen]
  · simp [hopen, faults, goes]

/-- A step inside lwIP changes nothing but the thread's point and the state of the link. -/
theorem lwipStep_goes {stay : State → LwipPoint → State} {leave : State → Bool → State}
    {point : LwipPoint} (hstep : state.lwipStep stay leave point answer = goes after) :
    ∃ up, (∃ inside, after = stay { state with sLinkUp := up } inside) ∨
      ∃ success, after = leave { state with sLinkUp := up } success := by
  unfold lwipStep at hstep
  split at hstep
  all_goals try split_ifs at hstep
  all_goals try simp only [withSerial_goes, withLink_goes, withFile_goes, goes_inj] at hstep
  all_goals first
    | exact ⟨_, .inl ⟨_, hstep.symm⟩⟩
    | exact ⟨_, .inr ⟨_, hstep.symm⟩⟩
    | skip
  all_goals obtain ⟨record, hrecord, hstep⟩ := hstep
  all_goals try split_ifs at hstep
  all_goals try simp only [goes_inj] at hstep
  all_goals first
    | exact ⟨_, .inl ⟨_, hstep.symm⟩⟩
    | exact ⟨_, .inl ⟨_, hstep.2.symm⟩⟩
    | cases hstep

end Steps

end State

/-! ### Steps of `main` -/

namespace Records

variable {serial device link tun : Bool} {serialFd tunFd : Option Int} {files : Int → Bool}
  {fd : Int}

/-- The serial record may be allocated, changed and freed while its device is closed. -/
theorem serial_of_closed (hrecords : Records serial false link tun serialFd tunFd files)
    (other : Option Int) : Records other.isSome false link tun other tunFd files where
  serial := rfl
  link := hrecords.link
  files := by
    intro fd
    simpa using hrecords.files fd
  apart := by simp
  valid := hrecords.valid

/-- The record of the link may be allocated, changed and freed while its device is closed. -/
theorem link_of_closed (hrecords : Records serial device link false serialFd tunFd files)
    (other : Option Int) : Records serial device other.isSome false serialFd other files where
  serial := hrecords.serial
  link := rfl
  files := by
    intro fd
    simpa using hrecords.files fd
  apart := by simp
  valid := by simp

theorem openDevice {old : Int} (hrecords : Records true false link tun (some old) tunFd files)
    (hnew : files fd = false) :
    Records true true link tun (some fd) tunFd (Function.update files fd true) where
  serial := rfl
  link := hrecords.link
  files := by
    intro other
    rcases eq_or_ne other fd with rfl | hother
    · simp
    · rw [Function.update_of_ne hother, hrecords.files other]
      simp [hother.symm]
  apart := by
    intro _ htun hsame
    have hopen := (hrecords.files fd).mpr (.inr ⟨htun, hsame.symm⟩)
    rw [hnew] at hopen
    cases hopen
  valid := hrecords.valid

theorem closeDevice (hrecords : Records true true link tun (some fd) tunFd files) :
    Records true false link tun (some fd) tunFd (Function.update files fd false) where
  serial := rfl
  link := hrecords.link
  files := by
    intro other
    rcases eq_or_ne other fd with rfl | hother
    · have hapart := hrecords.apart rfl
      simpa [eq_comm] using hapart
    · rw [Function.update_of_ne hother, hrecords.files other]
      simp [hother.symm]
  apart := by simp
  valid := hrecords.valid

theorem openTun {old : Int} (hrecords : Records serial device true false serialFd (some old) files)
    (hvalid : 0 ≤ fd) (hnew : files fd = false) :
    Records serial device true true serialFd (some fd) (Function.update files fd true) where
  serial := hrecords.serial
  link := rfl
  files := by
    intro other
    rcases eq_or_ne other fd with rfl | hother
    · simp
    · rw [Function.update_of_ne hother, hrecords.files other]
      simp [hother.symm]
  apart := by
    intro hdevice _ hsame
    have hopen := (hrecords.files fd).mpr (.inl ⟨hdevice, hsame⟩)
    rw [hnew] at hopen
    cases hopen
  valid := by
    intro _ other hother
    cases hother
    exact hvalid

theorem closeTun (hrecords : Records serial device true true serialFd (some fd) files) :
    Records serial device true false serialFd (some fd) (Function.update files fd false) where
  serial := hrecords.serial
  link := rfl
  files := by
    intro other
    rcases eq_or_ne other fd with rfl | hother
    · have hapart := fun hdevice ↦ hrecords.apart hdevice rfl
      simpa using hapart
    · rw [Function.update_of_ne hother, hrecords.files other]
      simp [hother.symm]
  apart := by simp
  valid := by simp

end Records

namespace Settings

variable {attached mustAttach output io mayPcb mustPcb : Bool} {serialLink linkOutput : Option Bool}
  {sIo ppp : Bool}

/-- Less is required. -/
theorem weaken (hsettings : Settings attached mustAttach output io mayPcb mustPcb serialLink
      linkOutput sIo ppp) {less more : Bool} (hless : less = true → io = true)
    (hmore : mayPcb = true → more = true) :
    Settings attached false output less more false serialLink linkOutput sIo ppp where
  attached := hsettings.attached
  mustAttach := by simp
  output := hsettings.output
  io := fun hio ↦ hsettings.io (hless hio)
  mayPcb := fun hppp ↦ hmore (hsettings.mayPcb hppp)
  mustPcb := by simp

/-- `serial->link` is set or cleared. -/
theorem setLink (hsettings : Settings attached mustAttach output io mayPcb mustPcb serialLink
      linkOutput sIo ppp) (value : Bool) :
    Settings value false output io mayPcb mustPcb (some value) linkOutput sIo ppp :=
  { hsettings with attached := by simp, mustAttach := by simp }

/-- The serial record is freed. -/
theorem freeSerial (hsettings : Settings attached mustAttach output io mayPcb mustPcb serialLink
      linkOutput sIo ppp) (value : Bool) :
    Settings value false output io mayPcb mustPcb none linkOutput sIo ppp :=
  { hsettings with attached := by simp, mustAttach := by simp }

/-- `link->io.output` is set or cleared. -/
theorem setOutput (hsettings : Settings attached mustAttach output io mayPcb mustPcb serialLink
      linkOutput sIo ppp) (value : Bool) :
    Settings attached mustAttach value io mayPcb mustPcb serialLink (some value) sIo ppp :=
  { hsettings with output := by simp }

/-- The record of the link is freed. -/
theorem freeLink (hsettings : Settings attached mustAttach output io mayPcb mustPcb serialLink
      linkOutput sIo ppp) (value : Bool) :
    Settings attached mustAttach value io mayPcb mustPcb serialLink none sIo ppp :=
  { hsettings with output := by simp }

end Settings

namespace Threads

variable {phase : ReaderPhase} {timeouts mayStart mustStart marking : Bool} {reader : ReaderPoint}
  {tun : TunPoint} {started : Option Bool} {ppp : Bool}

/-- More is allowed. -/
theorem widen (hthreads : Threads phase timeouts mayStart mustStart marking reader tun started ppp)
    (hmarking : marking = false) :
    Threads phase true true false false reader tun started ppp where
  fits := hthreads.fits
  inLwip := hthreads.inLwip
  timeouts := fun _ ↦ rfl
  mayStart := fun hstarted ↦ ⟨rfl, (hthreads.mayStart hstarted).2⟩
  mustStart := by simp
  notStarted := fun hstarted _ ↦ hthreads.notStarted hstarted hmarking
  marking := by simp

/-- `tun_thread` is not there, and nothing says that it is. -/
theorem quiet (hthreads : Threads phase timeouts mayStart mustStart marking reader tun started ppp)
    (hdead : tun.alive = false) {other : Option Bool} (hother : other ≠ some true) :
    Threads phase false false false false reader tun other ppp where
  fits := hthreads.fits
  inLwip := hthreads.inLwip
  timeouts := by simp [hdead]
  mayStart := fun hstarted ↦ absurd hstarted hother
  mustStart := by simp
  notStarted := fun _ _ ↦ hdead
  marking := by simp

theorem dead (hthreads : Threads phase false mayStart mustStart marking reader tun started ppp) :
    tun.alive = false :=
  Bool.eq_false_iff.mpr fun halive ↦ Bool.false_ne_true (hthreads.timeouts halive)

/-- The reader is created, or is known to have ended. -/
theorem withReader
    (hthreads : Threads phase timeouts mayStart mustStart marking reader tun started ppp)
    {later : ReaderPhase} {other : ReaderPoint} (hfits : later.Fits other)
    (hinLwip : other.inLwip = true → ppp = true) :
    Threads later timeouts mayStart mustStart marking other tun started ppp :=
  { hthreads with fits := hfits, inLwip := hinLwip }

end Threads

theorem Joins.idle {tunRunning readerRunning : Option Bool} :
    Joins false false tunRunning readerRunning := ⟨nofun, nofun⟩

namespace State

section Main

variable {state after : State} {answer : Answer} {point : MainPoint}

theorem records_mainStep (hsound : state.Sound) (hpoint : state.main = point)
    (hstep : state.mainStep point answer = goes after) : after.HasRecords := by
  obtain ⟨main, reader, tun, serial, link, sIo, ppp, sLinkUp, files⟩ := state
  obtain ⟨hrecords, hsettings, hthreads, -⟩ := hsound
  unfold mainStep at hstep
  split at hstep
  all_goals obtain rfl := hpoint
  all_goals try split_ifs at hstep
  all_goals try simp only [withSerial_goes, withLink_goes, withFile_goes, goes_inj] at hstep
  all_goals try obtain ⟨record, rfl, hstep⟩ := hstep
  all_goals try split_ifs at hstep
  all_goals try simp only [withFile_goes, goes_inj] at hstep
  all_goals try obtain ⟨hopen, hstep⟩ := hstep
  all_goals try subst hstep
  all_goals first
    | exact hrecords
    | exact hrecords.serial_of_closed none
    | exact hrecords.serial_of_closed (some _)
    | exact hrecords.link_of_closed none
    | exact hrecords.link_of_closed (some _)
    | exact hrecords.openDevice ‹_ ∧ _›.2
    | exact hrecords.openTun ‹_ ∧ _›.1 ‹_ ∧ _›.2
    | exact hrecords.closeDevice
    | exact hrecords.closeTun
    | skip
  all_goals try cases ‹StopSite›
  all_goals try exact hrecords
  · obtain ⟨up, ⟨inside, rfl⟩ | ⟨success, rfl⟩⟩ := lwipStep_goes hstep
    · exact hrecords
    · cases success
      all_goals exact hrecords
  · obtain ⟨up, ⟨inside, rfl⟩ | ⟨success, rfl⟩⟩ := lwipStep_goes hstep
    all_goals exact hrecords
  · next link =>
    cases link
    all_goals exact hrecords
  · next link _ =>
    cases link
    all_goals exact hrecords
  · next link hlink =>
    cases hlink
    exact hrecords.serial_of_closed none
  · next link hlink =>
    cases link
    · exact hrecords.serial_of_closed none
    · exact absurd rfl hlink
  · next hnegative => exact absurd (hrecords.valid rfl _ rfl) hnegative

theorem settings_mainStep (hsound : state.Sound) (hpoint : state.main = point)
    (hstep : state.mainStep point answer = goes after) : after.HasSettings := by
  obtain ⟨main, reader, tun, serial, link, sIo, ppp, sLinkUp, files⟩ := state
  obtain ⟨hrecords, hsettings, hthreads, -⟩ := hsound
  unfold mainStep at hstep
  split at hstep
  all_goals obtain rfl := hpoint
  all_goals try split_ifs at hstep
  all_goals try simp only [withSerial_goes, withLink_goes, withFile_goes, goes_inj] at hstep
  all_goals try obtain ⟨record, rfl, hstep⟩ := hstep
  all_goals try split_ifs at hstep
  all_goals try simp only [withFile_goes, goes_inj] at hstep
  all_goals try obtain ⟨hopen, hstep⟩ := hstep
  all_goals try subst hstep
  all_goals first
    | exact hsettings
    | exact hsettings.weaken id id
    | exact hsettings.weaken id fun _ ↦ rfl
    | exact hsettings.setLink _
    | exact hsettings.setOutput _
    | exact hsettings.freeSerial _
    | exact (hsettings.freeSerial _).weaken id fun _ ↦ rfl
    | exact hsettings.freeLink _
    | skip
  all_goals try cases ‹StopSite›
  all_goals try exact hsettings
  · exact { hsettings with io := fun _ ↦ rfl }
  · exact { hsettings with mayPcb := fun _ ↦ rfl, mustPcb := fun _ ↦ rfl }
  · obtain ⟨up, ⟨inside, rfl⟩ | ⟨success, rfl⟩⟩ := lwipStep_goes hstep
    · exact hsettings
    · cases success
      all_goals exact hsettings
  · obtain ⟨up, ⟨inside, rfl⟩ | ⟨success, rfl⟩⟩ := lwipStep_goes hstep
    all_goals exact hsettings
  · next link =>
    cases link
    all_goals exact hsettings
  · next link _ =>
    cases link
    all_goals exact hsettings.weaken nofun fun _ ↦ rfl
  · next hattached =>
    refine { hsettings with mustAttach := fun _ value hvalue ↦ ?_ }
    cases hvalue
    exact hattached
  · next link hattached =>
    -- The record knows of no link, so there is none to be destroyed.
    have hlink : _ = link := hsettings.attached _ rfl
    cases link
    · exact hsettings
    · exact absurd hlink hattached

theorem threads_mainStep (hsound : state.Sound) (hpoint : state.main = point)
    (hstep : state.mainStep point answer = goes after) : after.HasThreads := by
  obtain ⟨main, reader, tun, serial, link, sIo, ppp, sLinkUp, files⟩ := state
  obtain ⟨hrecords, hsettings, hthreads, -⟩ := hsound
  unfold mainStep at hstep
  split at hstep
  all_goals obtain rfl := hpoint
  all_goals try split_ifs at hstep
  all_goals try simp only [withSerial_goes, withLink_goes, withFile_goes, goes_inj] at hstep
  all_goals try obtain ⟨record, rfl, hstep⟩ := hstep
  all_goals try split_ifs at hstep
  all_goals try simp only [withFile_goes, goes_inj] at hstep
  all_goals try obtain ⟨hopen, hstep⟩ := hstep
  all_goals try subst hstep
  all_goals first
    | exact hthreads
    | exact hthreads.widen rfl
    | exact hthreads.quiet hthreads.dead nofun
    | skip
  · obtain rfl : reader = .absent := hthreads.fits
    exact hthreads.withReader rfl nofun
  · exact hthreads.withReader nofun nofun
  · obtain rfl : reader = .absent := hthreads.fits
    exact hthreads.withReader rfl nofun
  · exact { hthreads with inLwip := fun _ ↦ rfl }
  · obtain ⟨up, ⟨inside, rfl⟩ | ⟨success, rfl⟩⟩ := lwipStep_goes hstep
    · exact hthreads
    · cases success
      · exact hthreads.widen rfl
      · exact hthreads
  · exact ⟨hthreads.fits, hthreads.inLwip, fun _ ↦ rfl, fun hstarted ↦
      absurd (hthreads.mayStart hstarted).1 nofun, nofun, fun _ ↦ nofun, fun _ ↦ nofun⟩
  · exact ⟨hthreads.fits, hthreads.inLwip, fun _ ↦ rfl, fun _ ↦ ⟨rfl, hthreads.marking rfl⟩, nofun,
      nofun, nofun⟩
  · next site hstarted =>
    cases site
    all_goals
      refine { hthreads with mustStart := fun _ value hvalue ↦ ?_ }
      cases hvalue
      exact hstarted
  · next site hstarted =>
    have hnot : some _ = some false := congrArg some (Bool.eq_false_iff.mpr hstarted)
    have hother : some _ ≠ some true := fun hsome ↦ hstarted (Option.some.inj hsome)
    cases site
    all_goals exact hthreads.quiet (hthreads.notStarted hnot rfl) hother
  · cases ‹StopSite›
    all_goals exact hthreads
  · next site hended =>
    obtain rfl : tun = .ended := hended
    cases site
    all_goals exact { hthreads with timeouts := nofun }
  · cases ‹StopSite›
    all_goals exact hthreads.quiet hthreads.dead nofun
  · obtain ⟨up, ⟨inside, rfl⟩ | ⟨success, rfl⟩⟩ := lwipStep_goes hstep
    all_goals exact hthreads
  · next link =>
    cases link
    all_goals exact hthreads
  · next link hended =>
    obtain rfl : reader = .ended := hended
    cases link
    all_goals exact hthreads.withReader rfl nofun

theorem joins_mainStep (hsound : state.Sound) (hpoint : state.main = point)
    (hstep : state.mainStep point answer = goes after) : after.HasJoins := by
  obtain ⟨main, reader, tun, serial, link, sIo, ppp, sLinkUp, files⟩ := state
  obtain ⟨-, -, -, hjoins⟩ := hsound
  unfold mainStep at hstep
  split at hstep
  all_goals obtain rfl := hpoint
  all_goals try split_ifs at hstep
  all_goals try simp only [withSerial_goes, withLink_goes, withFile_goes, goes_inj] at hstep
  all_goals try obtain ⟨record, rfl, hstep⟩ := hstep
  all_goals try split_ifs at hstep
  all_goals try simp only [withFile_goes, goes_inj] at hstep
  all_goals try obtain ⟨hopen, hstep⟩ := hstep
  all_goals try subst hstep
  all_goals first
    | exact hjoins
    | exact .idle
    | skip
  · obtain ⟨up, ⟨inside, rfl⟩ | ⟨success, rfl⟩⟩ := lwipStep_goes hstep
    · exact .idle
    · cases success
      all_goals exact .idle
  · cases ‹StopSite›
    all_goals exact .idle
  · refine ⟨fun _ value hvalue ↦ ?_, nofun⟩
    cases hvalue
    rfl
  · cases ‹StopSite›
    all_goals exact .idle
  · obtain ⟨up, ⟨inside, rfl⟩ | ⟨success, rfl⟩⟩ := lwipStep_goes hstep
    all_goals exact .idle
  · refine ⟨nofun, fun _ value hvalue ↦ ?_⟩
    cases hvalue
    rfl

theorem sound_mainStep (hsound : state.Sound) (hpoint : state.main = point)
    (hstep : state.mainStep point answer = goes after) : after.Sound where
  records := records_mainStep hsound hpoint hstep
  settings := settings_mainStep hsound hpoint hstep
  threads := threads_mainStep hsound hpoint hstep
  joins := joins_mainStep hsound hpoint hstep

end Main

end State

/-! ### Steps of the other threads -/

namespace State

section Others

variable {state after : State} {answer : Answer}

/-- A step of the reader that stays alive or ends. -/
theorem Sound.withReader (hsound : state.Sound) {point : ReaderPoint} (up : Bool)
    (halive : state.reader.alive = true) (hpoint : point ≠ .absent)
    (hinLwip : point.inLwip = true → state.ppp = true) :
    Sound { state with reader := point, sLinkUp := up } where
  records := hsound.records
  settings := hsound.settings
  threads := by
    refine hsound.threads.withReader ?_ hinLwip
    have hfits := hsound.threads.fits
    cases hphase : state.main.profile.reader with
    | before =>
      rw [hphase] at hfits
      rw [show state.reader = .absent from hfits] at halive
      cases halive
    | during => exact hpoint
    | after =>
      rw [hphase] at hfits
      rw [show state.reader.alive = false from hfits] at halive
      cases halive
  joins := hsound.joins

theorem sound_readerStep {point : ReaderPoint} (hsound : state.Sound)
    (hpoint : state.reader = point) (hstep : state.readerStep point answer = goes after) :
    after.Sound := by
  have hwith : ∀ {later : ReaderPoint} {up : Bool}, point.alive = true → later ≠ .absent →
      (later.inLwip = true → state.ppp = true) →
      Sound { state with reader := later, sLinkUp := up } := by
    intro later up halive hlater hinLwip
    exact hsound.withReader up (by rw [hpoint]; exact halive) hlater hinLwip
  have hout : ∀ {later : ReaderPoint} {up : Bool}, point.alive = true → later ≠ .absent →
      later.inLwip = false → Sound { state with reader := later, sLinkUp := up } := by
    intro later up halive hlater hinLwip
    exact hwith halive hlater fun hinside ↦ absurd (hinside.symm.trans hinLwip) nofun
  unfold readerStep at hstep
  split at hstep
  all_goals try simp only [withSerial_goes, withFile_goes, goes_inj] at hstep
  all_goals try obtain ⟨record, hrecord, hstep⟩ := hstep
  all_goals try obtain ⟨hopen, hstep⟩ := hstep
  all_goals try subst hstep
  all_goals try exact hout rfl (by decide) rfl
  · split_ifs
    all_goals exact hout rfl (by decide) rfl
  · split_ifs
    all_goals exact hout rfl (by decide) rfl
  · split_ifs with hppp
    · exact hwith rfl (by decide) fun _ ↦ hppp
    · exact hout rfl (by decide) rfl
  · have hppp : state.ppp = true := hsound.threads.inLwip (by rw [hpoint]; rfl)
    obtain ⟨up, ⟨inside, rfl⟩ | ⟨success, rfl⟩⟩ := lwipStep_goes hstep
    · exact hwith rfl nofun fun _ ↦ hppp
    · exact hout rfl (by decide) rfl

/-- A step of the TUN thread that stays alive or ends. -/
theorem Sound.withTun (hsound : state.Sound) {point : TunPoint} (up : Bool)
    (halive : state.tun.alive = true) (hpoint : point ≠ .absent) :
    Sound { state with tun := point, sLinkUp := up } where
  records := hsound.records
  settings := hsound.settings
  threads := by
    obtain ⟨hfits, hinLwip, htimeouts, hmayStart, hmustStart, hnotStarted, -⟩ := hsound.threads
    refine ⟨hfits, hinLwip, fun _ ↦ htimeouts halive,
      fun hstarted ↦ ⟨(hmayStart hstarted).1, hpoint⟩, hmustStart,
      fun hstarted hmarking ↦ ?_, fun _ ↦ hpoint⟩
    rw [hnotStarted hstarted hmarking] at halive
    cases halive
  joins := hsound.joins

theorem sound_tunStep {point : TunPoint} (hsound : state.Sound) (hpoint : state.tun = point)
    (hstep : state.tunStep point answer = goes after) : after.Sound := by
  have hwith : ∀ {later : TunPoint} {up : Bool}, point.alive = true → later ≠ .absent →
      Sound { state with tun := later, sLinkUp := up } := by
    intro later up halive hlater
    exact hsound.withTun up (by rw [hpoint]; exact halive) hlater
  unfold tunStep at hstep
  split at hstep
  all_goals try simp only [withLink_goes, withFile_goes, goes_inj] at hstep
  all_goals try obtain ⟨record, hrecord, hstep⟩ := hstep
  all_goals try obtain ⟨hopen, hstep⟩ := hstep
  all_goals try subst hstep
  all_goals try exact hwith rfl (by decide)
  · split_ifs
    all_goals exact hwith rfl (by decide)
  · split_ifs
    all_goals exact hwith rfl (by decide)
  · obtain ⟨up, ⟨inside, rfl⟩ | ⟨success, rfl⟩⟩ := lwipStep_goes hstep
    · exact hwith rfl nofun
    · exact hwith rfl (by decide)

theorem sound_step {label : Label} (hsound : state.Sound) (hstep : Step state label after) :
    after.Sound := by
  cases label with
  | main answer => exact sound_mainStep hsound rfl hstep
  | reader answer => exact sound_readerStep hsound rfl hstep
  | tun answer => exact sound_tunStep hsound rfl hstep

theorem sound_of_reachable (hreach : Reachable Step initial state) : state.Sound :=
  hreach.invariant sound_initial fun _ _ _ hsound hstep ↦ sound_step hsound hstep

end Others

end State

end ZigbeeRemote.Client.Lifecycle
