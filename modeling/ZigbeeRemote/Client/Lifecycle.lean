import Mathlib.Logic.Function.Basic
import ZigbeeRemote.Foundation.TransitionSystem

/-!
# The threads of the client

`serial_io.c` and `ppp_link.c` of `zb_rpc_client`, with the parts of `ppp_lwip.c` that they reach,
as `main` uses them: the main thread, the thread `serial_read_task` that feeds lwIP from the serial
device, and `tun_thread`, which runs lwIP's timeouts and feeds it from the TUN device. `main` runs
without TCP forwarding, so `s_use_tcpip` is zero and each thread enters lwIP by itself. Inside lwIP
a thread may call back any number of times: `ppp_output_cb` to write to the serial device,
`tun_output` to write to the TUN device, and `ppp_link_status_cb`.

The two records that the threads share are allocated and freed, and the descriptors opened and
closed, by steps of `main`, with all its failures. A step that reads a record that is not allocated,
calls a callback that is not set or uses a descriptor that is not open is a fault.

That there are none is proved in `Client.LifecycleSafety`.
-/

set_option autoImplicit false
set_option relaxedAutoImplicit false

namespace ZigbeeRemote.Client.Lifecycle

open Foundation

/-! ### Threads and records -/

/-- Where a thread is inside lwIP. -/
inductive LwipPoint : Type
  | core
  /-- The test of `io->output` in `ppp_output_cb`. -/
  | outputTest
  | outputCall
  /-- `write` in `serial_output`. -/
  | serialWrite
  /-- The tests in `tun_output`. -/
  | tunTest
  | tunWrite
  deriving DecidableEq

/-- The two callers of `stop_tun_thread`. -/
inductive StopSite : Type
  | stop
  | destroy
  deriving DecidableEq

/-- The points of `main` and of what it calls. -/
inductive MainPoint : Type
  -- `serial_io_open`
  | callocSerial
  | openDevice
  | tcgetattr
  | tcsetattr
  | setModemLines
  | startReader
  | createReader
  | abandonDevice
  | abandonSerial
  -- `ppp_link_create`
  | callocLink
  | openTun
  | tunSetIff
  | tunSetNoCsum
  | abandonTun
  | abandonLink
  -- `serial_io_attach`
  | attachLink
  | attachOutput
  -- `ppp_link_start`
  | setIo
  | createPcb
  | configure
  | listen (point : LwipPoint)
  | startTun
  | createTun
  | clearRunning
  | markStarted
  /-- From `wait_for_link` to the end of the last session. -/
  | application
  -- `ppp_link_stop`, and `stop_tun_thread` for both of its callers
  | stopTest (site : StopSite)
  | stopTun (site : StopSite)
  | joinTun (site : StopSite)
  | clearStarted (site : StopSite)
  | closeTest
  | close (point : LwipPoint)
  -- `serial_io_close`, with whether a link is to be destroyed after it
  | stopReader (link : Bool)
  | joinReader (link : Bool)
  | detachTest (link : Bool)
  | detachOutput (link : Bool)
  | detachLink (link : Bool)
  | closeDevice (link : Bool)
  | freeSerial (link : Bool)
  -- `ppp_link_destroy`
  | closeTun
  | freeLink
  | exited
  deriving DecidableEq

/-- The points of `serial_read_task`. -/
inductive ReaderPoint : Type
  | absent
  | runningTest
  | poll
  | read
  | linkTest
  | pppTest
  | lwip (point : LwipPoint)
  | ended
  deriving DecidableEq

/-- The points of `tun_thread` and `ppp_link_tun_poll`. -/
inductive TunPoint : Type
  | absent
  | runningTest
  | tunTest
  | select
  | read
  | lwip (point : LwipPoint)
  | ended
  deriving DecidableEq

/-- `struct serial_io`. `link` is whether the pointer is set. -/
structure SerialIo where
  fd : Int
  running : Bool
  link : Bool
  deriving DecidableEq

/-- `struct ppp_link`. `output` is whether `serial_output` is set, with the serial record as its
context. -/
structure PppLink where
  tunFd : Int
  output : Bool
  running : Bool
  threadStarted : Bool
  deriving DecidableEq

/-- The client: its threads, its records while they are allocated, the variables of `ppp_lwip.c`,
and its open descriptors. -/
structure State where
  main : MainPoint
  reader : ReaderPoint
  tun : TunPoint
  serial : Option SerialIo
  link : Option PppLink
  sIo : Bool
  ppp : Bool
  sLinkUp : Bool
  files : Int → Bool

/-- What a thread must not do. -/
inductive Fault : Type
  | nullOrFreed
  | nullCallback
  | nullPcb
  | closedDescriptor
  deriving DecidableEq

/-- What a call answers, or which of its ways a thread takes. -/
inductive Answer : Type
  | ok
  | failed
  | opened (fd : Int)
  /-- `poll` and `select` without anything to read, and what a read returns that is passed over. -/
  | nothing
  /-- Inside lwIP: a call back. -/
  | output
  | tunOutput
  | status (up : Bool)
  deriving DecidableEq

/-- A step of one of the threads. -/
inductive Label : Type
  | main (answer : Answer)
  | reader (answer : Answer)
  | tun (answer : Answer)
  deriving DecidableEq

/-! ### Steps -/

/-- Where `main` goes on after `stop_tun_thread`. -/
def StopSite.after : StopSite → MainPoint
  | .stop => .closeTest
  | .destroy => .closeTun

namespace State

/-- Nothing has been allocated or opened. -/
def initial : State :=
  ⟨.callocSerial, .absent, .absent, none, none, false, false, false, fun _ ↦ false⟩

/-- What comes of a step: nothing when the thread cannot make it now. -/
abbrev Outcome := Option (Except Fault State)

/-- The step leads to a state. -/
def goes (state : State) : Outcome := some (.ok state)

def faults (fault : Fault) : Outcome := some (.error fault)

/-- The serial record is read or written. -/
def withSerial (state : State) (use : SerialIo → Outcome) : Outcome :=
  match state.serial with
  | none => faults .nullOrFreed
  | some serial => use serial

/-- The record of the link is read or written. -/
def withLink (state : State) (use : PppLink → Outcome) : Outcome :=
  match state.link with
  | none => faults .nullOrFreed
  | some link => use link

/-- A system call on a descriptor. -/
def withFile (state : State) (fd : Int) (use : Outcome) : Outcome :=
  if state.files fd then use else faults .closedDescriptor

/-- `open` returns a new descriptor. -/
def openFile (state : State) (fd : Int) : State :=
  { state with files := Function.update state.files fd true }

/-- `close`. -/
def closeFile (state : State) (fd : Int) : State :=
  { state with files := Function.update state.files fd false }

/-- `main` goes on at another point. -/
def goto (state : State) (point : MainPoint) : State := { state with main := point }

/-- One step of a thread inside lwIP. `stay` is where it goes on inside, and `leave` where it
returns to, with whether the call has succeeded. -/
def lwipStep (state : State) (stay : State → LwipPoint → State) (leave : State → Bool → State) :
    LwipPoint → Answer → Outcome
  | .core, .ok => goes (leave state true)
  | .core, .failed => goes (leave state false)
  | .core, .output => goes (stay state .outputTest)
  | .core, .tunOutput => goes (stay state .tunTest)
  | .core, .status up => goes (stay { state with sLinkUp := up } .core)
  | .outputTest, .ok =>
    state.withLink fun link ↦ goes (stay state (if link.output then .outputCall else .core))
  | .outputCall, .ok =>
    state.withLink fun link ↦
      if link.output then goes (stay state .serialWrite) else faults .nullCallback
  | .serialWrite, .ok =>
    state.withSerial fun serial ↦ state.withFile serial.fd (goes (stay state .core))
  | .tunTest, .ok =>
    if state.sIo then
      state.withLink fun link ↦ goes (stay state (if link.tunFd < 0 then .core else .tunWrite))
    else goes (stay state .core)
  | .tunWrite, .ok =>
    state.withLink fun link ↦ state.withFile link.tunFd (goes (stay state .core))
  | _, _ => none

/-- One step of `main`. What `pthread_create` and `pthread_join` do with `serial->thread` and
`link->tun_thread` is no access to the records here. -/
def mainStep (state : State) : MainPoint → Answer → Outcome
  | .callocSerial, .ok => goes ({ state with serial := some ⟨0, false, false⟩ }.goto .openDevice)
  | .callocSerial, .failed => goes (state.goto .exited)
  | .openDevice, .opened fd =>
    if 0 ≤ fd ∧ state.files fd = false then
      state.withSerial fun serial ↦
        goes ({ state.openFile fd with serial := some { serial with fd := fd } }.goto .tcgetattr)
    else none
  | .openDevice, .failed =>
    state.withSerial fun serial ↦
      goes ({ state with serial := some { serial with fd := -1 } }.goto .abandonSerial)
  | .tcgetattr, .ok =>
    state.withSerial fun serial ↦ state.withFile serial.fd (goes (state.goto .tcsetattr))
  | .tcgetattr, .failed =>
    state.withSerial fun serial ↦ state.withFile serial.fd (goes (state.goto .abandonDevice))
  | .tcsetattr, .ok =>
    state.withSerial fun serial ↦ state.withFile serial.fd (goes (state.goto .setModemLines))
  | .tcsetattr, .failed =>
    state.withSerial fun serial ↦ state.withFile serial.fd (goes (state.goto .abandonDevice))
  | .setModemLines, .ok =>
    state.withSerial fun serial ↦ state.withFile serial.fd (goes (state.goto .startReader))
  | .startReader, .ok =>
    state.withSerial fun serial ↦
      goes ({ state with serial := some { serial with running := true } }.goto .createReader)
  | .createReader, .ok => goes ({ state with reader := .runningTest }.goto .callocLink)
  | .createReader, .failed => goes (state.goto .abandonDevice)
  | .abandonDevice, .ok =>
    state.withSerial fun serial ↦
      state.withFile serial.fd (goes ((state.closeFile serial.fd).goto .abandonSerial))
  | .abandonSerial, .ok =>
    state.withSerial fun _ ↦ goes ({ state with serial := none }.goto .exited)
  | .callocLink, .ok =>
    goes ({ state with link := some ⟨-1, false, false, false⟩ }.goto .openTun)
  | .callocLink, .failed => goes (state.goto (.stopReader false))
  | .openTun, .opened fd =>
    if 0 ≤ fd ∧ state.files fd = false then
      state.withLink fun link ↦
        goes ({ state.openFile fd with link := some { link with tunFd := fd } }.goto .tunSetIff)
    else none
  | .openTun, .failed => state.withLink fun _ ↦ goes (state.goto .abandonLink)
  | .tunSetIff, .ok =>
    state.withLink fun link ↦ state.withFile link.tunFd (goes (state.goto .tunSetNoCsum))
  | .tunSetIff, .failed =>
    state.withLink fun link ↦ state.withFile link.tunFd (goes (state.goto .abandonTun))
  | .tunSetNoCsum, .ok =>
    state.withLink fun link ↦ state.withFile link.tunFd (goes (state.goto .attachLink))
  | .abandonTun, .ok =>
    state.withLink fun link ↦
      state.withFile link.tunFd (goes ((state.closeFile link.tunFd).goto .abandonLink))
  | .abandonLink, .ok =>
    state.withLink fun _ ↦ goes ({ state with link := none }.goto (.stopReader false))
  | .attachLink, .ok =>
    state.withSerial fun serial ↦
      goes ({ state with serial := some { serial with link := true } }.goto .attachOutput)
  | .attachOutput, .ok =>
    state.withLink fun link ↦
      goes ({ state with link := some { link with output := true } }.goto .setIo)
  | .setIo, .ok => goes ({ state with sIo := true }.goto .createPcb)
  | .createPcb, .ok => goes ({ state with ppp := true }.goto .configure)
  | .createPcb, .failed => goes (state.goto (.stopTest .stop))
  | .configure, .ok =>
    state.withLink fun _ ↦
      if state.ppp then goes (state.goto (.listen .core)) else faults .nullPcb
  | .configure, .failed =>
    state.withLink fun _ ↦
      if state.ppp then goes (state.goto (.stopTest .stop)) else faults .nullPcb
  | .listen point, answer =>
    state.lwipStep (fun later inside ↦ later.goto (.listen inside))
      (fun later success ↦ later.goto (if success then .startTun else .stopTest .stop)) point answer
  | .startTun, .ok =>
    state.withLink fun link ↦
      goes ({ state with link := some { link with running := true } }.goto .createTun)
  | .createTun, .ok => goes ({ state with tun := .runningTest }.goto .markStarted)
  | .createTun, .failed => goes (state.goto .clearRunning)
  | .clearRunning, .ok =>
    state.withLink fun link ↦
      goes ({ state with link := some { link with running := false } }.goto (.stopTest .stop))
  | .markStarted, .ok =>
    state.withLink fun link ↦
      goes ({ state with link := some { link with threadStarted := true } }.goto .application)
  | .application, .ok => goes (state.goto (.stopTest .stop))
  | .stopTest site, .ok =>
    state.withLink fun link ↦
      goes (state.goto (if link.threadStarted then .stopTun site else site.after))
  | .stopTun site, .ok =>
    state.withLink fun link ↦
      goes ({ state with link := some { link with running := false } }.goto (.joinTun site))
  | .joinTun site, .ok =>
    if state.tun = .ended then goes (state.goto (.clearStarted site)) else none
  | .clearStarted site, .ok =>
    state.withLink fun link ↦
      goes ({ state with link := some { link with threadStarted := false } }.goto site.after)
  | .closeTest, .ok => goes (state.goto (if state.ppp then .close .core else .stopReader true))
  | .close point, answer =>
    state.lwipStep (fun later inside ↦ later.goto (.close inside))
      (fun later _ ↦ later.goto (.stopReader true)) point answer
  | .stopReader link, .ok =>
    state.withSerial fun serial ↦
      goes ({ state with serial := some { serial with running := false } }.goto (.joinReader link))
  | .joinReader link, .ok =>
    if state.reader = .ended then goes (state.goto (.detachTest link)) else none
  | .detachTest link, .ok =>
    state.withSerial fun serial ↦
      goes (state.goto (if serial.link then .detachOutput link else .closeDevice link))
  | .detachOutput link, .ok =>
    state.withLink fun record ↦
      goes ({ state with link := some { record with output := false } }.goto (.detachLink link))
  | .detachLink link, .ok =>
    state.withSerial fun serial ↦
      goes ({ state with serial := some { serial with link := false } }.goto (.closeDevice link))
  | .closeDevice link, .ok =>
    state.withSerial fun serial ↦
      state.withFile serial.fd (goes ((state.closeFile serial.fd).goto (.freeSerial link)))
  | .freeSerial link, .ok =>
    state.withSerial fun _ ↦
      goes ({ state with serial := none }.goto (if link then .stopTest .destroy else .exited))
  | .closeTun, .ok =>
    state.withLink fun link ↦
      if 0 ≤ link.tunFd then
        state.withFile link.tunFd (goes ((state.closeFile link.tunFd).goto .freeLink))
      else goes (state.goto .freeLink)
  | .freeLink, .ok => state.withLink fun _ ↦ goes ({ state with link := none }.goto .exited)
  | _, _ => none

/-- One step of `serial_read_task`. -/
def readerStep (state : State) : ReaderPoint → Answer → Outcome
  | .runningTest, .ok =>
    state.withSerial fun serial ↦
      goes { state with reader := if serial.running then .poll else .ended }
  | .poll, .ok =>
    state.withSerial fun serial ↦ state.withFile serial.fd (goes { state with reader := .read })
  | .poll, .nothing =>
    state.withSerial fun serial ↦
      state.withFile serial.fd (goes { state with reader := .runningTest })
  | .poll, .failed =>
    state.withSerial fun serial ↦ state.withFile serial.fd (goes { state with reader := .ended })
  | .read, .ok =>
    state.withSerial fun serial ↦ state.withFile serial.fd (goes { state with reader := .linkTest })
  | .read, .nothing =>
    state.withSerial fun serial ↦
      state.withFile serial.fd (goes { state with reader := .runningTest })
  | .read, .failed =>
    state.withSerial fun serial ↦ state.withFile serial.fd (goes { state with reader := .ended })
  | .linkTest, .ok =>
    state.withSerial fun serial ↦
      goes { state with reader := if serial.link then .pppTest else .runningTest }
  | .pppTest, .ok => goes { state with reader := if state.ppp then .lwip .core else .runningTest }
  | .lwip point, answer =>
    state.lwipStep (fun later inside ↦ { later with reader := .lwip inside })
      (fun later _ ↦ { later with reader := .runningTest }) point answer
  | _, _ => none

/-- One step of `tun_thread`. -/
def tunStep (state : State) : TunPoint → Answer → Outcome
  | .runningTest, .ok =>
    state.withLink fun link ↦ goes { state with tun := if link.running then .tunTest else .ended }
  | .tunTest, .ok =>
    state.withLink fun link ↦
      goes { state with tun := if link.tunFd < 0 then .lwip .core else .select }
  | .select, .ok =>
    state.withLink fun link ↦ state.withFile link.tunFd (goes { state with tun := .read })
  | .select, .nothing =>
    state.withLink fun link ↦ state.withFile link.tunFd (goes { state with tun := .lwip .core })
  | .read, .ok =>
    state.withLink fun link ↦ state.withFile link.tunFd (goes { state with tun := .lwip .core })
  | .read, .nothing =>
    state.withLink fun link ↦ state.withFile link.tunFd (goes { state with tun := .runningTest })
  | .lwip point, answer =>
    state.lwipStep (fun later inside ↦ { later with tun := .lwip inside })
      (fun later _ ↦ { later with tun := .runningTest }) point answer
  | _, _ => none

/-- One step of one of the threads. -/
def next (state : State) : Label → Outcome
  | .main answer => state.mainStep state.main answer
  | .reader answer => state.readerStep state.reader answer
  | .tun answer => state.tunStep state.tun answer

/-- The steps that lead to a state. -/
def Step (before : State) (label : Label) (after : State) : Prop := before.next label = goes after

end State

end ZigbeeRemote.Client.Lifecycle
