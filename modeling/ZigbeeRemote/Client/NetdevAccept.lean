import Mathlib.Algebra.GroupWithZero.Nat
import Mathlib.Data.List.Nodup
import Mathlib.Data.List.Perm.Basic
import ZigbeeRemote.Client.NetdevForward

/-!
# The forwarder and its connections

`netdev_fwd.c` as a whole. When the PPP link comes up, `netdev_fwd_on_link_up` queues
`netdev_start_listen` for the tcpip thread. For every connection of the ESP the tcpip thread runs
`netdev_accept`, which connects to the host (`linux_connect_host` tries the addresses one by one),
makes the record of the connection and starts its thread. Every call can fail, and each failure has
a path of its own that gives back what has been taken so far.

There is one tcpip thread, so at most one of these functions and of the callbacks of all connections
runs at a time; the threads of the connections run beside it. A connection is a `ForwardState` of its
own: a record that one connection has freed is not handed to another one here. In the program it may
be, while lwIP still calls back with it (`freed_record_touched_iff`), and then one connection acts on
the record of the other.

`resources_accounted` says what is open and allocated at every moment, `sockets_apart` that nobody else
has the socket of a connection. `detach_race_iff` is about
the last line of `netdev_accept`, `pthread_detach(c->thread)`: it reads the record, which the new
thread may have freed.
-/

set_option autoImplicit false
set_option relaxedAutoImplicit false

namespace ZigbeeRemote.Client.NetdevForward

open ZigbeeRemote.Foundation

/-! ### The tcpip thread outside of the connections -/

/-- The program points of `netdev_start_listen`. -/
inductive StartPoint : Type
  | test
  | tcpNew
  | tcpBind
  /-- `tcp_close` after `tcp_bind` or `tcp_listen` has failed. -/
  | tcpClose
  | tcpListen
  | tcpAccept
  deriving DecidableEq

/-- The program points of `netdev_accept` and of `linux_connect_host` in it. -/
inductive AcceptPoint : Type
  | getaddrinfo
  /-- The loop over the addresses, with the number of those left. -/
  | nextAddress (left : ℕ)
  | connect (fd left : ℕ)
  | closeUnconnected (fd left : ℕ)
  | freeaddrinfo (fd : Option ℕ)
  /-- `linux_connect_host` has returned. -/
  | testHostFd (fd : Option ℕ)
  | abortUnconnected
  | calloc (fd : ℕ)
  | closeNoRecord (fd : ℕ)
  | abortNoRecord
  /-- The fields of the record are set and the callbacks registered. -/
  | fill (fd : ℕ)
  | pthreadCreate (fd : ℕ)
  | closeNoThread (fd : ℕ)
  | freeNoThread
  | abortNoThread
  /-- `pthread_detach(c->thread)` for the connection of the given index. -/
  | pthreadDetach (index : ℕ)
  deriving DecidableEq

/-- What the tcpip thread does, the callbacks of the connections apart. -/
inductive TcpipWork : Type
  | free
  | starting (point : StartPoint)
  | accepting (point : AcceptPoint)
  deriving DecidableEq

/-- A connection and the descriptor of its socket. -/
structure Forwarded where
  fd : ℕ
  state : ForwardState
  deriving DecidableEq

/-- The forwarder. -/
structure Forwarder where
  /-- `s_enabled` and `s_listening`. -/
  enabled : Bool
  listening : Bool
  /-- The number of times `netdev_start_listen` is queued. -/
  starts : ℕ
  tcpip : TcpipWork
  /-- The number of pcbs that `netdev_start_listen` has made and not closed. -/
  listeners : ℕ
  /-- All connections, in the order in which they were accepted. -/
  conns : List Forwarded
  /-- The open sockets of the forwarder. -/
  openFds : List ℕ
  /-- The numbers of address lists and of records that are allocated. -/
  addrLists : ℕ
  records : ℕ
  /-- The number of pcbs lwIP has given to `netdev_accept`, and of those it has aborted. -/
  offered : ℕ
  aborted : ℕ
  /-- A descriptor that was not open has been closed. -/
  strayClose : Bool
  /-- `netdev_accept`, or `netdev_err` out of its `tcp_abort`, has touched a record that was freed.
  -/
  strayTouch : Bool
  /-- `netdev_accept` has aborted a pcb and returned something else than `ERR_ABRT`, so that lwIP aborts
  the pcb once more. -/
  strayAbort : Bool
  deriving DecidableEq

/-- The forwarder after `netdev_fwd_configure`. -/
def Forwarder.initial (enabled : Bool) : Forwarder where
  enabled := enabled
  listening := false
  starts := 0
  tcpip := .free
  listeners := 0
  conns := []
  openFds := []
  addrLists := 0
  records := 0
  offered := 0
  aborted := 0
  strayClose := false
  strayTouch := false
  strayAbort := false

/-- `close` -/
def Forwarder.close (state : Forwarder) (fd : ℕ) : Forwarder :=
  { state with
    openFds := state.openFds.erase fd
    strayClose := state.strayClose || decide (fd ∉ state.openFds) }

/-- The thread of a connection has made a step: what it closed and freed on the way. -/
def Forwarder.threadStep (state : Forwarder) (index : ℕ) (entry : Forwarded)
    (after : ForwardState) : Forwarder :=
  let state := if entry.state.fdCloses < after.fdCloses then state.close entry.fd else state
  { state with
    conns := state.conns.set index ⟨entry.fd, after⟩
    records := if entry.state.frees < after.frees then state.records - 1 else state.records }

/-- The tcpip thread is in none of the functions and callbacks. -/
def Forwarder.Idle (state : Forwarder) : Prop :=
  state.tcpip = .free ∧ ∀ entry ∈ state.conns, entry.state.tcpip = .idle

/-- The tcpip thread is in no callback of another connection. -/
def Forwarder.Others (state : Forwarder) (index : ℕ) : Prop :=
  ∀ (other : ℕ) (another : Forwarded), state.conns[other]? = some another → other ≠ index →
    another.state.tcpip = .idle

/-- `netdev_accept` goes on to a point. -/
def Forwarder.acceptAt (state : Forwarder) (point : AcceptPoint) : Forwarder :=
  { state with tcpip := .accepting point }

/-- `netdev_start_listen` goes on to a point. -/
def Forwarder.startAt (state : Forwarder) (point : StartPoint) : Forwarder :=
  { state with tcpip := .starting point }

/-- The function of the tcpip thread returns. -/
def Forwarder.done (state : Forwarder) : Forwarder := { state with tcpip := .free }

/-- `tcp_abort`, after which `netdev_accept` returns. -/
def Forwarder.abort (state : Forwarder) : Forwarder :=
  { state.done with aborted := state.aborted + 1 }

/-- Who makes a step. -/
inductive Mover : Type
  | link
  | tcpip
  | thread (index : ℕ)
  deriving DecidableEq

/-- `netdev_fwd_on_link_up` and `netdev_start_listen`. -/
inductive StartStep : Forwarder → Mover → Forwarder → Prop
  /-- The link comes up; when the queue refuses the callback nothing changes. -/
  | linkUp {state : Forwarder} (henabled : state.enabled = true)
      (hfirst : state.listening = false) :
      StartStep state .link { state with starts := state.starts + 1 }
  | begin {state : Forwarder} {starts : ℕ} (hidle : state.Idle)
      (hqueued : state.starts = starts + 1) :
      StartStep state .tcpip { state.startAt .test with starts := starts }
  | test {state : Forwarder} (hpoint : state.tcpip = .starting .test) :
      StartStep state .tcpip
        (if state.listening ∨ state.enabled = false then state.done else state.startAt .tcpNew)
  | tcpNew {state : Forwarder} (hpoint : state.tcpip = .starting .tcpNew) :
      StartStep state .tcpip { state.startAt .tcpBind with listeners := state.listeners + 1 }
  | tcpNewFails {state : Forwarder} (hpoint : state.tcpip = .starting .tcpNew) :
      StartStep state .tcpip state.done
  | tcpBind {state : Forwarder} (hpoint : state.tcpip = .starting .tcpBind) :
      StartStep state .tcpip (state.startAt .tcpListen)
  | tcpBindFails {state : Forwarder} (hpoint : state.tcpip = .starting .tcpBind) :
      StartStep state .tcpip (state.startAt .tcpClose)
  /-- `tcp_listen` takes the pcb and returns the listening one in its place. -/
  | tcpListen {state : Forwarder} (hpoint : state.tcpip = .starting .tcpListen) :
      StartStep state .tcpip (state.startAt .tcpAccept)
  | tcpListenFails {state : Forwarder} (hpoint : state.tcpip = .starting .tcpListen) :
      StartStep state .tcpip (state.startAt .tcpClose)
  | tcpClose {state : Forwarder} (hpoint : state.tcpip = .starting .tcpClose) :
      StartStep state .tcpip { state.done with listeners := state.listeners - 1 }
  | tcpAccept {state : Forwarder} (hpoint : state.tcpip = .starting .tcpAccept) :
      StartStep state .tcpip { state.done with listening := true }

/-- `netdev_accept` on a new pcb. -/
inductive AcceptStep : Forwarder → Forwarder → Prop
  | begin {state : Forwarder} (hidle : state.Idle) (hlistening : state.listening = true) :
      AcceptStep state { state.acceptAt .getaddrinfo with offered := state.offered + 1 }
  | getaddrinfo {state : Forwarder} (addresses : ℕ)
      (hpoint : state.tcpip = .accepting .getaddrinfo) :
      AcceptStep state
        { state.acceptAt (.nextAddress addresses) with addrLists := state.addrLists + 1 }
  | getaddrinfoFails {state : Forwarder} (hpoint : state.tcpip = .accepting .getaddrinfo) :
      AcceptStep state (state.acceptAt (.testHostFd none))
  | noneLeft {state : Forwarder} (hpoint : state.tcpip = .accepting (.nextAddress 0)) :
      AcceptStep state (state.acceptAt (.freeaddrinfo none))
  | socket {state : Forwarder} {left : ℕ} (fd : ℕ)
      (hpoint : state.tcpip = .accepting (.nextAddress (left + 1))) (hfresh : fd ∉ state.openFds) :
      AcceptStep state { state.acceptAt (.connect fd left) with openFds := fd :: state.openFds }
  | socketFails {state : Forwarder} {left : ℕ}
      (hpoint : state.tcpip = .accepting (.nextAddress (left + 1))) :
      AcceptStep state (state.acceptAt (.nextAddress left))
  | connect {state : Forwarder} {fd left : ℕ}
      (hpoint : state.tcpip = .accepting (.connect fd left)) :
      AcceptStep state (state.acceptAt (.freeaddrinfo (some fd)))
  | connectFails {state : Forwarder} {fd left : ℕ}
      (hpoint : state.tcpip = .accepting (.connect fd left)) :
      AcceptStep state (state.acceptAt (.closeUnconnected fd left))
  | closeUnconnected {state : Forwarder} {fd left : ℕ}
      (hpoint : state.tcpip = .accepting (.closeUnconnected fd left)) :
      AcceptStep state ((state.close fd).acceptAt (.nextAddress left))
  | freeaddrinfo {state : Forwarder} {fd : Option ℕ}
      (hpoint : state.tcpip = .accepting (.freeaddrinfo fd)) :
      AcceptStep state
        { state.acceptAt (.testHostFd fd) with addrLists := state.addrLists - 1 }
  | connected {state : Forwarder} {fd : ℕ}
      (hpoint : state.tcpip = .accepting (.testHostFd (some fd))) :
      AcceptStep state (state.acceptAt (.calloc fd))
  | unconnected {state : Forwarder} (hpoint : state.tcpip = .accepting (.testHostFd none)) :
      AcceptStep state (state.acceptAt .abortUnconnected)
  | abortUnconnected {state : Forwarder} (hpoint : state.tcpip = .accepting .abortUnconnected) :
      AcceptStep state state.abort
  | calloc {state : Forwarder} {fd : ℕ} (hpoint : state.tcpip = .accepting (.calloc fd)) :
      AcceptStep state { state.acceptAt (.fill fd) with records := state.records + 1 }
  | callocFails {state : Forwarder} {fd : ℕ} (hpoint : state.tcpip = .accepting (.calloc fd)) :
      AcceptStep state (state.acceptAt (.closeNoRecord fd))
  | closeNoRecord {state : Forwarder} {fd : ℕ}
      (hpoint : state.tcpip = .accepting (.closeNoRecord fd)) :
      AcceptStep state ((state.close fd).acceptAt .abortNoRecord)
  /-- Here `netdev_accept` returns `ERR_MEM`. -/
  | abortNoRecord {state : Forwarder} (hpoint : state.tcpip = .accepting .abortNoRecord) :
      AcceptStep state { state.abort with strayAbort := true }
  | fill {state : Forwarder} {fd : ℕ} (hpoint : state.tcpip = .accepting (.fill fd)) :
      AcceptStep state (state.acceptAt (.pthreadCreate fd))
  /-- The new thread can run from here on. -/
  | pthreadCreate {state : Forwarder} {fd : ℕ}
      (hpoint : state.tcpip = .accepting (.pthreadCreate fd)) :
      AcceptStep state
        { state.acceptAt (.pthreadDetach state.conns.length) with
          conns := state.conns ++ [⟨fd, .initial⟩] }
  | pthreadCreateFails {state : Forwarder} {fd : ℕ}
      (hpoint : state.tcpip = .accepting (.pthreadCreate fd)) :
      AcceptStep state (state.acceptAt (.closeNoThread fd))
  | closeNoThread {state : Forwarder} {fd : ℕ}
      (hpoint : state.tcpip = .accepting (.closeNoThread fd)) :
      AcceptStep state ((state.close fd).acceptAt .freeNoThread)
  | freeNoThread {state : Forwarder} (hpoint : state.tcpip = .accepting .freeNoThread) :
      AcceptStep state { state.acceptAt .abortNoThread with records := state.records - 1 }
  /-- `tcp_abort` calls `netdev_err`, which is still registered with the record. -/
  | abortNoThread {state : Forwarder} (hpoint : state.tcpip = .accepting .abortNoThread) :
      AcceptStep state { state.abort with strayTouch := true }
  | pthreadDetach {state : Forwarder} {index : ℕ} {entry : Forwarded}
      (hpoint : state.tcpip = .accepting (.pthreadDetach index))
      (hentry : state.conns[index]? = some entry) :
      AcceptStep state { state.done with strayTouch := state.strayTouch || entry.state.freed }

/-- One step of the forwarder. -/
inductive Forwarder.Step : Forwarder → Mover → Forwarder → Prop
  | start {before after : Forwarder} {mover : Mover} (hstart : StartStep before mover after) :
      Step before mover after
  | accept {before after : Forwarder} (haccept : AcceptStep before after) : Step before .tcpip after
  /-- The thread of a connection goes on. -/
  | thread {state : Forwarder} {index : ℕ} {entry : Forwarded} {after : ForwardState}
      (hentry : state.conns[index]? = some entry)
      (hstep : NetdevForward.Step entry.state .host after) :
      Step state (.thread index) (state.threadStep index entry after)
  /-- A callback of a connection begins or goes on, or something queued for it is run. -/
  | callback {state : Forwarder} {index : ℕ} {entry : Forwarded} {after : ForwardState}
      (hentry : state.conns[index]? = some entry) (hfree : state.tcpip = .free)
      (hothers : state.Others index) (hstep : NetdevForward.Step entry.state .tcpip after) :
      Step state .tcpip { state with conns := state.conns.set index ⟨entry.fd, after⟩ }

/-! ### What is open and allocated -/

def AcceptPoint.fds : AcceptPoint → List ℕ
  | .connect fd _ | .closeUnconnected fd _ | .calloc fd | .closeNoRecord fd | .fill fd
  | .pthreadCreate fd | .closeNoThread fd => [fd]
  | .freeaddrinfo fd | .testHostFd fd => fd.toList
  | _ => []

def AcceptPoint.addrLists : AcceptPoint → ℕ
  | .nextAddress _ | .connect _ _ | .closeUnconnected _ _ | .freeaddrinfo _ => 1
  | _ => 0

def AcceptPoint.records : AcceptPoint → ℕ
  | .fill _ | .pthreadCreate _ | .closeNoThread _ | .freeNoThread => 1
  | _ => 0

/-- The new pcb is still to be given to a thread or aborted. -/
def AcceptPoint.pcbs : AcceptPoint → ℕ
  | .pthreadDetach _ => 0
  | _ => 1

def StartPoint.listeners : StartPoint → ℕ
  | .test | .tcpNew => 0
  | _ => 1

/-- What the function that the tcpip thread is in has to give back. -/
structure Holdings where
  fds : List ℕ
  addrLists : ℕ
  records : ℕ
  pcbs : ℕ
  listeners : ℕ

def TcpipWork.holdings : TcpipWork → Holdings
  | .free => ⟨[], 0, 0, 0, 0⟩
  | .starting point => ⟨[], 0, 0, 0, point.listeners⟩
  | .accepting point => ⟨point.fds, point.addrLists, point.records, point.pcbs, 0⟩

/-- The socket of a connection, as long as its thread has not closed it. -/
def Forwarded.fds (entry : Forwarded) : List ℕ := if entry.state.fdOpen then [entry.fd] else []

/-- The record of a connection, as long as its thread has not freed it. -/
def Forwarded.records (entry : Forwarded) : ℕ := if entry.state.freed then 0 else 1

/-- Everything that is open or allocated belongs to the function the tcpip thread is in or to one
connection. -/
structure Accounted (state : Forwarder) : Prop where
  fds : state.openFds.Perm (state.tcpip.holdings.fds ++ state.conns.flatMap Forwarded.fds)
  nodup : state.openFds.Nodup
  addrLists : state.addrLists = state.tcpip.holdings.addrLists
  records : state.records =
    state.tcpip.holdings.records + (state.conns.map Forwarded.records).sum
  pcbs : state.offered = state.aborted + state.conns.length + state.tcpip.holdings.pcbs
  listeners : state.listeners =
    (if state.listening then 1 else 0) + state.tcpip.holdings.listeners
  unlistened : state.listening = true → ∀ point, state.tcpip = .starting point → point = .test
  strayClose : state.strayClose = false

section Accounts

variable {before after : Forwarder} {mover : Mover}

theorem Accounted.initial (enabled : Bool) : Accounted (.initial enabled) := by
  constructor <;> simp [Forwarder.initial, TcpipWork.holdings]

theorem not_starting_free (point : StartPoint) (hpoint : TcpipWork.free = .starting point) :
    point = .test := by
  simp at hpoint

theorem not_starting_accepting {next : AcceptPoint} (point : StartPoint)
    (hpoint : TcpipWork.accepting next = .starting point) : point = .test := by
  simp at hpoint

/-- `netdev_start_listen` goes past its test only while nothing listens. -/
theorem Accounted.not_listening (haccounted : Accounted before) {point : StartPoint}
    (hpoint : before.tcpip = .starting point) (hpast : point ≠ .test) : before.listening = false :=
  Bool.eq_false_iff.mpr fun hlistening ↦ hpast (haccounted.unlistened hlistening point hpoint)

theorem Accounted.start (haccounted : Accounted before) (hstart : StartStep before mover after) :
    Accounted after := by
  obtain ⟨hfds, hnodup, haddr, hrecords, hpcbs, hlisteners, hfirst, hstray⟩ := id haccounted
  cases hstart with
  | linkUp => exact ⟨hfds, hnodup, haddr, hrecords, hpcbs, hlisteners, hfirst, hstray⟩
  | begin hidle =>
    rw [hidle.1] at hfds haddr hrecords hpcbs hlisteners
    refine ⟨hfds, hnodup, haddr, hrecords, hpcbs, hlisteners, ?_, hstray⟩
    rintro - _ ⟨⟩
    rfl
  | test hpoint =>
    rw [hpoint] at hfds haddr hrecords hpcbs hlisteners
    split_ifs with hdone
    · exact ⟨hfds, hnodup, haddr, hrecords, hpcbs, hlisteners, fun _ ↦ not_starting_free, hstray⟩
    · refine ⟨hfds, hnodup, haddr, hrecords, hpcbs, hlisteners, fun hlistening ↦ ?_, hstray⟩
      exact absurd (Or.inl hlistening) hdone
  | tcpNew hpoint | tcpNewFails hpoint | tcpBind hpoint | tcpBindFails hpoint | tcpListen hpoint
  | tcpListenFails hpoint | tcpClose hpoint =>
    have hfirst : before.listening = false := haccounted.not_listening hpoint (by simp)
    rw [hpoint] at hfds haddr hrecords hpcbs hlisteners
    refine ⟨hfds, hnodup, haddr, hrecords, hpcbs, ?_, fun hlistening ↦ ?_, hstray⟩
    · simp_all [Forwarder.done, Forwarder.startAt, TcpipWork.holdings, StartPoint.listeners]
    · exact absurd hlistening (Bool.eq_false_iff.mp hfirst)
  | tcpAccept hpoint =>
    have hfirst : before.listening = false := haccounted.not_listening hpoint (by simp)
    rw [hpoint] at hfds haddr hrecords hpcbs hlisteners
    refine ⟨hfds, hnodup, haddr, hrecords, hpcbs, ?_, fun _ ↦ not_starting_free, hstray⟩
    simp_all [Forwarder.done, TcpipWork.holdings, StartPoint.listeners]

/-- Closing a descriptor that is held. -/
theorem close_held {fd : ℕ} {rest : List ℕ} (hperm : before.openFds.Perm (fd :: rest))
    (hnodup : before.openFds.Nodup) (hstray : before.strayClose = false) :
    (before.close fd).openFds.Perm rest ∧ (before.close fd).openFds.Nodup ∧
      (before.close fd).strayClose = false := by
  refine ⟨?_, hnodup.erase fd, ?_⟩
  · have herased := hperm.erase fd
    rwa [List.erase_cons_head] at herased
  · simp [Forwarder.close, hstray, hperm.mem_iff]

theorem Accounted.accept (haccounted : Accounted before) (haccept : AcceptStep before after) :
    Accounted after := by
  obtain ⟨hfds, hnodup, haddr, hrecords, hpcbs, hlisteners, hfirst, hstray⟩ := haccounted
  cases haccept with
  | begin hidle =>
    rw [hidle.1] at hfds haddr hrecords hpcbs hlisteners
    exact ⟨hfds, hnodup, haddr, hrecords, congrArg (· + 1) hpcbs, hlisteners,
      fun _ ↦ not_starting_accepting, hstray⟩
  | getaddrinfo addresses hpoint =>
    rw [hpoint] at hfds haddr hrecords hpcbs hlisteners
    exact ⟨hfds, hnodup, congrArg (· + 1) haddr, hrecords, hpcbs, hlisteners,
      fun _ ↦ not_starting_accepting, hstray⟩
  | freeaddrinfo hpoint =>
    rw [hpoint] at hfds haddr hrecords hpcbs hlisteners
    exact ⟨hfds, hnodup, congrArg (· - 1) haddr, hrecords, hpcbs, hlisteners,
      fun _ ↦ not_starting_accepting, hstray⟩
  | getaddrinfoFails hpoint | noneLeft hpoint | socketFails hpoint | connect hpoint
  | connectFails hpoint | connected hpoint | unconnected hpoint | callocFails hpoint | fill hpoint
  | pthreadCreateFails hpoint =>
    rw [hpoint] at hfds haddr hrecords hpcbs hlisteners
    exact ⟨hfds, hnodup, haddr, hrecords, hpcbs, hlisteners, fun _ ↦ not_starting_accepting, hstray⟩
  | socket fd hpoint hfresh =>
    rw [hpoint] at hfds haddr hrecords hpcbs hlisteners
    exact ⟨hfds.cons fd, List.nodup_cons.mpr ⟨hfresh, hnodup⟩, haddr, hrecords, hpcbs, hlisteners,
      fun _ ↦ not_starting_accepting, hstray⟩
  | closeUnconnected hpoint | closeNoRecord hpoint | closeNoThread hpoint =>
    rw [hpoint] at hfds haddr hrecords hpcbs hlisteners
    obtain ⟨hfds, hnodup, hstray⟩ := close_held hfds hnodup hstray
    exact ⟨hfds, hnodup, haddr, hrecords, hpcbs, hlisteners, fun _ ↦ not_starting_accepting, hstray⟩
  | pthreadDetach hpoint =>
    rw [hpoint] at hfds haddr hrecords hpcbs hlisteners
    exact ⟨hfds, hnodup, haddr, hrecords, hpcbs, hlisteners, fun _ ↦ not_starting_free, hstray⟩
  | abortUnconnected hpoint | abortNoRecord hpoint | abortNoThread hpoint =>
    rw [hpoint] at hfds haddr hrecords hpcbs hlisteners
    refine ⟨hfds, hnodup, haddr, hrecords, ?_, hlisteners, fun _ ↦ not_starting_free, hstray⟩
    exact hpcbs.trans (Nat.add_right_comm _ _ 1)
  | calloc hpoint =>
    rw [hpoint] at hfds haddr hrecords hpcbs hlisteners
    refine ⟨hfds, hnodup, haddr, ?_, hpcbs, hlisteners, fun _ ↦ not_starting_accepting, hstray⟩
    exact (congrArg (· + 1) hrecords).trans (Nat.add_right_comm 0 _ 1)
  | freeNoThread hpoint =>
    rw [hpoint] at hfds haddr hrecords hpcbs hlisteners
    refine ⟨hfds, hnodup, haddr, ?_, hpcbs, hlisteners, fun _ ↦ not_starting_accepting, hstray⟩
    have hrecords : before.records = 1 + (before.conns.map Forwarded.records).sum := hrecords
    show before.records - 1 = 0 + (before.conns.map Forwarded.records).sum
    omega
  | pthreadCreate hpoint =>
    rw [hpoint] at hfds haddr hrecords hpcbs hlisteners
    refine ⟨?_, hnodup, haddr, ?_, ?_, hlisteners, fun _ ↦ not_starting_accepting, hstray⟩
    · rw [List.flatMap_append]
      exact hfds.trans List.perm_append_comm
    · rw [List.map_append, List.sum_append]
      have hrecords : before.records = 1 + (before.conns.map Forwarded.records).sum := hrecords
      show before.records = 0 + ((before.conns.map Forwarded.records).sum + (1 + 0))
      omega
    · rw [List.length_append]
      exact hpcbs

/-- What a connection holds is one entry of the account; the others are kept. -/
theorem perm_flatMap_set {α β : Type} {entries : List α} {index : ℕ} {entry : α}
    (hentry : entries[index]? = some entry) (hold : α → List β) (later : α) :
    ∃ others, (entries.flatMap hold).Perm (hold entry ++ others) ∧
      ((entries.set index later).flatMap hold).Perm (hold later ++ others) := by
  obtain ⟨hbound, rfl⟩ := List.getElem?_eq_some_iff.mp hentry
  refine ⟨(entries.eraseIdx index).flatMap hold, ?_, ?_⟩
  · exact (List.getElem_cons_eraseIdx_perm hbound).symm.flatMap_right hold
  · exact (List.set_perm_cons_eraseIdx hbound later).flatMap_right hold

theorem sum_map_set {α : Type} {entries : List α} {index : ℕ} {entry : α}
    (hentry : entries[index]? = some entry) (count : α → ℕ) (later : α) :
    ∃ others, (entries.map count).sum = count entry + others ∧
      ((entries.set index later).map count).sum = count later + others := by
  obtain ⟨hbound, rfl⟩ := List.getElem?_eq_some_iff.mp hentry
  refine ⟨((entries.eraseIdx index).map count).sum, ?_, ?_⟩
  · exact ((List.getElem_cons_eraseIdx_perm hbound).symm.map count).sum_nat.trans List.sum_cons
  · exact ((List.set_perm_cons_eraseIdx hbound later).map count).sum_nat.trans List.sum_cons

/-- A step of a thread closes its socket and frees its record as its state says. -/
theorem host_releases {before after : ForwardState} (howned : Owned before)
    (hstep : Step before .host after) :
    (before.fdCloses < after.fdCloses ∧ before.fdOpen = true ∧ after.fdOpen = false ∨
        ¬ before.fdCloses < after.fdCloses ∧ after.fdOpen = before.fdOpen) ∧
      (before.frees < after.frees ∧ before.freed = false ∧ after.freed = true ∨
        ¬ before.frees < after.frees ∧ after.freed = before.freed) := by
  have hheld := howned.held
  cases hstep with
  | host hgo =>
    unfold ForwardState.hostGo at hgo
    split at hgo
    all_goals first | (split at hgo <;> cases hgo) | cases hgo
    all_goals simp_all [ForwardState.held, HostPoint.holds, ForwardState.freed]
  | _ => simp [ForwardState.freed]

/-- A thread that has ended has closed its socket and freed its record. -/
theorem Owned.gone_of_ended {state : ForwardState} (howned : Owned state)
    (hended : state.host = .ended) : state.fdOpen = false ∧ state.freed = true := by
  have hheld := howned.held
  rw [hended] at hheld
  simp_all [ForwardState.held, HostPoint.holds, ForwardState.freed]

/-- A callback leaves the socket and the record to the thread. -/
theorem callback_holds {before after : ForwardState} (hstep : Step before .tcpip after) :
    after.fdOpen = before.fdOpen ∧ after.frees = before.frees := by
  cases hstep with
  | tcpip anything hgo =>
    have hheld := (beside_tcpipGo hgo).held
    simp only [ForwardState.held, Prod.mk.injEq] at hheld
    exact ⟨hheld.2.1, hheld.2.2.2⟩
  | _ => exact ⟨rfl, rfl⟩

/-- The thread of a connection goes on. -/
theorem Accounted.thread (haccounted : Accounted before) {index : ℕ} {entry : Forwarded}
    {later : ForwardState} (hentry : before.conns[index]? = some entry) (howned : Owned entry.state)
    (hstep : Step entry.state .host later) : Accounted (before.threadStep index entry later) := by
  obtain ⟨hfds, hnodup, haddr, hrecords, hpcbs, hlisteners, hfirst, hstray⟩ := haccounted
  obtain ⟨hcloses, hfrees⟩ := host_releases howned hstep
  obtain ⟨others, hall, hset⟩ := perm_flatMap_set hentry Forwarded.fds ⟨entry.fd, later⟩
  obtain ⟨count, hsum, hsumSet⟩ := sum_map_set hentry Forwarded.records ⟨entry.fd, later⟩
  -- The descriptors, with the socket of the connection in front.
  have hfront : before.openFds.Perm (entry.fds ++ (before.tcpip.holdings.fds ++ others)) := by
    exact (hfds.trans (hall.append_left _)).trans (List.perm_append_comm_assoc _ _ others)
  have hback {fds : List ℕ}
      (hheld : fds.Perm
        (Forwarded.fds ⟨entry.fd, later⟩ ++ (before.tcpip.holdings.fds ++ others))) :
      fds.Perm (before.tcpip.holdings.fds ++
        (before.conns.set index ⟨entry.fd, later⟩).flatMap Forwarded.fds) := by
    exact (hheld.trans (List.perm_append_comm_assoc _ _ others)).trans (hset.symm.append_left _)
  have hcount : (if entry.state.frees < later.frees then before.records - 1 else before.records) =
      before.tcpip.holdings.records +
        ((before.conns.set index ⟨entry.fd, later⟩).map Forwarded.records).sum := by
    rw [hsumSet, hrecords, hsum]
    rcases hfrees with ⟨hlt, hkept, hfreed⟩ | ⟨hnot, hsame⟩
    · simp only [if_pos hlt, Forwarded.records, hkept, hfreed]
      simp
      omega
    · simp only [if_neg hnot, Forwarded.records, hsame]
  have hlength : before.offered = before.aborted +
      (before.conns.set index ⟨entry.fd, later⟩).length + before.tcpip.holdings.pcbs := by
    rw [List.length_set]
    exact hpcbs
  rcases hcloses with ⟨hlt, hopen, hclosed⟩ | ⟨hnot, hsame⟩
  · simp only [Forwarded.fds, hopen, if_true, List.singleton_append] at hfront
    obtain ⟨hfds, hnodup, hstray⟩ := close_held hfront hnodup hstray
    rw [Forwarder.threadStep, if_pos hlt]
    refine ⟨hback ?_, hnodup, haddr, hcount, hlength, hlisteners, hfirst, hstray⟩
    simpa [Forwarded.fds, hclosed] using hfds
  · rw [Forwarder.threadStep, if_neg hnot]
    refine ⟨hback ?_, hnodup, haddr, hcount, hlength, hlisteners, hfirst, hstray⟩
    simpa only [Forwarded.fds, hsame] using hfront

/-- A callback of a connection goes on. -/
theorem Accounted.callback (haccounted : Accounted before) {index : ℕ} {entry : Forwarded}
    {later : ForwardState} (hentry : before.conns[index]? = some entry)
    (hstep : Step entry.state .tcpip later) :
    Accounted { before with conns := before.conns.set index ⟨entry.fd, later⟩ } := by
  obtain ⟨hfds, hnodup, haddr, hrecords, hpcbs, hlisteners, hfirst, hstray⟩ := haccounted
  obtain ⟨hopen, hfrees⟩ := callback_holds hstep
  obtain ⟨others, hall, hset⟩ := perm_flatMap_set hentry Forwarded.fds ⟨entry.fd, later⟩
  obtain ⟨count, hsum, hsumSet⟩ := sum_map_set hentry Forwarded.records ⟨entry.fd, later⟩
  have hsameFds : Forwarded.fds ⟨entry.fd, later⟩ = entry.fds := by simp [Forwarded.fds, hopen]
  have hsameRecords : Forwarded.records ⟨entry.fd, later⟩ = entry.records := by
    simp [Forwarded.records, ForwardState.freed, hfrees]
  refine ⟨?_, hnodup, haddr, ?_, ?_, hlisteners, hfirst, hstray⟩
  · rw [hsameFds] at hset
    exact hfds.trans ((hall.trans hset.symm).append_left _)
  · rw [hsumSet, hsameRecords, ← hsum]
    exact hrecords
  · rw [List.length_set]
    exact hpcbs

theorem Accounted.step (haccounted : Accounted before)
    (hcomponents : ∀ entry ∈ before.conns, Reachable Step .initial entry.state)
    (hstep : before.Step mover after) : Accounted after := by
  cases hstep with
  | start hstart => exact haccounted.start hstart
  | accept haccept => exact haccounted.accept haccept
  | thread hentry hstep =>
    have hsound := sound_of_reachable (hcomponents _ (List.mem_of_getElem? hentry))
    exact haccounted.thread hentry hsound.owned hstep
  | callback hentry hfree hothers hstep => exact haccounted.callback hentry hstep

end Accounts

/-! ### One connection among many -/

section Connections

variable {before after : Forwarder} {mover : Mover}

/-- Every connection is a state of the single connection, the callbacks of at most one of them run
at a time, and none while the tcpip thread is in another function. -/
structure Independent (state : Forwarder) : Prop where
  components : ∀ entry ∈ state.conns, Reachable Step .initial entry.state
  alone : ∀ (index : ℕ) (entry : Forwarded), state.conns[index]? = some entry →
    entry.state.tcpip ≠ .idle → state.Others index
  occupied : state.tcpip ≠ .free → ∀ entry ∈ state.conns, entry.state.tcpip = .idle

theorem Independent.initial (enabled : Bool) : Independent (.initial enabled) := by
  constructor <;> simp [Forwarder.initial]

/-- A function of the tcpip thread that leaves the connections as they are. -/
theorem Independent.same (hindependent : Independent before) (hconns : after.conns = before.conns)
    (hoccupied : after.tcpip ≠ .free → before.Idle ∨ before.tcpip ≠ .free) : Independent after where
  components := hconns ▸ hindependent.components
  alone := by
    intro index entry hentry hbusy other another hanother
    rw [hconns] at hentry hanother
    exact hindependent.alone index entry hentry hbusy other another hanother
  occupied := by
    rw [hconns]
    intro hbusy
    rcases hoccupied hbusy with hidle | hbefore
    · exact hidle.2
    · exact hindependent.occupied hbefore

theorem Independent.start (hindependent : Independent before)
    (hstart : StartStep before mover after) : Independent after := by
  cases hstart with
  | linkUp => exact hindependent.same rfl Or.inr
  | begin hidle => exact hindependent.same rfl fun _ ↦ Or.inl hidle
  | test hpoint =>
    split_ifs
    all_goals exact hindependent.same rfl fun _ ↦ Or.inr (by simp [hpoint])
  | tcpNew hpoint | tcpNewFails hpoint | tcpBind hpoint | tcpBindFails hpoint | tcpListen hpoint
  | tcpListenFails hpoint | tcpClose hpoint | tcpAccept hpoint =>
    exact hindependent.same rfl fun _ ↦ Or.inr (by simp [hpoint])

theorem Independent.accept (hindependent : Independent before) (haccept : AcceptStep before after) :
    Independent after := by
  cases haccept with
  | begin hidle => exact hindependent.same rfl fun _ ↦ Or.inl hidle
  | @pthreadCreate fd hpoint =>
    have hidle := hindependent.occupied (by simp [hpoint])
    have hall : ∀ entry ∈ before.conns ++ [⟨fd, .initial⟩], entry.state.tcpip = .idle := by
      rw [List.forall_mem_append, List.forall_mem_singleton]
      exact ⟨hidle, rfl⟩
    refine ⟨?_, fun index entry hentry hbusy ↦ ?_, fun _ ↦ hall⟩
    · rw [List.forall_mem_append, List.forall_mem_singleton]
      exact ⟨hindependent.components, .refl _⟩
    · exact absurd (hall entry (List.mem_of_getElem? hentry)) hbusy
  | socket fd hpoint hfresh => exact hindependent.same rfl fun _ ↦ Or.inr (by simp [hpoint])
  | getaddrinfo addresses hpoint => exact hindependent.same rfl fun _ ↦ Or.inr (by simp [hpoint])
  | pthreadDetach hpoint hentry => exact hindependent.same rfl fun _ ↦ Or.inr (by simp [hpoint])
  | getaddrinfoFails hpoint | noneLeft hpoint | socketFails hpoint | connect hpoint
  | connectFails hpoint | closeUnconnected hpoint | freeaddrinfo hpoint | connected hpoint
  | unconnected hpoint | abortUnconnected hpoint | calloc hpoint | callocFails hpoint
  | closeNoRecord hpoint | abortNoRecord hpoint | fill hpoint | pthreadCreateFails hpoint
  | closeNoThread hpoint | freeNoThread hpoint | abortNoThread hpoint =>
    exact hindependent.same rfl fun _ ↦ Or.inr (by simp [hpoint])

theorem host_leaves_tcpip {before after : ForwardState} (hstep : Step before .host after) :
    after.tcpip = before.tcpip := by
  cases hstep with
  | host hgo => exact (hostGo_beside hgo).1
  | _ => rfl

/-- One connection changes. -/
theorem Independent.set (hindependent : Independent before) {index : ℕ} {entry : Forwarded}
    {later : ForwardState} {actor : Actor} (hentry : before.conns[index]? = some entry)
    (hstep : Step entry.state actor later)
    (hconns : after.conns = before.conns.set index ⟨entry.fd, later⟩)
    (halone : later.tcpip ≠ .idle → before.Others index)
    (hoccupied : after.tcpip ≠ .free → before.tcpip ≠ .free ∧ later.tcpip = .idle) :
    Independent after := by
  have hother {other : ℕ} (hne : other ≠ index) : after.conns[other]? = before.conns[other]? := by
    rw [hconns, List.getElem?_set_ne (Ne.symm hne)]
  have hself {member : Forwarded} (hmember : after.conns[index]? = some member) :
      member = ⟨entry.fd, later⟩ := by
    obtain ⟨hbound, -⟩ := List.getElem?_eq_some_iff.mp hentry
    rw [hconns, List.getElem?_set_self hbound] at hmember
    exact (Option.some.inj hmember).symm
  refine ⟨fun member hmember ↦ ?_, fun busy member hmember hbusy other another hanother hne ↦ ?_,
    fun hnot member hmember ↦ ?_⟩
  · rw [hconns] at hmember
    rcases List.mem_or_eq_of_mem_set hmember with hold | rfl
    · exact hindependent.components member hold
    · exact (hindependent.components entry (List.mem_of_getElem? hentry)).tail hstep
  · by_cases hindex : busy = index
    · subst hindex
      rw [hself hmember] at hbusy
      exact halone hbusy other another (hother hne ▸ hanother) hne
    · rw [hother hindex] at hmember
      by_cases hsame : other = index
      · subst hsame
        rw [hself hanother]
        by_contra hlater
        exact hbusy (halone hlater busy member hmember hindex)
      · rw [hother hsame] at hanother
        exact hindependent.alone busy member hmember hbusy other another hanother hne
  · rw [hconns] at hmember
    rcases List.mem_or_eq_of_mem_set hmember with hold | rfl
    · exact hindependent.occupied (hoccupied hnot).1 member hold
    · exact (hoccupied hnot).2

theorem conns_threadStep (state : Forwarder) (index : ℕ) (entry : Forwarded)
    (later : ForwardState) :
    (state.threadStep index entry later).conns = state.conns.set index ⟨entry.fd, later⟩ ∧
      (state.threadStep index entry later).tcpip = state.tcpip := by
  unfold Forwarder.threadStep
  split_ifs <;> exact ⟨rfl, rfl⟩

theorem Independent.step (hindependent : Independent before) (hstep : before.Step mover after) :
    Independent after := by
  cases hstep with
  | start hstart => exact hindependent.start hstart
  | accept haccept => exact hindependent.accept haccept
  | @thread index entry later hentry hstep =>
    obtain ⟨hconns, htcpip⟩ := conns_threadStep before index entry later
    have hpoint := host_leaves_tcpip hstep
    refine hindependent.set hentry hstep hconns ?_ ?_
    · rw [hpoint]
      exact hindependent.alone index entry hentry
    · rw [htcpip, hpoint]
      exact fun hnot ↦ ⟨hnot, hindependent.occupied hnot entry (List.mem_of_getElem? hentry)⟩
  | callback hentry hfree hothers hstep =>
    exact hindependent.set hentry hstep rfl (fun _ ↦ hothers) fun hnot ↦ absurd hfree hnot

theorem independent_of_reachable {enabled : Bool} {state : Forwarder}
    (hreach : Reachable Forwarder.Step (.initial enabled) state) : Independent state :=
  hreach.invariant (.initial enabled) fun _ _ _ hbefore hstep ↦ hbefore.step hstep

theorem accounted_of_reachable {enabled : Bool} {state : Forwarder}
    (hreach : Reachable Forwarder.Step (.initial enabled) state) : Accounted state := by
  obtain ⟨movers, hrun⟩ := hreach
  induction hrun with
  | refl => exact .initial enabled
  | tail hrun hstep ih => exact ih.step (independent_of_reachable ⟨_, hrun⟩).components hstep

theorem Accounted.listeners_le_one {state : Forwarder} (haccounted : Accounted state) :
    state.listeners ≤ 1 := by
  rw [haccounted.listeners]
  cases htcpip : state.tcpip with
  | starting point =>
    by_cases hpast : point = .test
    · subst hpast
      split_ifs <;> simp [TcpipWork.holdings, StartPoint.listeners]
    · rw [haccounted.not_listening htcpip hpast]
      cases point <;> simp [TcpipWork.holdings, StartPoint.listeners]
  | free | accepting => split_ifs <;> simp [TcpipWork.holdings]

/-- When the tcpip thread is free and the connections have given up what they held, nothing is open
or allocated. -/
theorem Accounted.nothing_left {state : Forwarder} (haccounted : Accounted state)
    (hfree : state.tcpip = .free)
    (hgone : ∀ entry ∈ state.conns, entry.state.fdOpen = false ∧ entry.state.freed = true) :
    state.openFds = [] ∧ state.addrLists = 0 ∧ state.records = 0 ∧
      state.offered = state.aborted + state.conns.length := by
  obtain ⟨hfds, -, haddr, hrecords, hpcbs, -, -, -⟩ := haccounted
  rw [hfree] at hfds haddr hrecords hpcbs
  refine ⟨?_, haddr, ?_, hpcbs⟩
  · have hnone : state.conns.flatMap Forwarded.fds = [] :=
      List.flatMap_eq_nil_iff.mpr fun entry hentry ↦ by simp [Forwarded.fds, hgone entry hentry]
    rw [hnone] at hfds
    exact hfds.eq_nil
  · have hzero : (state.conns.map Forwarded.records).sum = 0 :=
      List.sum_eq_zero_iff_forall_eq_nat.mpr fun count hcount ↦ by
        obtain ⟨entry, hentry, rfl⟩ := List.mem_map.mp hcount
        simp [Forwarded.records, hgone entry hentry]
    rw [hrecords, hzero]
    rfl

/-- No descriptor is the socket of two connections. -/
theorem Accounted.disjoint {state : Forwarder} (haccounted : Accounted state) {first second : ℕ}
    {one other : Forwarded} (hone : state.conns[first]? = some one)
    (hother : state.conns[second]? = some other) (hopen : one.state.fdOpen = true)
    (hotherOpen : other.state.fdOpen = true) (hsame : one.fd = other.fd) : first = second := by
  have hnodup := (List.nodup_append.mp (haccounted.fds.nodup_iff.mp haccounted.nodup)).2.1
  have hpairs := (List.nodup_flatMap.mp hnodup).2
  rw [List.pairwise_iff_getElem] at hpairs
  obtain ⟨hfirst, rfl⟩ := List.getElem?_eq_some_iff.mp hone
  obtain ⟨hsecond, rfl⟩ := List.getElem?_eq_some_iff.mp hother
  have hapart {less more : ℕ} (hless : less < state.conns.length)
      (hmore : more < state.conns.length) (hlt : less < more)
      (hlessOpen : state.conns[less].state.fdOpen = true)
      (hmoreOpen : state.conns[more].state.fdOpen = true) :
      state.conns[less].fd ≠ state.conns[more].fd := by
    intro heq
    have hdisjoint := hpairs less more hless hmore hlt
    simp only [Function.onFun, Forwarded.fds, hlessOpen, hmoreOpen, if_true] at hdisjoint
    exact hdisjoint (List.mem_singleton_self _) (List.mem_singleton.mpr heq)
  rcases Nat.lt_trichotomy first second with hlt | heq | hgt
  · exact absurd hsame (hapart hfirst hsecond hlt hopen hotherOpen)
  · exact heq
  · exact absurd hsame.symm (hapart hsecond hfirst hgt hotherOpen hopen)

/-- The forwarder with its first connection, before `pthread_detach`. -/
def acceptedState : Forwarder where
  enabled := true
  listening := true
  starts := 0
  tcpip := .accepting (.pthreadDetach 0)
  listeners := 1
  conns := [⟨3, .initial⟩]
  openFds := [3]
  addrLists := 0
  records := 1
  offered := 1
  aborted := 0
  strayClose := false
  strayTouch := false
  strayAbort := false

/-- The forwarder once it listens. -/
def listeningState : Forwarder := { Forwarder.initial true with listening := true, listeners := 1 }

theorem reachable_listeningState : Reachable Forwarder.Step (.initial true) listeningState := by
  have hidle : ∀ entry ∈ ([] : List Forwarded), entry.state.tcpip = .idle := by simp
  have hqueued := (Reachable.refl (Forwarder.initial true)).tail (Forwarder.Step.start
    (.linkUp rfl rfl))
  have htested := (hqueued.tail (Forwarder.Step.start (.begin ⟨rfl, hidle⟩ rfl))).tail
    (Forwarder.Step.start (.test rfl))
  have hbound := (htested.tail (Forwarder.Step.start (.tcpNew rfl))).tail
    (Forwarder.Step.start (.tcpBind rfl))
  exact (hbound.tail (Forwarder.Step.start (.tcpListen rfl))).tail
    (Forwarder.Step.start (.tcpAccept rfl))

theorem reachable_acceptedState : Reachable Forwarder.Step (.initial true) acceptedState := by
  have hidle : ∀ entry ∈ ([] : List Forwarded), entry.state.tcpip = .idle := by simp
  have hresolved := (reachable_listeningState.tail (Forwarder.Step.accept
    (.begin ⟨rfl, hidle⟩ rfl))).tail (Forwarder.Step.accept (.getaddrinfo 1 rfl))
  have hconnected := (hresolved.tail (Forwarder.Step.accept
    (.socket 3 rfl List.not_mem_nil))).tail (Forwarder.Step.accept (.connect rfl))
  have htested := (hconnected.tail (Forwarder.Step.accept (.freeaddrinfo rfl))).tail
    (Forwarder.Step.accept (.connected rfl))
  have hfilled := (htested.tail (Forwarder.Step.accept (.calloc rfl))).tail
    (Forwarder.Step.accept (.fill rfl))
  exact hfilled.tail (Forwarder.Step.accept (.pthreadCreate rfl))

/-- Any number of connections, in every interleaving of their threads with the tcpip thread, whichever
calls fail: as long as the thread of a connection has not closed the socket, it is open, no other
connection has it, and neither has `netdev_accept`, which may be connecting the next one. -/
theorem sockets_apart {enabled : Bool} {state : Forwarder}
    (hreach : Reachable Forwarder.Step (.initial enabled) state) (index : ℕ) (entry : Forwarded)
    (hentry : state.conns[index]? = some entry) (hopen : entry.state.fdOpen = true) :
    entry.fd ∈ state.openFds ∧ entry.fd ∉ state.tcpip.holdings.fds ∧
      ∀ (second : ℕ) (other : Forwarded), state.conns[second]? = some other →
        other.state.fdOpen = true → other.fd = entry.fd → second = index := by
  have haccounted := accounted_of_reachable hreach
  have hheld : entry.fd ∈ state.conns.flatMap Forwarded.fds := by
    refine List.mem_flatMap.mpr ⟨entry, List.mem_of_getElem? hentry, ?_⟩
    rw [Forwarded.fds, if_pos hopen]
    exact List.mem_singleton_self _
  refine ⟨haccounted.fds.mem_iff.mpr (List.mem_append_right _ hheld), fun haccept ↦ ?_,
    fun second other hother hotherOpen hsame ↦
      haccounted.disjoint hother hentry hotherOpen hopen hsame⟩
  have hnodup := haccounted.fds.nodup_iff.mp haccounted.nodup
  exact List.disjoint_of_nodup_append hnodup haccept hheld

theorem sockets_apart_accepted :
    Reachable Forwarder.Step (.initial true) acceptedState ∧ 3 ∈ acceptedState.openFds ∧
      3 ∉ acceptedState.tcpip.holdings.fds := by
  obtain ⟨hopen, hapart, -⟩ := sockets_apart reachable_acceptedState 0 ⟨3, .initial⟩ rfl rfl
  exact ⟨reachable_acceptedState, hopen, hapart⟩

/-- In every run, whichever calls fail: no descriptor is closed that is not open; what is open and
allocated is what the function the tcpip thread is in has still to give back, and the sockets and
records of the connections whose threads have not released them; every pcb lwIP has offered was
aborted, belongs to a connection, or is the one being accepted; and there is at most one listening
pcb, however often the link has come up. So no socket, no address list and no record is left when all
threads have ended, and no new pcb but those that were aborted or given to a connection. -/
theorem resources_accounted {enabled : Bool} {state : Forwarder}
    (hreach : Reachable Forwarder.Step (.initial enabled) state) :
    Accounted state ∧ state.listeners ≤ 1 ∧
      (state.tcpip = .free → (∀ entry ∈ state.conns, entry.state.host = .ended) →
        state.openFds = [] ∧ state.addrLists = 0 ∧ state.records = 0 ∧
          state.offered = state.aborted + state.conns.length) := by
  have haccounted := accounted_of_reachable hreach
  refine ⟨haccounted, haccounted.listeners_le_one, fun hfree hended ↦ ?_⟩
  refine haccounted.nothing_left hfree fun entry hentry ↦ ?_
  have hsound := sound_of_reachable ((independent_of_reachable hreach).components entry hentry)
  exact hsound.owned.gone_of_ended (hended entry hentry)

theorem resources_accounted_accepted :
    Reachable Forwarder.Step (.initial true) acceptedState ∧ Accounted acceptedState ∧
      acceptedState.listeners ≤ 1 := by
  obtain ⟨haccounted, hlisteners, -⟩ := resources_accounted reachable_acceptedState
  exact ⟨reachable_acceptedState, haccounted, hlisteners⟩

/-- Without memory for the record the socket is closed and the pcb aborted, by `netdev_accept` and once
more by lwIP, as `ERR_MEM` does not tell that it has been. -/
theorem callocFails_aborts_twice {state : Forwarder} {fd : ℕ}
    (hpoint : state.tcpip = .accepting (.calloc fd)) :
    ∃ after, Run Forwarder.Step state [.tcpip, .tcpip, .tcpip] after ∧ after.tcpip = .free ∧
      after.openFds = state.openFds.erase fd ∧ after.aborted = state.aborted + 1 ∧
      after.strayAbort = true := by
  have hfailed : Run Forwarder.Step state [.tcpip] _ :=
    Run.refl.tail (.accept (.callocFails hpoint))
  have hclosed := hfailed.tail (Forwarder.Step.accept (.closeNoRecord rfl))
  exact ⟨_, hclosed.tail (Forwarder.Step.accept (.abortNoRecord rfl)), rfl, rfl, rfl, rfl⟩

end Connections

/-! ### The end of `netdev_accept` -/

section Detach

/-- How many steps the thread can be away from its end, when the host closes its side and the queue
refuses what it is given. -/
def HostPoint.toEnd : HostPoint → ℕ
  | .ended => 0
  | .freeConn => 1
  | .clearFd => 2
  | .closeFd => 3
  | .testFd => 4
  | .closePcb _ => 5
  | .clearPcb _ => 6
  | .takePcb => 7
  | .testPcb => 8
  | .clearAlive => 9
  | .reading => 10
  | .loopPcb => 11
  | .loopFd => 12
  | .loopAlive => 13
  | .failWrite _ _ => 14
  | .returned _ _ .other => 15
  | .request _ _ _ => 16
  | .chunkArg _ _ => 17
  | .chunkPcb _ _ => 18
  | .chunkAlive _ _ => 19
  | .returned _ _ _ => 20
  | .waiting _ _ => 21

/-- The thread waits for the tcpip thread to run `do_tcp_write`. -/
def HostPoint.waits : HostPoint → Bool
  | .waiting _ _ => true
  | _ => false

/-- A thread that does not wait for the tcpip thread can go on towards its end. -/
theorem host_towards_end {state : ForwardState} (hwaits : state.host.waits = false)
    (hend : state.host ≠ .ended) :
    ∃ later, Step state .host later ∧ later.host.waits = false ∧
      later.host.toEnd < state.host.toEnd := by
  cases hhost : state.host with
  | ended => exact absurd hhost hend
  | waiting => simp [hhost, HostPoint.waits] at hwaits
  | reading => exact ⟨_, .readEnds hhost, rfl, by simp [HostPoint.toEnd]⟩
  | request buf off pcb => exact ⟨_, .writeRefused hhost, rfl, by simp [HostPoint.toEnd]⟩
  | closePcb pcb => exact ⟨_, .closeRefused hhost, rfl, by simp [HostPoint.toEnd]⟩
  | returned buf off err =>
    cases err with
    | ok | mem | other =>
      exact ⟨_, .host (by rw [ForwardState.hostGo, hhost]), rfl, by simp [HostPoint.toEnd]⟩
  | loopAlive | loopFd | loopPcb | chunkAlive | chunkPcb | testPcb | testFd =>
    refine ⟨_, .host (by rw [ForwardState.hostGo, hhost]), ?_, ?_⟩
    all_goals
      dsimp only
      split_ifs <;> simp [HostPoint.waits, HostPoint.toEnd]
  | chunkArg | failWrite | clearAlive | takePcb | clearPcb | closeFd | clearFd | freeConn =>
    exact ⟨_, .host (by rw [ForwardState.hostGo, hhost]), rfl, by simp [HostPoint.toEnd]⟩

/-- The thread of a connection that does not wait for the tcpip thread can free its record, whatever
the tcpip thread is in. -/
theorem thread_can_free {state : Forwarder} {index : ℕ} {entry : Forwarded}
    (hentry : state.conns[index]? = some entry) (howned : Owned entry.state)
    (hwaits : entry.state.host.waits = false) :
    ∃ later another, Reachable Forwarder.Step state later ∧ later.tcpip = state.tcpip ∧
      later.conns[index]? = some another ∧ another.state.freed = true := by
  induction hsteps : entry.state.host.toEnd using Nat.strongRecOn generalizing state entry with
  | ind steps ih =>
    by_cases hend : entry.state.host = .ended
    · exact ⟨state, entry, .refl state, rfl, hentry, (howned.gone_of_ended hend).2⟩
    · obtain ⟨after, hstep, hgoes, hless⟩ := host_towards_end hwaits hend
      obtain ⟨hconns, htcpip⟩ := conns_threadStep state index entry after
      have hself : (state.threadStep index entry after).conns[index]? = some ⟨entry.fd, after⟩ := by
        obtain ⟨hbound, -⟩ := List.getElem?_eq_some_iff.mp hentry
        rw [hconns, List.getElem?_set_self hbound]
      obtain ⟨later, another, ⟨movers, hrun⟩, hsame, hanother, hfreed⟩ :=
        ih after.host.toEnd (hsteps ▸ hless) hself (howned.step hstep) hgoes rfl
      exact ⟨later, another, ((Reachable.refl state).tail (.thread hentry hstep)).run hrun,
        hsame.trans htcpip, hanother, hfreed⟩

/-- The thread waits for the tcpip thread, or `netdev_accept` for the connection has returned. -/
inductive Safe (index : ℕ) (state : Forwarder) : Prop
  | waiting {entry : Forwarded} (hpoint : state.tcpip = .accepting (.pthreadDetach index))
      (hentry : state.conns[index]? = some entry) (hwaits : entry.state.host.waits = true)
      (hkept : entry.state.freed = false)
  | returned (hpoint : state.tcpip ≠ .accepting (.pthreadDetach index))
      (hold : index < state.conns.length)

theorem no_host_step_of_waits {before after : ForwardState} (hwaits : before.host.waits = true) :
    ¬ Step before .host after := by
  intro hstep
  cases hstep with
  | host hgo =>
    unfold ForwardState.hostGo at hgo
    split at hgo
    all_goals simp_all [HostPoint.waits]
  | _ => simp_all [HostPoint.waits]

theorem Safe.step {index : ℕ} {before after : Forwarder} {mover : Mover} (hsafe : Safe index before)
    (hstep : before.Step mover after) : Safe index after := by
  cases hsafe with
  | @waiting entry hpoint hentry hwaits hkept =>
    have hbound : index < before.conns.length := (List.getElem?_eq_some_iff.mp hentry).1
    cases hstep with
    | start hstart =>
      cases hstart with
      | linkUp => exact .waiting hpoint hentry hwaits hkept
      | begin hidle => simp [hidle.1] at hpoint
      | _ => simp_all
    | accept haccept =>
      cases haccept with
      | begin hidle => simp [hidle.1] at hpoint
      | pthreadDetach => exact .returned (by simp [Forwarder.done]) hbound
      | _ => simp_all
    | @thread other entry' later hother hstep =>
      obtain ⟨hconns, htcpip⟩ := conns_threadStep before other entry' later
      by_cases hsame : other = index
      · subst hsame
        obtain rfl := Option.some.inj (hentry.symm.trans hother)
        exact absurd hstep (no_host_step_of_waits hwaits)
      · refine .waiting (htcpip.trans hpoint) ?_ hwaits hkept
        rw [hconns, List.getElem?_set_ne hsame, hentry]
    | callback _ hfree => simp [hfree] at hpoint
  | returned hpoint hold =>
    cases hstep with
    | start hstart =>
      cases hstart with
      | linkUp => exact .returned hpoint hold
      | test =>
        split_ifs
        all_goals exact .returned (by simp [Forwarder.done, Forwarder.startAt]) hold
      | _ => exact .returned (by simp [Forwarder.done, Forwarder.startAt]) hold
    | accept haccept =>
      cases haccept with
      | pthreadCreate =>
        refine .returned ?_ ?_
        · simp [Forwarder.acceptAt]
          omega
        · simp
          omega
      | _ =>
        exact .returned (by simp [Forwarder.done, Forwarder.abort, Forwarder.acceptAt]) hold
    | @thread other entry later hother hstep =>
      obtain ⟨hconns, htcpip⟩ := conns_threadStep before other entry later
      refine .returned (htcpip ▸ hpoint) ?_
      rw [hconns, List.length_set]
      exact hold
    | callback => exact .returned hpoint (by simpa using hold)

/-- The last line of `netdev_accept` reads the record of the new connection. In every state in which
this line is next, the record can be freed before it is read exactly if the new thread does not wait
for the tcpip thread: when the host closes its side at once, the thread is through before
`pthread_detach`. -/
theorem detach_race_iff {enabled : Bool} {state : Forwarder}
    (hreach : Reachable Forwarder.Step (.initial enabled) state) {index : ℕ} {entry : Forwarded}
    (hpoint : state.tcpip = .accepting (.pthreadDetach index))
    (hentry : state.conns[index]? = some entry) :
    (∃ later another, Reachable Forwarder.Step state later ∧
        later.tcpip = .accepting (.pthreadDetach index) ∧ later.conns[index]? = some another ∧
        another.state.freed = true) ↔
      entry.state.host.waits = false := by
  have hcomponent :=
    (independent_of_reachable hreach).components entry (List.mem_of_getElem? hentry)
  have howned := (sound_of_reachable hcomponent).owned
  constructor
  · rintro ⟨later, another, hlater, hstill, hanother, hfreed⟩
    by_contra hnot
    have hwaits : entry.state.host.waits = true := by simpa using hnot
    have hkept : entry.state.freed = false := Bool.eq_false_iff.mpr fun hgone ↦ by
      simp [howned.ended_of_freed hgone, HostPoint.waits] at hwaits
    have hsafe : Safe index later :=
      hlater.invariant (.waiting hpoint hentry hwaits hkept)
        fun _ _ _ hbefore hstep ↦ hbefore.step hstep
    cases hsafe with
    | waiting _ hlast _ hunfreed =>
      obtain rfl := Option.some.inj (hlast.symm.trans hanother)
      simp [hunfreed] at hfreed
    | returned hnot => exact hnot hstill
  · intro hwaits
    obtain ⟨later, another, hlater, hsame, hanother, hfreed⟩ :=
      thread_can_free hentry howned hwaits
    exact ⟨later, another, hlater, hsame.trans hpoint, hanother, hfreed⟩

/-- The host closes the first connection at once. -/
theorem detach_race_iff_accepted :
    ∃ later another, Reachable Forwarder.Step acceptedState later ∧
      later.tcpip = .accepting (.pthreadDetach 0) ∧ later.conns[0]? = some another ∧
      another.state.freed = true :=
  (detach_race_iff reachable_acceptedState rfl rfl).mpr rfl

end Detach

end ZigbeeRemote.Client.NetdevForward
