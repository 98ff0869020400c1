import Mathlib.Data.List.Basic
import ZigbeeRemote.Foundation.StreamProgram
import ZigbeeRemote.Foundation.TransitionSystem

/-!
# One forwarded connection

`netdev_fwd.c` splices a TCP connection of the ESP to a socket on the host. Two threads share the
record of a connection (`struct netdev_conn`). The tcpip thread runs lwIP and its callbacks: what the
ESP sends goes to the host socket (`netdev_recv`), and a connection that fails is given up
(`netdev_err`). The other thread reads the host socket and hands the bytes to lwIP
(`host_to_pcb_thread`); to touch the pcb it queues a callback for the tcpip thread (`do_tcp_write`,
`close_pcb_cb`). When it is done it closes the socket and frees the record.

There is no lock. Every read and write of a field of the record is a step of its own here, and the
steps of the two threads come in any order. lwIP calls `netdev_recv` and `netdev_err` only for a pcb
that is neither closed nor failed, hands nothing over after the end of the stream, and frees a pcb
before it calls `netdev_err`. The system calls answer anything.

A record that has been freed can still be read by the tcpip thread. Such a read finds anything, and
`touched` remembers it. What the memory holds once another connection has got it is not modelled.
-/

set_option autoImplicit false
set_option relaxedAutoImplicit false

namespace ZigbeeRemote.Client.NetdevForward

open ZigbeeRemote.Foundation

/-- `NETDEV_BUF` -/
def netdevBuf : ℕ := 2048

/-- The errors `host_to_pcb_thread` tells apart: `ERR_OK`, `ERR_MEM` and the rest. -/
inductive WriteErr : Type
  | ok
  | mem
  | other
  deriving DecidableEq

/-- `struct netdev_conn`: whether `pcb` is not `NULL`, whether `host_fd` is not negative, and `alive`. -/
structure Conn where
  pcb : Bool
  hostFd : Bool
  alive : Bool
  deriving DecidableEq

/-- What is queued with `tcpip_callback`, and whether the pcb it was given is not `NULL`. -/
inductive Callback : Type
  | doTcpWrite (pcb : Bool) (data : Bytes)
  | closePcbCb (pcb : Bool)
  deriving DecidableEq

/-- A pcb in lwIP: with the callbacks of the record, freed after an error, or closed and without
callbacks. -/
inductive PcbState : Type
  | serving
  | failed
  | closed
  deriving DecidableEq

/-- The program points of `host_to_pcb_thread`. -/
inductive HostPoint : Type
  /-- The conditions of the outer loop. -/
  | loopAlive
  | loopFd
  | loopPcb
  /-- In `read`. -/
  | reading
  /-- The conditions of the inner loop. -/
  | chunkAlive (buf : Bytes) (off : UInt16)
  | chunkPcb (buf : Bytes) (off : UInt16)
  /-- `c->pcb` is read once more, as an argument of `tcp_write_sync`. -/
  | chunkArg (buf : Bytes) (off : UInt16)
  /-- In `tcp_write_sync`, before the callback is queued and after it. -/
  | request (buf : Bytes) (off : UInt16) (pcb : Bool)
  | waiting (buf : Bytes) (off : UInt16)
  /-- `tcp_write_sync` has returned. -/
  | returned (buf : Bytes) (off : UInt16) (err : WriteErr)
  | failWrite (buf : Bytes) (off : UInt16)
  /-- After the loop. -/
  | clearAlive
  | testPcb
  | takePcb
  | clearPcb (pcb : Bool)
  | closePcb (pcb : Bool)
  | testFd
  | closeFd
  | clearFd
  | freeConn
  | ended
  deriving DecidableEq

/-- The program points of the tcpip thread. In `netdev_recv` they hold what is left of the current
pbuf, the pbufs after it and `p->tot_len`. -/
inductive TcpipPoint : Type
  | idle
  /-- `netdev_recv` without a pbuf. -/
  | finAlive
  | finFd
  | finShutdown
  /-- `netdev_recv` with a chain of pbufs. -/
  | recvFd (data : Bytes) (rest : List Bytes) (total : ℕ)
  | recvAlive (data : Bytes) (rest : List Bytes) (total : ℕ)
  | recvWrite (data : Bytes) (rest : List Bytes) (total : ℕ)
  | recvFail (rest : List Bytes) (total : ℕ)
  | recved (total : ℕ)
  /-- `netdev_err`. -/
  | errPcb
  | errAlive
  | errFd
  | errShutdown
  deriving DecidableEq

/-- A connection with its two threads. -/
structure ForwardState where
  conn : Conn
  host : HostPoint
  tcpip : TcpipPoint
  /-- What is queued for the tcpip thread on behalf of this connection. -/
  queue : List Callback
  pcb : PcbState
  /-- lwIP has handed over the end of the stream. -/
  finished : Bool
  /-- The socket is open, and the number of times the thread closed it. -/
  fdOpen : Bool
  fdCloses : ℕ
  /-- The number of times the pcb was given to `close_pcb_cb`, and the number the queue refused. -/
  pcbCloses : ℕ
  closesRefused : ℕ
  frees : ℕ
  /-- The record was read or written after it was freed. -/
  touched : Bool
  /-- Read from the host socket, and taken by `tcp_write` for the ESP. -/
  fromHost : Bytes
  toEsp : Bytes
  /-- Handed over by lwIP, and taken by `write` for the host. -/
  fromEsp : Bytes
  toHost : Bytes
  /-- Given back to the receive window with `tcp_recved`. -/
  recved : ℕ
  deriving DecidableEq

/-- A connection as `netdev_accept` leaves it. -/
def ForwardState.initial : ForwardState where
  conn := ⟨true, true, true⟩
  host := .loopAlive
  tcpip := .idle
  queue := []
  pcb := .serving
  finished := false
  fdOpen := true
  fdCloses := 0
  pcbCloses := 0
  closesRefused := 0
  frees := 0
  touched := false
  fromHost := []
  toEsp := []
  fromEsp := []
  toHost := []
  recved := 0

/-- `chunk` in `host_to_pcb_thread`. -/
def chunkOf (buf : Bytes) (off : UInt16) : UInt16 := UInt16.ofNat buf.length - off

/-- The bytes `tcp_write_sync` is given: `chunk` bytes from `buf + off` on. -/
def chunkBytes (buf : Bytes) (off : UInt16) : Bytes :=
  (buf.drop off.toNat).take (chunkOf buf off).toNat

/-- The steps of `host_to_pcb_thread` that wait for nothing and have one outcome. -/
def ForwardState.hostGo (state : ForwardState) : Option ForwardState :=
  match state.host with
  | .loopAlive => some { state with host := if state.conn.alive then .loopFd else .clearAlive }
  | .loopFd => some { state with host := if state.conn.hostFd then .loopPcb else .clearAlive }
  | .loopPcb => some { state with host := if state.conn.pcb then .reading else .clearAlive }
  | .chunkAlive buf off =>
    some { state with
      host := if off < UInt16.ofNat buf.length ∧ state.conn.alive then .chunkPcb buf off
        else .loopAlive }
  | .chunkPcb buf off =>
    some { state with host := if state.conn.pcb then .chunkArg buf off else .loopAlive }
  | .chunkArg buf off => some { state with host := .request buf off state.conn.pcb }
  | .returned buf off err =>
    match err with
    | .mem => some { state with host := .chunkAlive buf off }
    | .other => some { state with host := .failWrite buf off }
    | .ok => some { state with host := .chunkAlive buf (off + chunkOf buf off) }
  | .failWrite _ _ =>
    some { state with conn := { state.conn with alive := false }, host := .loopAlive }
  | .clearAlive =>
    some { state with conn := { state.conn with alive := false }, host := .testPcb }
  | .testPcb => some { state with host := if state.conn.pcb then .takePcb else .testFd }
  | .takePcb => some { state with host := .clearPcb state.conn.pcb }
  | .clearPcb pcb =>
    some { state with conn := { state.conn with pcb := false }, host := .closePcb pcb }
  | .testFd => some { state with host := if state.conn.hostFd then .closeFd else .freeConn }
  | .closeFd =>
    some { state with fdOpen := false, fdCloses := state.fdCloses + 1, host := .clearFd }
  | .clearFd =>
    some { state with conn := { state.conn with hostFd := false }, host := .freeConn }
  | .freeConn => some { state with frees := state.frees + 1, host := .ended }
  | .reading | .request _ _ _ | .waiting _ _ | .closePcb _ | .ended => none

/-- The record has been freed. -/
def ForwardState.freed (state : ForwardState) : Bool := decide (0 < state.frees)

/-- The tcpip thread touches the record. -/
def ForwardState.touch (state : ForwardState) : ForwardState :=
  { state with touched := state.touched || state.freed }

/-- What the tcpip thread finds in a field of the record: anything when it has been freed. -/
def ForwardState.look (state : ForwardState) (field anything : Bool) : Bool :=
  if state.freed then anything else field

/-- The tcpip thread stores to the record. A record that has been freed is not there any more. -/
def ForwardState.store (state : ForwardState) (update : Conn → Conn) : ForwardState :=
  { state.touch with conn := if state.freed then state.conn else update state.conn }

/-- The loop of `netdev_recv` goes on to the next pbuf. -/
def nextPbuf : List Bytes → ℕ → TcpipPoint
  | [], total => .recved total
  | data :: rest, total => .recvFd data rest total

/-- The steps of the tcpip thread in a callback, `write` apart. `anything` is what it finds in a record
that has been freed. -/
def ForwardState.tcpipGo (state : ForwardState) (anything : Bool) : Option ForwardState :=
  match state.tcpip with
  | .finAlive => some { state.store ({ · with alive := false }) with tcpip := .finFd }
  | .finFd =>
    some { state.touch with
      tcpip := if state.look state.conn.hostFd anything then .finShutdown else .idle }
  | .finShutdown => some { state.touch with tcpip := .idle }
  | .recvFd [] rest total => some { state with tcpip := nextPbuf rest total }
  | .recvFd (byte :: data) rest total =>
    some { state.touch with
      tcpip := if state.look state.conn.hostFd anything then .recvAlive (byte :: data) rest total
        else nextPbuf rest total }
  | .recvAlive data rest total =>
    some { state.touch with
      tcpip := if state.look state.conn.alive anything then .recvWrite data rest total
        else nextPbuf rest total }
  | .recvFail rest total =>
    some { state.store ({ · with alive := false }) with tcpip := nextPbuf rest total }
  | .recved total => some { state with recved := state.recved + total, tcpip := .idle }
  | .errPcb => some { state.store ({ · with pcb := false }) with tcpip := .errAlive }
  | .errAlive => some { state.store ({ · with alive := false }) with tcpip := .errFd }
  | .errFd =>
    some { state.touch with
      tcpip := if state.look state.conn.hostFd anything then .errShutdown else .idle }
  | .errShutdown => some { state.touch with tcpip := .idle }
  | .idle | .recvWrite _ _ _ => none

/-- Who makes a step. -/
inductive Actor : Type
  | host
  | tcpip
  deriving DecidableEq

/-- One step. -/
inductive Step : ForwardState → Actor → ForwardState → Prop
  | host {before after : ForwardState} (hgo : before.hostGo = some after) : Step before .host after
  /-- `read` returns bytes. -/
  | read {state : ForwardState} (data : Bytes) (hpoint : state.host = .reading) (hsome : data ≠ [])
      (hfits : data.length ≤ netdevBuf) :
      Step state .host
        { state with host := .chunkAlive data 0, fromHost := state.fromHost ++ data }
  /-- `read` is interrupted. -/
  | readInterrupted {state : ForwardState} (hpoint : state.host = .reading) :
      Step state .host { state with host := .loopAlive }
  /-- `read` fails or finds the end of the stream. -/
  | readEnds {state : ForwardState} (hpoint : state.host = .reading) :
      Step state .host { state with host := .clearAlive }
  /-- `sys_sem_new` fails. -/
  | noSemaphore {state : ForwardState} {buf : Bytes} {off : UInt16} {pcb : Bool}
      (hpoint : state.host = .request buf off pcb) :
      Step state .host { state with host := .returned buf off .mem }
  /-- `tcpip_callback` refuses `do_tcp_write`. -/
  | writeRefused {state : ForwardState} {buf : Bytes} {off : UInt16} {pcb : Bool}
      (hpoint : state.host = .request buf off pcb) :
      Step state .host { state with host := .returned buf off .other }
  | writeQueued {state : ForwardState} {buf : Bytes} {off : UInt16} {pcb : Bool}
      (hpoint : state.host = .request buf off pcb) :
      Step state .host
        { state with
          host := .waiting buf off
          queue := state.queue ++ [.doTcpWrite pcb (chunkBytes buf off)] }
  /-- `tcpip_callback` refuses `close_pcb_cb`. Its result is ignored. -/
  | closeRefused {state : ForwardState} {pcb : Bool} (hpoint : state.host = .closePcb pcb) :
      Step state .host
        { state with host := .testFd, closesRefused := state.closesRefused + 1 }
  | closeQueued {state : ForwardState} {pcb : Bool} (hpoint : state.host = .closePcb pcb) :
      Step state .host
        { state with
          host := .testFd
          pcbCloses := state.pcbCloses + 1
          queue := state.queue ++ [.closePcbCb pcb] }
  | tcpip {before after : ForwardState} (anything : Bool) (hgo : before.tcpipGo anything = some after) :
      Step before .tcpip after
  /-- lwIP hands over a chain of pbufs. -/
  | recv {state : ForwardState} (chain : List Bytes) (hsome : chain ≠ [])
      (hidle : state.tcpip = .idle) (hserving : state.pcb = .serving)
      (hopen : state.finished = false) :
      Step state .tcpip
        { state with
          tcpip := nextPbuf chain chain.flatten.length
          fromEsp := state.fromEsp ++ chain.flatten }
  /-- lwIP hands a chain over with an error. It is freed unread, and `fromEsp` does not count it. -/
  | recvError {state : ForwardState} (hidle : state.tcpip = .idle) (hserving : state.pcb = .serving) :
      Step state .tcpip state
  /-- lwIP hands over the end of the stream. -/
  | recvFin {state : ForwardState} (hidle : state.tcpip = .idle) (hserving : state.pcb = .serving)
      (hopen : state.finished = false) :
      Step state .tcpip { state with tcpip := .finAlive, finished := true }
  /-- lwIP gives the connection up. -/
  | fails {state : ForwardState} (hidle : state.tcpip = .idle) (hserving : state.pcb = .serving) :
      Step state .tcpip { state with tcpip := .errPcb, pcb := .failed }
  /-- `write` takes some of the bytes. Once the thread has closed the socket they go elsewhere. -/
  | wrote {state : ForwardState} {data : Bytes} {rest : List Bytes} {total : ℕ} (count : ℕ)
      (hpoint : state.tcpip = .recvWrite data rest total) (hcount : count ≤ data.length) :
      Step state .tcpip
        { state.touch with
          tcpip := .recvFd (data.drop count) rest total
          toHost := if state.fdOpen then state.toHost ++ data.take count else state.toHost }
  | writeInterrupted {state : ForwardState} {data : Bytes} {rest : List Bytes} {total : ℕ}
      (hpoint : state.tcpip = .recvWrite data rest total) :
      Step state .tcpip { state.touch with tcpip := .recvFd data rest total }
  | writeFails {state : ForwardState} {data : Bytes} {rest : List Bytes} {total : ℕ}
      (hpoint : state.tcpip = .recvWrite data rest total) :
      Step state .tcpip { state.touch with tcpip := .recvFail rest total }
  /-- `do_tcp_write` on a pcb lwIP still serves. -/
  | doTcpWrite {state : ForwardState} {data buf : Bytes} {off : UInt16} {queue : List Callback}
      (err : WriteErr) (hidle : state.tcpip = .idle)
      (hqueue : state.queue = .doTcpWrite true data :: queue) (hhost : state.host = .waiting buf off)
      (hserving : state.pcb = .serving) :
      Step state .tcpip
        { state with
          queue := queue
          host := .returned buf off err
          toEsp := if err = .ok then state.toEsp ++ data else state.toEsp }
  /-- `do_tcp_write` on a pcb that is gone, or on `NULL`. Whatever it answers, nothing is sent. -/
  | doTcpWriteLate {state : ForwardState} {data buf : Bytes} {off : UInt16} {queue : List Callback}
      {pcb : Bool} (err : WriteErr) (hidle : state.tcpip = .idle)
      (hqueue : state.queue = .doTcpWrite pcb data :: queue) (hhost : state.host = .waiting buf off)
      (hgone : state.pcb ≠ .serving ∨ pcb = false) :
      Step state .tcpip { state with queue := queue, host := .returned buf off err }
  | closePcbCb {state : ForwardState} {queue : List Callback} {pcb : Bool}
      (hidle : state.tcpip = .idle) (hqueue : state.queue = .closePcbCb pcb :: queue) :
      Step state .tcpip
        { state with
          queue := queue
          pcb := if pcb ∧ state.pcb = .serving then .closed else state.pcb }

/-! ### The record and its owner -/

/-- What the thread holds at a program point: whether `c->host_fd` is set and the socket open, and how
often it has closed the socket and freed the record. -/
def HostPoint.holds : HostPoint → Bool × Bool × ℕ × ℕ
  | .clearFd => (true, false, 1, 0)
  | .freeConn => (false, false, 1, 0)
  | .ended => (false, false, 1, 1)
  | _ => (true, true, 0, 0)

/-- The thread has given the connection up. -/
def HostPoint.closing : HostPoint → Bool
  | .testPcb | .takePcb | .clearPcb _ | .closePcb _ | .testFd | .closeFd | .clearFd | .freeConn
  | .ended => true
  | _ => false

/-- The thread has cleared `c->pcb` or found it cleared. -/
def HostPoint.pcbCleared : HostPoint → Bool
  | .closePcb _ | .testFd | .closeFd | .clearFd | .freeConn | .ended => true
  | _ => false

/-- The thread is done with the pcb. -/
def HostPoint.pcbReleased : HostPoint → Bool
  | .testFd | .closeFd | .clearFd | .freeConn | .ended => true
  | _ => false

/-- What only the thread of the connection changes. -/
def ForwardState.held (state : ForwardState) : Bool × Bool × ℕ × ℕ :=
  (state.conn.hostFd, state.fdOpen, state.fdCloses, state.frees)

/-- What the thread has given up, at every program point. -/
structure Owned (state : ForwardState) : Prop where
  held : state.held = state.host.holds
  alive : state.host.closing = true → state.conn.alive = false
  pcb : state.host.pcbCleared = true → state.conn.pcb = false

section Steps

variable {before after : ForwardState}

theorem Owned.initial : Owned .initial := ⟨rfl, by decide, by decide⟩

theorem Owned.hostGo (howned : Owned before) (hgo : before.hostGo = some after) : Owned after := by
  obtain ⟨hheld, halive, hpcb⟩ := howned
  unfold ForwardState.hostGo at hgo
  split at hgo
  all_goals first | (split at hgo <;> cases hgo) | cases hgo
  all_goals constructor
  all_goals simp_all [ForwardState.held, HostPoint.holds, HostPoint.closing, HostPoint.pcbCleared]

/-- What a callback of the pcb leaves alone. -/
structure Beside (before after : ForwardState) : Prop where
  host : after.host = before.host
  held : after.held = before.held
  queue : after.queue = before.queue
  counts : (after.pcbCloses, after.closesRefused) = (before.pcbCloses, before.closesRefused)
  pcb : after.pcb = before.pcb
  finished : after.finished = before.finished
  outbound : (after.fromHost, after.toEsp) = (before.fromHost, before.toEsp)
  /-- The fields it stores to are only cleared. -/
  alive : after.conn.alive = true → before.conn.alive = true
  connPcb : after.conn.pcb = true → before.conn.pcb = true

theorem beside_tcpipGo {anything : Bool} (hgo : before.tcpipGo anything = some after) :
    Beside before after := by
  unfold ForwardState.tcpipGo at hgo
  split at hgo
  all_goals cases hgo
  all_goals constructor
  all_goals simp only [ForwardState.held, ForwardState.store, ForwardState.touch, imp_self]
  all_goals split_ifs <;> simp

theorem Owned.beside (howned : Owned before) (hbeside : Beside before after) : Owned after where
  held := by rw [hbeside.held, hbeside.host, howned.held]
  alive := by
    intro hclosing
    have hbefore := howned.alive (hbeside.host ▸ hclosing)
    exact Bool.eq_false_iff.mpr fun hafter ↦ by simp [hbeside.alive hafter] at hbefore
  pcb := by
    intro hcleared
    have hbefore := howned.pcb (hbeside.host ▸ hcleared)
    exact Bool.eq_false_iff.mpr fun hafter ↦ by simp [hbeside.connPcb hafter] at hbefore

theorem Owned.step {actor : Actor} (howned : Owned before) (hstep : Step before actor after) :
    Owned after := by
  obtain ⟨hheld, halive, hpcb⟩ := id howned
  cases hstep with
  | host hgo => exact howned.hostGo hgo
  | tcpip anything hgo => exact howned.beside (beside_tcpipGo hgo)
  | recvError => exact howned
  | read _ hpoint | readInterrupted hpoint | readEnds hpoint | noSemaphore hpoint
  | writeRefused hpoint | writeQueued hpoint | closeRefused hpoint | closeQueued hpoint =>
    constructor
    all_goals simp_all [ForwardState.held, HostPoint.holds, HostPoint.closing, HostPoint.pcbCleared]
  | recv | recvFin | fails | wrote | writeInterrupted | writeFails | closePcbCb =>
    exact ⟨hheld, halive, hpcb⟩
  | doTcpWrite _ _ _ hhost | doTcpWriteLate _ _ _ hhost =>
    constructor
    all_goals simp_all [ForwardState.held, HostPoint.holds, HostPoint.closing, HostPoint.pcbCleared]

/-- A freed record was given up before. -/
theorem Owned.ended_of_freed (howned : Owned before) (hfreed : before.freed = true) :
    before.host = .ended := by
  have hheld := howned.held
  cases hhost : before.host
  all_goals simp_all [ForwardState.held, HostPoint.holds, ForwardState.freed]

theorem Owned.alive_of_freed (howned : Owned before) (hfreed : before.freed = true) :
    before.conn.alive = false :=
  howned.alive (by simp [howned.ended_of_freed hfreed, HostPoint.closing])

theorem Owned.pcb_of_freed (howned : Owned before) (hfreed : before.freed = true) :
    before.conn.pcb = false :=
  howned.pcb (by simp [howned.ended_of_freed hfreed, HostPoint.pcbCleared])

theorem Owned.fdOpen_of_freed (howned : Owned before) (hfreed : before.freed = true) :
    before.fdOpen = false := by
  have hheld := howned.held
  simp_all [howned.ended_of_freed hfreed, ForwardState.held, HostPoint.holds]

/-- What is queued: at most one callback, the one the thread waits for or the one that closes the pcb. -/
structure Queued (state : ForwardState) : Prop where
  writes : ∀ buf off, state.host = .waiting buf off →
    ∃ pcb, state.queue = [.doTcpWrite pcb (chunkBytes buf off)]
  closes : state.host.pcbReleased = true → state.queue = [] ∨ ∃ pcb, state.queue = [.closePcbCb pcb]
  quiet : (∀ buf off, state.host ≠ .waiting buf off) → state.host.pcbReleased = false →
    state.queue = []

theorem Queued.initial : Queued .initial := by
  constructor <;> simp [ForwardState.initial, HostPoint.pcbReleased]

theorem Queued.hostGo (hqueued : Queued before) (hgo : before.hostGo = some after) :
    Queued after := by
  obtain ⟨hwrites, hcloses, hquiet⟩ := hqueued
  unfold ForwardState.hostGo at hgo
  split at hgo
  all_goals first | (split at hgo <;> cases hgo) | cases hgo
  all_goals constructor
  all_goals simp_all [HostPoint.pcbReleased]

theorem Queued.beside (hqueued : Queued before) (hbeside : Beside before after) : Queued after := by
  obtain ⟨hwrites, hcloses, hquiet⟩ := hqueued
  constructor
  all_goals rw [hbeside.host, hbeside.queue]
  · exact hwrites
  · exact hcloses
  · exact hquiet

theorem Queued.released_of_closePcbCb (hqueued : Queued before) {pcb : Bool} {rest : List Callback}
    (hqueue : before.queue = .closePcbCb pcb :: rest) : before.host.pcbReleased = true := by
  by_contra hnot
  by_cases hwaits : ∃ buf off, before.host = .waiting buf off
  · obtain ⟨buf, off, hhost⟩ := hwaits
    obtain ⟨other, hone⟩ := hqueued.writes buf off hhost
    simp [hqueue] at hone
  · have hnil := hqueued.quiet (fun buf off hhost ↦ hwaits ⟨buf, off, hhost⟩) (by simpa using hnot)
    simp [hqueue] at hnil

theorem Queued.step {actor : Actor} (hqueued : Queued before) (hstep : Step before actor after) :
    Queued after := by
  obtain ⟨hwrites, hcloses, hquiet⟩ := id hqueued
  cases hstep with
  | host hgo => exact hqueued.hostGo hgo
  | tcpip anything hgo => exact hqueued.beside (beside_tcpipGo hgo)
  | recvError => exact hqueued
  | read _ hpoint | readInterrupted hpoint | readEnds hpoint | noSemaphore hpoint
  | writeRefused hpoint | writeQueued hpoint | closeRefused hpoint | closeQueued hpoint =>
    constructor
    all_goals simp_all [HostPoint.pcbReleased]
  | recv | recvFin | fails | wrote | writeInterrupted | writeFails =>
    exact ⟨hwrites, hcloses, hquiet⟩
  | doTcpWrite _ _ hqueue hhost | doTcpWriteLate _ _ hqueue hhost =>
    obtain ⟨pcb, hone⟩ := hwrites _ _ hhost
    constructor
    all_goals simp_all [HostPoint.pcbReleased]
  | closePcbCb hidle hqueue =>
    have hreleased := hqueued.released_of_closePcbCb hqueue
    constructor
    · intro buf off hhost
      simp_all [HostPoint.pcbReleased]
    · intro _
      rcases hcloses hreleased with hnil | ⟨pcb, hone⟩ <;> simp_all
    · intro _ hnot
      simp_all

/-- The tcpip thread is in `netdev_recv`. -/
def TcpipPoint.receiving : TcpipPoint → Bool
  | .recvFd _ _ _ | .recvAlive _ _ _ | .recvWrite _ _ _ | .recvFail _ _ | .recved _ => true
  | .finAlive | .finFd | .finShutdown => true
  | _ => false

/-- The tcpip thread is in `netdev_err`. -/
def TcpipPoint.failing : TcpipPoint → Bool
  | .errPcb | .errAlive | .errFd | .errShutdown => true
  | _ => false

@[simp] theorem receiving_nextPbuf (rest : List Bytes) (total : ℕ) :
    (nextPbuf rest total).receiving = true := by
  cases rest <;> rfl

@[simp] theorem failing_nextPbuf (rest : List Bytes) (total : ℕ) :
    (nextPbuf rest total).failing = false := by
  cases rest <;> rfl

/-- How the pcb of lwIP, its callbacks and the record hang together. -/
structure Served (state : ForwardState) : Prop where
  receiving : state.tcpip.receiving = true → state.pcb = .serving
  failing : state.tcpip.failing = true → state.pcb = .failed
  failed : state.pcb = .failed → state.tcpip = .errPcb ∨
    state.conn.pcb = false ∧ (state.tcpip = .errAlive ∨ state.conn.alive = false)
  cleared : state.conn.pcb = false → state.host.pcbCleared = false → state.pcb = .failed
  closed : state.pcb = .closed → state.host.pcbReleased = true
  requested : ∀ buf off, state.host = .request buf off false → state.pcb = .failed
  asked : ∀ data rest, state.queue = .doTcpWrite false data :: rest → state.pcb = .failed

theorem Served.initial : Served .initial := by
  constructor <;> simp [ForwardState.initial, TcpipPoint.receiving, TcpipPoint.failing]

theorem Served.hostGo (hserved : Served before) (howned : Owned before)
    (hgo : before.hostGo = some after) : Served after := by
  obtain ⟨hreceiving, hfailing, hfailed, hcleared, hclosed, hrequested, hasked⟩ := hserved
  have hpcb := howned.pcb
  unfold ForwardState.hostGo at hgo
  split at hgo
  all_goals first | (split at hgo <;> cases hgo) | cases hgo
  all_goals constructor
  all_goals try assumption
  all_goals first
    | (simp_all [HostPoint.pcbReleased, HostPoint.pcbCleared]; done)
    | grind [HostPoint.pcbReleased, HostPoint.pcbCleared]

theorem Served.tcpipGo (hserved : Served before) (howned : Owned before) {anything : Bool}
    (hgo : before.tcpipGo anything = some after) : Served after := by
  obtain ⟨hreceiving, hfailing, hfailed, hcleared, hclosed, hrequested, hasked⟩ := hserved
  have halive := howned.alive_of_freed
  have hpcb := howned.pcb_of_freed
  unfold ForwardState.tcpipGo at hgo
  split at hgo
  all_goals cases hgo
  all_goals constructor
  all_goals simp only [ForwardState.store, ForwardState.touch]
  all_goals first
    | (simp_all [TcpipPoint.receiving, TcpipPoint.failing]; done)
    | grind [TcpipPoint.receiving, TcpipPoint.failing, receiving_nextPbuf, failing_nextPbuf]

theorem Served.step {actor : Actor} (hserved : Served before) (howned : Owned before)
    (hqueued : Queued before) (hstep : Step before actor after) : Served after := by
  obtain ⟨hreceiving, hfailing, hfailed, hcleared, hclosed, hrequested, hasked⟩ := id hserved
  cases hstep with
  | host hgo => exact hserved.hostGo howned hgo
  | tcpip anything hgo => exact hserved.tcpipGo howned hgo
  | recvError => exact hserved
  | read _ hpoint | readInterrupted hpoint | readEnds hpoint | noSemaphore hpoint
  | writeRefused hpoint | writeQueued hpoint | closeRefused hpoint | closeQueued hpoint =>
    have hquiet := hqueued.quiet
    constructor
    all_goals try assumption
    all_goals simp_all [HostPoint.pcbReleased, HostPoint.pcbCleared]
  | recv _ _ _ hserving =>
    constructor
    all_goals try assumption
    all_goals grind [receiving_nextPbuf, failing_nextPbuf]
  | recvFin | fails | wrote | writeInterrupted | writeFails =>
    constructor
    all_goals try assumption
    all_goals grind [ForwardState.touch, TcpipPoint.receiving, TcpipPoint.failing]
  | doTcpWrite _ _ hqueue hhost | doTcpWriteLate _ _ hqueue hhost =>
    obtain ⟨pcb, hone⟩ := hqueued.writes _ _ hhost
    constructor
    all_goals try assumption
    all_goals simp_all [HostPoint.pcbReleased, HostPoint.pcbCleared]
  | closePcbCb hidle hqueue =>
    have hreleased := hqueued.released_of_closePcbCb hqueue
    have hcloses := hqueued.closes hreleased
    constructor
    all_goals
      grind [TcpipPoint.receiving, TcpipPoint.failing, HostPoint.pcbReleased, HostPoint.pcbCleared]

/-- What every reachable state keeps to. -/
structure Sound (state : ForwardState) : Prop where
  owned : Owned state
  queued : Queued state
  served : Served state

theorem Sound.initial : Sound .initial := ⟨.initial, .initial, .initial⟩

theorem Sound.step {actor : Actor} (hsound : Sound before) (hstep : Step before actor after) :
    Sound after where
  owned := hsound.owned.step hstep
  queued := hsound.queued.step hstep
  served := hsound.served.step hsound.owned hsound.queued hstep

theorem sound_of_reachable {state : ForwardState} (hreach : Reachable Step .initial state) :
    Sound state :=
  hreach.invariant .initial fun _ _ _ hsound hstep ↦ hsound.step hstep

end Steps

/-! ### From the host to the ESP -/

/-- A chunk always reaches to the end of the buffer. Assumes: the buffer is no longer than
`NETDEV_BUF`. -/
theorem toNat_chunkOf {buf : Bytes} {off : UInt16} (hfits : buf.length ≤ netdevBuf)
    (hoff : off.toNat ≤ buf.length) : (chunkOf buf off).toNat = buf.length - off.toNat := by
  have hlength : (UInt16.ofNat buf.length).toNat = buf.length := by
    rw [UInt16.toNat_ofNat']
    exact Nat.mod_eq_of_lt (by unfold netdevBuf at hfits; omega)
  rw [chunkOf, UInt16.toNat_sub_of_le, hlength]
  rw [UInt16.le_iff_toNat_le, hlength]
  exact hoff

theorem chunkBytes_eq_drop {buf : Bytes} {off : UInt16} (hfits : buf.length ≤ netdevBuf)
    (hoff : off.toNat ≤ buf.length) : chunkBytes buf off = buf.drop off.toNat := by
  rw [chunkBytes, toNat_chunkOf hfits hoff]
  exact List.take_of_length_le (by simp)

theorem toNat_add_chunkOf {buf : Bytes} {off : UInt16} (hfits : buf.length ≤ netdevBuf)
    (hoff : off.toNat ≤ buf.length) : (off + chunkOf buf off).toNat = buf.length := by
  rw [UInt16.toNat_add, toNat_chunkOf hfits hoff]
  unfold netdevBuf at hfits
  omega

theorem lt_ofNat_length_iff {buf : Bytes} {off : UInt16} (hfits : buf.length ≤ netdevBuf) :
    off < UInt16.ofNat buf.length ↔ off.toNat < buf.length := by
  rw [UInt16.lt_iff_toNat_lt, UInt16.toNat_ofNat']
  unfold netdevBuf at hfits
  omega

/-- The connection has been given up and lwIP takes nothing any more. -/
def ForwardState.Gone (state : ForwardState) : Prop :=
  state.conn.alive = false ∧ state.pcb ≠ .serving

/-- The bytes read and not sent, at a program point of the thread. -/
def ForwardState.Unsent (state : ForwardState) (rest : Bytes) : Prop :=
  match state.host with
  | .chunkAlive buf off | .chunkPcb buf off | .chunkArg buf off | .request buf off _
  | .waiting buf off | .failWrite buf off | .returned buf off .mem | .returned buf off .other =>
    buf.length ≤ netdevBuf ∧ off.toNat ≤ buf.length ∧ (rest = buf.drop off.toNat ∨ state.Gone)
  | .returned buf off .ok =>
    buf.length ≤ netdevBuf ∧ off.toNat ≤ buf.length ∧ (rest = [] ∨ state.Gone)
  | .loopAlive => rest = [] ∨ state.conn.alive = false ∨ state.conn.pcb = false
  | .loopFd | .loopPcb => rest = [] ∨ state.conn.pcb = false
  | .reading => rest = []
  | _ => True

/-- What has been read is what has been sent and at most one buffer more. -/
def Outbound (state : ForwardState) : Prop :=
  ∃ rest, state.fromHost = state.toEsp ++ rest ∧ rest.length ≤ netdevBuf ∧ state.Unsent rest

theorem Outbound.initial : Outbound .initial :=
  ⟨[], rfl, Nat.zero_le _, .inl rfl⟩

section Steps

variable {before after : ForwardState}

/-- What is unsent stays so while the thread does nothing. -/
theorem Outbound.beside (houtbound : Outbound before) (hhost : after.host = before.host)
    (hstreams : (after.fromHost, after.toEsp) = (before.fromHost, before.toEsp))
    (halive : after.conn.alive = true → before.conn.alive = true)
    (hpcb : after.conn.pcb = true → before.conn.pcb = true)
    (hserving : after.pcb = .serving → before.pcb = .serving) : Outbound after := by
  obtain ⟨rest, hrest, hlength, hunsent⟩ := houtbound
  rw [Prod.mk.injEq] at hstreams
  refine ⟨rest, ?_, hlength, ?_⟩
  · rw [hstreams.1, hstreams.2, hrest]
  · unfold ForwardState.Unsent at hunsent ⊢
    rw [hhost]
    split at hunsent
    all_goals grind [ForwardState.Gone]

theorem Outbound.hostGo (houtbound : Outbound before) (hgo : before.hostGo = some after) :
    Outbound after := by
  obtain ⟨rest, hrest, hlength, hunsent⟩ := houtbound
  unfold ForwardState.Unsent at hunsent
  unfold ForwardState.hostGo at hgo
  split at hgo
  all_goals first | (split at hgo <;> cases hgo) | cases hgo
  all_goals refine ⟨rest, hrest, hlength, ?_⟩
  all_goals unfold ForwardState.Unsent
  all_goals simp_all only
  all_goals grind [ForwardState.Gone, lt_ofNat_length_iff, toNat_add_chunkOf, List.drop_eq_nil_iff]

theorem Outbound.step {actor : Actor} (houtbound : Outbound before) (hsound : Sound before)
    (hstep : Step before actor after) : Outbound after := by
  cases hstep with
  | host hgo => exact houtbound.hostGo hgo
  | tcpip anything hgo =>
    have hbeside := beside_tcpipGo hgo
    exact houtbound.beside hbeside.host hbeside.outbound hbeside.alive hbeside.connPcb
      fun hserving ↦ hbeside.pcb ▸ hserving
  | recvError => exact houtbound
  | recv | recvFin | wrote | writeInterrupted | writeFails =>
    exact houtbound.beside rfl rfl id id id
  | fails => exact houtbound.beside rfl rfl id id nofun
  | closePcbCb =>
    exact houtbound.beside rfl rfl id id fun hserving ↦ by
      by_contra hnot
      simp_all
  | read data hpoint hsome hfits =>
    obtain ⟨rest, hrest, hlength, hunsent⟩ := houtbound
    simp only [ForwardState.Unsent, hpoint] at hunsent
    subst hunsent
    refine ⟨data, by simp [hrest], hfits, ?_⟩
    exact ⟨hfits, Nat.zero_le _, .inl rfl⟩
  | readInterrupted hpoint | readEnds hpoint | noSemaphore hpoint | writeRefused hpoint
  | writeQueued hpoint | closeRefused hpoint | closeQueued hpoint =>
    obtain ⟨rest, hrest, hlength, hunsent⟩ := houtbound
    refine ⟨rest, hrest, hlength, ?_⟩
    simp_all [ForwardState.Unsent, ForwardState.Gone]
  | @doTcpWrite data buf off _ err hidle hqueue hhost hserving =>
    obtain ⟨rest, hrest, hlength, hunsent⟩ := houtbound
    obtain ⟨pcb, hone⟩ := hsound.queued.writes _ _ hhost
    simp only [ForwardState.Unsent, hhost, ForwardState.Gone, hserving] at hunsent
    obtain ⟨hfits, hoff, heq | hgone⟩ := hunsent
    · have hdata : data = rest := by
        rw [hqueue] at hone
        simp only [List.cons.injEq, Callback.doTcpWrite.injEq] at hone
        rw [hone.1.2, chunkBytes_eq_drop hfits hoff, heq]
      cases err with
      | ok => exact ⟨[], by simp [hrest, hdata], Nat.zero_le _, hfits, hoff, .inl rfl⟩
      | mem | other => exact ⟨rest, hrest, hlength, hfits, hoff, .inl heq⟩
    · exact absurd rfl hgone.2
  | @doTcpWriteLate data buf off _ pcb err hidle hqueue hhost hgone =>
    obtain ⟨rest, hrest, hlength, hunsent⟩ := houtbound
    -- The pcb was not closed, the thread being in its loop, so lwIP has called `netdev_err`.
    have hfailed : before.pcb = .failed := by
      rcases hgone with hgone | rfl
      · cases hpcb : before.pcb with
        | serving => exact absurd hpcb hgone
        | failed => rfl
        | closed =>
          have hreleased := hsound.served.closed hpcb
          simp [hhost, HostPoint.pcbReleased] at hreleased
      · exact hsound.served.asked _ _ hqueue
    have halive : before.conn.alive = false := by
      have hfacts := hsound.served.failed hfailed
      simp_all
    have hgone : before.Gone := ⟨halive, by simp [hfailed]⟩
    simp only [ForwardState.Unsent, hhost] at hunsent
    refine ⟨rest, hrest, hlength, ?_⟩
    cases err <;> exact ⟨hunsent.1, hunsent.2.1, .inr hgone⟩

end Steps

/-! ### From the ESP to the host -/

/-- The bytes handed over and not written, at a program point of the tcpip thread. -/
def ForwardState.Unwritten (state : ForwardState) (rest : Bytes) : Prop :=
  match state.tcpip with
  | .recvFd data more _ | .recvAlive data more _ =>
    rest = data ++ more.flatten ∨ state.conn.alive = false
  | .recvWrite data more _ => rest = data ++ more.flatten ∨ state.fdOpen = false
  | .recvFail _ _ => True
  | _ => rest = [] ∨ state.conn.alive = false

/-- What `netdev_recv` has still to give back to the receive window. -/
def TcpipPoint.owed : TcpipPoint → ℕ
  | .recvFd _ _ total | .recvAlive _ _ total | .recvWrite _ _ total | .recvFail _ total
  | .recved total => total
  | _ => 0

@[simp] theorem owed_nextPbuf (rest : List Bytes) (total : ℕ) : (nextPbuf rest total).owed = total := by
  cases rest <;> rfl

/-- What has been handed over has been written, up to where the connection was given up, and is given
back to the window in any case. -/
structure Inbound (state : ForwardState) : Prop where
  bytes : ∃ rest, state.fromEsp = state.toHost ++ rest ∧ state.Unwritten rest
  window : state.recved + state.tcpip.owed = state.fromEsp.length

theorem Inbound.initial : Inbound .initial := ⟨⟨[], rfl, .inl rfl⟩, rfl⟩

section Steps

variable {before after : ForwardState}

/-- What is unwritten stays so while the tcpip thread is not in a callback of the pcb. -/
theorem Inbound.beside (hinbound : Inbound before) (htcpip : after.tcpip = before.tcpip)
    (hstreams : (after.fromEsp, after.toHost, after.recved) =
      (before.fromEsp, before.toHost, before.recved))
    (halive : after.conn.alive = true → before.conn.alive = true)
    (hopen : after.fdOpen = true → before.fdOpen = true) : Inbound after := by
  obtain ⟨⟨rest, hrest, hunwritten⟩, hwindow⟩ := hinbound
  simp only [Prod.mk.injEq] at hstreams
  obtain ⟨hfrom, hto, hrecved⟩ := hstreams
  constructor
  · refine ⟨rest, ?_, ?_⟩
    · rw [hfrom, hto, hrest]
    · unfold ForwardState.Unwritten at hunwritten ⊢
      rw [htcpip]
      split at hunwritten
      all_goals grind
  · rw [hrecved, htcpip, hfrom, hwindow]

theorem unwritten_nextPbuf {state : ForwardState} {rest : Bytes} {more : List Bytes} {total : ℕ}
    (htcpip : state.tcpip = nextPbuf more total)
    (hrest : rest = more.flatten ∨ state.conn.alive = false) : state.Unwritten rest := by
  cases more with
  | nil => simpa [ForwardState.Unwritten, htcpip, nextPbuf] using hrest
  | cons data more => simpa [ForwardState.Unwritten, htcpip, nextPbuf] using hrest

/-- `c->host_fd` is cleared by the thread that gives the connection up. -/
theorem Owned.alive_of_hostFd (howned : Owned before) (hfd : before.conn.hostFd = false) :
    before.conn.alive = false := by
  refine howned.alive ?_
  have hheld := howned.held
  cases hhost : before.host
  all_goals simp_all [ForwardState.held, HostPoint.holds, HostPoint.closing]

theorem Owned.alive_of_fdOpen (howned : Owned before) (hclosed : before.fdOpen = false) :
    before.conn.alive = false := by
  refine howned.alive ?_
  have hheld := howned.held
  cases hhost : before.host
  all_goals simp_all [ForwardState.held, HostPoint.holds, HostPoint.closing]

theorem Inbound.window_tcpipGo (hinbound : Inbound before) {anything : Bool}
    (hgo : before.tcpipGo anything = some after) :
    after.recved + after.tcpip.owed = after.fromEsp.length := by
  have hwindow := hinbound.window
  unfold ForwardState.tcpipGo at hgo
  split at hgo
  all_goals cases hgo
  all_goals grind [TcpipPoint.owed, ForwardState.touch, ForwardState.store, owed_nextPbuf]

theorem Inbound.tcpipGo (hinbound : Inbound before) (howned : Owned before) {anything : Bool}
    (hgo : before.tcpipGo anything = some after) : Inbound after := by
  refine ⟨?_, hinbound.window_tcpipGo hgo⟩
  obtain ⟨⟨rest, hrest, hunwritten⟩, -⟩ := hinbound
  have halive := howned.alive_of_freed
  have hopen := howned.fdOpen_of_freed
  have hfd := howned.alive_of_hostFd
  unfold ForwardState.tcpipGo at hgo
  unfold ForwardState.Unwritten at hunwritten
  split at hgo
  all_goals cases hgo
  all_goals refine ⟨rest, hrest, ?_⟩
  all_goals try split_ifs
  all_goals first | refine unwritten_nextPbuf rfl ?_ | unfold ForwardState.Unwritten
  all_goals grind [ForwardState.touch, ForwardState.store, ForwardState.look]

theorem hostGo_beside (hgo : before.hostGo = some after) :
    after.tcpip = before.tcpip ∧
      (after.fromEsp, after.toHost, after.recved) = (before.fromEsp, before.toHost, before.recved) ∧
      (after.conn.alive = true → before.conn.alive = true) ∧
      (after.fdOpen = true → before.fdOpen = true) := by
  unfold ForwardState.hostGo at hgo
  split at hgo
  all_goals first | (split at hgo <;> cases hgo) | cases hgo
  all_goals simp

theorem Inbound.step {actor : Actor} (hinbound : Inbound before) (howned : Owned before)
    (hstep : Step before actor after) : Inbound after := by
  cases hstep with
  | host hgo =>
    obtain ⟨htcpip, hstreams, halive, hopen⟩ := hostGo_beside hgo
    exact hinbound.beside htcpip hstreams halive hopen
  | tcpip anything hgo => exact hinbound.tcpipGo howned hgo
  | recvError => exact hinbound
  | read | readInterrupted | readEnds | noSemaphore | writeRefused | writeQueued | closeRefused
  | closeQueued | doTcpWrite | doTcpWriteLate | closePcbCb =>
    exact hinbound.beside rfl rfl id id
  | recv chain hsome hidle =>
    obtain ⟨⟨rest, hrest, hunwritten⟩, hwindow⟩ := hinbound
    simp only [ForwardState.Unwritten, hidle] at hunwritten
    refine ⟨⟨rest ++ chain.flatten, by simp [hrest], unwritten_nextPbuf rfl ?_⟩, ?_⟩
    · exact hunwritten.imp (fun hnil ↦ by simp [hnil]) id
    · have hidle : before.tcpip.owed = 0 := by rw [hidle]; rfl
      rw [owed_nextPbuf, List.length_append, ← hwindow, hidle, Nat.add_zero]
  | recvFin hidle | fails hidle =>
    obtain ⟨⟨rest, hrest, hunwritten⟩, hwindow⟩ := hinbound
    simp only [ForwardState.Unwritten, hidle] at hunwritten
    refine ⟨⟨rest, hrest, hunwritten⟩, ?_⟩
    simp_all [TcpipPoint.owed]
  | @wrote data more total count hpoint hcount =>
    obtain ⟨⟨rest, hrest, hunwritten⟩, hwindow⟩ := hinbound
    simp only [ForwardState.Unwritten, hpoint] at hunwritten
    refine ⟨?_, ?_⟩
    · by_cases hopen : before.fdOpen = true
      · have hpending : rest = data ++ more.flatten := by simpa [hopen] using hunwritten
        refine ⟨data.drop count ++ more.flatten, ?_, .inl rfl⟩
        calc before.fromEsp = before.toHost ++ (data ++ more.flatten) := by rw [hrest, hpending]
          _ = before.toHost ++ data.take count ++ (data.drop count ++ more.flatten) := by
            rw [List.append_assoc, ← List.append_assoc (data.take count), List.take_append_drop]
          _ = _ := by rw [if_pos hopen]
      · refine ⟨rest, by rw [if_neg hopen]; exact hrest, .inr ?_⟩
        exact howned.alive_of_fdOpen (by simpa using hopen)
    · simp_all [TcpipPoint.owed, ForwardState.touch]
  | writeInterrupted hpoint =>
    obtain ⟨⟨rest, hrest, hunwritten⟩, hwindow⟩ := hinbound
    simp only [ForwardState.Unwritten, hpoint] at hunwritten
    refine ⟨⟨rest, hrest, ?_⟩, ?_⟩
    · exact hunwritten.imp id howned.alive_of_fdOpen
    · simp_all [TcpipPoint.owed, ForwardState.touch]
  | writeFails hpoint =>
    obtain ⟨⟨rest, hrest, hunwritten⟩, hwindow⟩ := hinbound
    refine ⟨⟨rest, hrest, trivial⟩, ?_⟩
    simp_all [TcpipPoint.owed, ForwardState.touch]

end Steps

/-! ### Both ways -/

/-- What holds of a connection in every order of steps. -/
structure Spliced (state : ForwardState) : Prop where
  sound : Sound state
  outbound : Outbound state
  inbound : Inbound state

theorem Spliced.initial : Spliced .initial := ⟨.initial, .initial, .initial⟩

theorem Spliced.step {before after : ForwardState} {actor : Actor} (hspliced : Spliced before)
    (hstep : Step before actor after) : Spliced after where
  sound := hspliced.sound.step hstep
  outbound := hspliced.outbound.step hspliced.sound hstep
  inbound := hspliced.inbound.step hspliced.sound.owned hstep

theorem spliced_of_reachable {state : ForwardState} (hreach : Reachable Step .initial state) :
    Spliced state :=
  hreach.invariant .initial fun _ _ _ hbefore hstep ↦ hbefore.step hstep

/-- What lwIP has taken for the ESP is what was read from the host, from the first byte on, without a
gap and without a repetition. At most one buffer is not sent, and nothing is read while one is. -/
theorem sent_to_esp_in_order {state : ForwardState} (hreach : Reachable Step .initial state) :
    ∃ rest, state.fromHost = state.toEsp ++ rest ∧ rest.length ≤ netdevBuf ∧
      (state.host = .reading → rest = []) := by
  obtain ⟨rest, hrest, hlength, hunsent⟩ := (spliced_of_reachable hreach).outbound
  refine ⟨rest, hrest, hlength, fun hreading ↦ ?_⟩
  simpa [ForwardState.Unsent, hreading] using hunsent

/-- Two bytes of the host have been handed to lwIP, and one of two bytes of the ESP written. -/
def busyState : ForwardState :=
  { ForwardState.initial with
    host := .returned [7, 8] 0 .ok
    tcpip := .recvFd [2] [] 2
    fromHost := [7, 8]
    toEsp := [7, 8]
    fromEsp := [1, 2]
    toHost := [1] }

theorem reachable_busyState : Reachable Step .initial busyState := by
  have hreading : Reachable Step .initial { ForwardState.initial with host := .reading } :=
    (((Reachable.refl _).tail (.host rfl)).tail (.host rfl)).tail (.host rfl)
  have hasked : Reachable Step .initial
      { ForwardState.initial with
        host := .waiting [7, 8] 0, fromHost := [7, 8], queue := [.doTcpWrite true [7, 8]] } :=
    ((((hreading.tail (.read [7, 8] rfl (by decide) (by decide))).tail (.host rfl)).tail
      (.host rfl)).tail (.host rfl)).tail (.writeQueued rfl)
  have hsent := hasked.tail (.doTcpWrite .ok rfl rfl rfl rfl)
  have hwriting : Reachable Step .initial
      { busyState with tcpip := .recvWrite [1, 2] [] 2, toHost := [] } :=
    ((hsent.tail (.recv [[1, 2]] (by decide) rfl rfl rfl)).tail (.tcpip true rfl)).tail
      (.tcpip true rfl)
  have hfew : 1 ≤ ([1, 2] : Bytes).length := by decide
  exact hwriting.tail (.wrote 1 rfl hfew)

theorem sent_to_esp_in_order_busy :
    ∃ rest, busyState.fromHost = busyState.toEsp ++ rest ∧ rest.length ≤ netdevBuf ∧
      (busyState.host = .reading → rest = []) :=
  sent_to_esp_in_order reachable_busyState

/-- What the host socket has taken is what the ESP sent, from the first byte on. Nothing is missing
between two callbacks while the connection is alive, and the receive window is given back in full
whether the bytes were written or not. This is about one connection, whose record is not handed to
another one once it has been freed. -/
theorem sent_to_host_in_order {state : ForwardState} (hreach : Reachable Step .initial state) :
    state.toHost <+: state.fromEsp ∧
      (state.tcpip = .idle → state.recved = state.fromEsp.length ∧
        (state.conn.alive = true → state.toHost = state.fromEsp)) := by
  obtain ⟨⟨rest, hrest, hunwritten⟩, hwindow⟩ := (spliced_of_reachable hreach).inbound
  refine ⟨⟨rest, hrest.symm⟩, fun hidle ↦ ?_⟩
  simp only [hidle, TcpipPoint.owed, Nat.add_zero] at hwindow
  refine ⟨hwindow, fun halive ↦ ?_⟩
  simp only [ForwardState.Unwritten, hidle, halive] at hunwritten
  simp_all

theorem sent_to_host_in_order_busy :
    busyState.toHost <+: busyState.fromEsp ∧
      (busyState.tcpip = .idle → busyState.recved = busyState.fromEsp.length ∧
        (busyState.conn.alive = true → busyState.toHost = busyState.fromEsp)) :=
  sent_to_host_in_order reachable_busyState

/-! ### After the connection is given up -/

/-- The steps the thread has left at a program point once the connection is not alive. -/
def HostPoint.stepsLeft : HostPoint → ℕ
  | .ended => 0
  | .freeConn => 1
  | .clearFd => 2
  | .closeFd => 3
  | .testFd => 4
  | .closePcb _ => 5
  | .clearPcb _ => 6
  | .takePcb => 7
  | .testPcb => 8
  | .clearAlive => 9
  | .loopAlive => 10
  | .chunkAlive _ _ | .failWrite _ _ => 11
  | .returned _ _ _ | .waiting _ _ | .reading => 12
  | .request _ _ _ | .loopPcb => 13
  | .chunkArg _ _ | .loopFd => 14
  | .chunkPcb _ _ => 15

/-- The number of times the thread may still return from `read` with bytes, once the connection is not
alive. -/
def HostPoint.readsLeft : HostPoint → ℕ
  | .reading | .loopPcb | .loopFd => 1
  | _ => 0

/-- The number of times it may still hand bytes to lwIP. -/
def HostPoint.writesLeft : HostPoint → ℕ
  | .waiting _ _ | .request _ _ _ | .chunkArg _ _ | .chunkPcb _ _ => 1
  | _ => 0

/-- What a step does to a connection that is not alive. -/
structure Winding (before : ForwardState) (actor : Actor) (after : ForwardState) : Prop where
  alive : after.conn.alive = false
  steps : after.host.stepsLeft + [actor].count .host ≤ before.host.stepsLeft
  reads : after.fromHost.length + netdevBuf * after.host.readsLeft ≤
    before.fromHost.length + netdevBuf * before.host.readsLeft
  writes : after.toEsp.length + netdevBuf * after.host.writesLeft ≤
    before.toEsp.length + netdevBuf * before.host.writesLeft

section Steps

variable {before after : ForwardState}

theorem winding_hostGo (halive : before.conn.alive = false) (hgo : before.hostGo = some after) :
    Winding before .host after := by
  unfold ForwardState.hostGo at hgo
  split at hgo
  all_goals first | (split at hgo <;> cases hgo) | cases hgo
  all_goals constructor
  all_goals simp_all [HostPoint.stepsLeft, HostPoint.readsLeft, HostPoint.writesLeft]

/-- A chunk is no longer than the buffer it is taken from. -/
theorem Outbound.length_chunkBytes (houtbound : Outbound before) {buf : Bytes} {off : UInt16}
    (hhost : before.host = .waiting buf off) : (chunkBytes buf off).length ≤ netdevBuf := by
  obtain ⟨rest, -, -, hunsent⟩ := houtbound
  simp only [ForwardState.Unsent, hhost] at hunsent
  calc (chunkBytes buf off).length ≤ buf.length := by
        rw [chunkBytes, List.length_take, List.length_drop]
        omega
    _ ≤ netdevBuf := hunsent.1

theorem winding_step {actor : Actor} (hspliced : Spliced before) (halive : before.conn.alive = false)
    (hstep : Step before actor after) : Winding before actor after := by
  cases hstep with
  | host hgo => exact winding_hostGo halive hgo
  | tcpip anything hgo =>
    have hbeside := beside_tcpipGo hgo
    obtain ⟨hfrom, hto⟩ := Prod.mk.inj hbeside.outbound
    constructor
    · exact Bool.eq_false_iff.mpr fun hafter ↦ by simp [hbeside.alive hafter] at halive
    · simp [hbeside.host]
    · simp [hbeside.host, hfrom]
    · simp [hbeside.host, hto]
  | recvError | recv | recvFin | fails | wrote | writeInterrupted | writeFails | closePcbCb =>
    constructor
    all_goals simp [ForwardState.touch, halive]
  | read data hpoint hsome hfits =>
    constructor
    all_goals simp_all [HostPoint.stepsLeft, HostPoint.readsLeft, HostPoint.writesLeft]
  | readInterrupted hpoint | readEnds hpoint | noSemaphore hpoint | writeRefused hpoint
  | writeQueued hpoint | closeRefused hpoint | closeQueued hpoint =>
    constructor
    all_goals simp_all [HostPoint.stepsLeft, HostPoint.readsLeft, HostPoint.writesLeft]
  | doTcpWrite err hidle hqueue hhost =>
    have hlength := hspliced.outbound.length_chunkBytes hhost
    obtain ⟨pcb, hone⟩ := hspliced.sound.queued.writes _ _ hhost
    rw [hqueue] at hone
    simp only [List.cons.injEq, Callback.doTcpWrite.injEq] at hone
    constructor
    all_goals simp_all [HostPoint.stepsLeft, HostPoint.readsLeft, HostPoint.writesLeft]
    split_ifs <;> simp_all
  | doTcpWriteLate err hidle hqueue hhost =>
    constructor
    all_goals simp_all [HostPoint.stepsLeft, HostPoint.readsLeft, HostPoint.writesLeft]

end Steps

/-- The steps of a run that starts when the connection is not alive any more add up. -/
theorem winding_run {start finish : ForwardState} {actors : List Actor} (hspliced : Spliced start)
    (halive : start.conn.alive = false) (hrun : Run Step start actors finish) :
    Spliced finish ∧ finish.conn.alive = false ∧
      finish.host.stepsLeft + actors.count .host ≤ start.host.stepsLeft ∧
      finish.fromHost.length + netdevBuf * finish.host.readsLeft ≤
        start.fromHost.length + netdevBuf * start.host.readsLeft ∧
      finish.toEsp.length + netdevBuf * finish.host.writesLeft ≤
        start.toEsp.length + netdevBuf * start.host.writesLeft := by
  induction hrun with
  | refl => exact ⟨hspliced, halive, by simp⟩
  | tail hrun hstep ih =>
    obtain ⟨hbefore, hdead, hsteps, hreads, hwrites⟩ := ih
    have hwinding := winding_step hbefore hdead hstep
    refine ⟨hbefore.step hstep, hwinding.alive, ?_, ?_, ?_⟩
    · have hstepped := hwinding.steps
      rw [List.count_append]
      omega
    · exact Nat.le_trans hwinding.reads hreads
    · exact Nat.le_trans hwinding.writes hwrites

theorem hostGo_streams {before after : ForwardState} (hgo : before.hostGo = some after) :
    after.fromHost = before.fromHost ∧ after.toEsp = before.toEsp := by
  unfold ForwardState.hostGo at hgo
  split at hgo
  all_goals first | (split at hgo <;> cases hgo) | cases hgo
  all_goals exact ⟨rfl, rfl⟩

/-- Unless it has ended, the thread has a step to make or waits for one of the other side. -/
theorem host_progress {state : ForwardState} (hspliced : Spliced state) :
    state.host = .ended ∨ state.host = .reading ∨
      (∃ pcb data, state.queue = [.doTcpWrite pcb data]) ∨ ∃ later, Step state .host later := by
  cases hhost : state.host with
  | ended => exact .inl rfl
  | reading => exact .inr (.inl rfl)
  | waiting buf off =>
    obtain ⟨pcb, hqueue⟩ := hspliced.sound.queued.writes buf off hhost
    exact .inr (.inr (.inl ⟨pcb, _, hqueue⟩))
  | request buf off pcb => exact .inr (.inr (.inr ⟨_, .writeQueued hhost⟩))
  | closePcb pcb => exact .inr (.inr (.inr ⟨_, .closeQueued hhost⟩))
  | returned buf off err =>
    refine .inr (.inr (.inr ?_))
    cases err <;> exact ⟨_, .host (by simp only [ForwardState.hostGo, hhost]; rfl)⟩
  | _ => exact .inr (.inr (.inr ⟨_, .host (by simp only [ForwardState.hostGo, hhost]; rfl)⟩))

/-- The streams of the thread only grow. -/
theorem streams_grow {start finish : ForwardState} {actors : List Actor}
    (hrun : Run Step start actors finish) :
    start.fromHost <+: finish.fromHost ∧ start.toEsp <+: finish.toEsp := by
  induction hrun with
  | refl => exact ⟨List.prefix_rfl, List.prefix_rfl⟩
  | tail hrun hstep ih =>
    obtain ⟨hfrom, hto⟩ := ih
    cases hstep with
    | host hgo =>
      obtain ⟨hread, hsent⟩ := hostGo_streams hgo
      exact ⟨hread ▸ hfrom, hsent ▸ hto⟩
    | tcpip anything hgo =>
      obtain ⟨hread, hsent⟩ := Prod.mk.inj (beside_tcpipGo hgo).outbound
      exact ⟨hread ▸ hfrom, hsent ▸ hto⟩
    | read => exact ⟨hfrom.trans (List.prefix_append _ _), hto⟩
    | doTcpWrite err =>
      refine ⟨hfrom, ?_⟩
      cases err with
      | ok => exact hto.trans (List.prefix_append _ _)
      | mem | other => exact hto
    | _ => exact ⟨hfrom, hto⟩

/-- Once a connection is not alive any more (the ESP has ended its stream, one side has failed, or the
host has ended its own), the thread makes at most 15 more steps, in which it either reads one buffer
more or hands lwIP one more, never both: what the host still has to say is cut off. Unless it has
ended, it can go on, waits in `read`, or waits for the callback it has queued. -/
theorem cut_off_when_not_alive {start finish : ForwardState} {actors : List Actor}
    (hreach : Reachable Step .initial start) (halive : start.conn.alive = false)
    (hrun : Run Step start actors finish) :
    actors.count .host ≤ 15 ∧
      (finish.fromHost = start.fromHost ∨ finish.toEsp = start.toEsp) ∧
      finish.fromHost.length ≤ start.fromHost.length + netdevBuf ∧
      finish.toEsp.length ≤ start.toEsp.length + netdevBuf ∧
      (finish.host = .ended ∨ finish.host = .reading ∨
        (∃ pcb data, finish.queue = [.doTcpWrite pcb data]) ∨
        ∃ later, Step finish .host later) := by
  have hspliced := spliced_of_reachable hreach
  obtain ⟨hfinish, hdead, hsteps, hreads, hwrites⟩ := winding_run hspliced halive hrun
  obtain ⟨hfrom, hto⟩ := streams_grow hrun
  refine ⟨?_, ?_, ?_, ?_, ?_⟩
  · have hbound : start.host.stepsLeft ≤ 15 := by
      cases start.host <;> simp [HostPoint.stepsLeft]
    omega
  · have hone : start.host.readsLeft = 0 ∨ start.host.writesLeft = 0 := by
      cases start.host <;> simp [HostPoint.readsLeft, HostPoint.writesLeft]
    rcases hone with hnone | hnone
    · exact .inl (hfrom.eq_of_length_le (by rw [hnone] at hreads; omega)).symm
    · exact .inr (hto.eq_of_length_le (by rw [hnone] at hwrites; omega)).symm
  · have hbound : start.host.readsLeft ≤ 1 := by
      cases start.host <;> simp [HostPoint.readsLeft]
    have hscaled := Nat.mul_le_mul_left netdevBuf hbound
    omega
  · have hbound : start.host.writesLeft ≤ 1 := by
      cases start.host <;> simp [HostPoint.writesLeft]
    have hscaled := Nat.mul_le_mul_left netdevBuf hbound
    omega
  · exact host_progress hfinish

/-- The ESP has ended its stream. -/
def finishedState : ForwardState :=
  { ForwardState.initial with conn := ⟨true, true, false⟩, finished := true }

theorem reachable_finishedState : Reachable Step .initial finishedState :=
  ((((Reachable.refl _).tail (.recvFin rfl rfl rfl)).tail (.tcpip true rfl)).tail
    (.tcpip true rfl)).tail (.tcpip true rfl)

/-- The thread has ended, and the callback that closes the pcb has not run yet. -/
def endedState : ForwardState :=
  { finishedState with
    conn := ⟨false, false, false⟩
    host := .ended
    queue := [.closePcbCb true]
    fdOpen := false
    fdCloses := 1
    pcbCloses := 1
    frees := 1 }

theorem run_endedState : Run Step finishedState (List.replicate 10 .host) endedState := by
  have hclosing : Run Step finishedState (List.replicate 5 .host)
      { finishedState with host := .closePcb true, conn := ⟨false, true, false⟩ } :=
    ((((Run.refl.tail (.host rfl)).tail (.host rfl)).tail (.host rfl)).tail (.host rfl)).tail
      (.host rfl)
  exact ((((hclosing.tail (.closeQueued rfl)).tail (.host rfl)).tail (.host rfl)).tail
    (.host rfl)).tail (.host rfl)

theorem cut_off_when_not_alive_finished :
    (List.replicate 10 Actor.host).count .host ≤ 15 ∧
      (endedState.fromHost = finishedState.fromHost ∨ endedState.toEsp = finishedState.toEsp) ∧
      endedState.fromHost.length ≤ finishedState.fromHost.length + netdevBuf ∧
      endedState.toEsp.length ≤ finishedState.toEsp.length + netdevBuf ∧
      (endedState.host = .ended ∨ endedState.host = .reading ∨
        (∃ pcb data, endedState.queue = [.doTcpWrite pcb data]) ∨
        ∃ later, Step endedState .host later) :=
  cut_off_when_not_alive reachable_finishedState rfl run_endedState

/-! ### What is released -/

/-- The pcb is given up once, or was freed by lwIP before. -/
structure Released (state : ForwardState) : Prop where
  before : state.host.pcbReleased = false → state.pcbCloses + state.closesRefused = 0
  after : state.host.pcbReleased = true → state.pcbCloses + state.closesRefused = 1 ∨
    state.pcbCloses + state.closesRefused = 0 ∧ state.pcb = .failed
  /-- A `NULL` was stored by `netdev_err`. -/
  taken : state.host = .clearPcb false ∨ state.host = .closePcb false → state.pcb = .failed
  queued : state.queue = [.closePcbCb false] → state.pcb = .failed
  done : state.pcbCloses = 1 → state.queue = [] → state.pcb ≠ .serving

section Steps

variable {before after : ForwardState}

theorem Released.initial : Released .initial := by
  constructor <;> simp [ForwardState.initial, HostPoint.pcbReleased]

theorem Released.hostGo (hreleased : Released before) (hserved : Served before)
    (hgo : before.hostGo = some after) : Released after := by
  obtain ⟨hbefore, hafter, htaken, hqueued, hdone⟩ := hreleased
  have hcleared := hserved.cleared
  unfold ForwardState.hostGo at hgo
  split at hgo
  all_goals first | (split at hgo <;> cases hgo) | cases hgo
  all_goals constructor
  all_goals try assumption
  all_goals simp_all [HostPoint.pcbReleased, HostPoint.pcbCleared]

theorem Released.step {actor : Actor} (hreleased : Released before) (hsound : Sound before)
    (hstep : Step before actor after) : Released after := by
  obtain ⟨hbefore, hafter, htaken, hqueued, hdone⟩ := id hreleased
  cases hstep with
  | host hgo => exact hreleased.hostGo hsound.served hgo
  | tcpip anything hgo =>
    have hbeside := beside_tcpipGo hgo
    obtain ⟨hcloses, hrefused⟩ := Prod.mk.inj hbeside.counts
    constructor
    all_goals simpa only [hbeside.pcb, hbeside.host, hbeside.queue, hcloses, hrefused]
  | recvError => exact hreleased
  | recv | recvFin | wrote | writeInterrupted | writeFails =>
    exact ⟨hbefore, hafter, htaken, hqueued, hdone⟩
  | fails => constructor <;> grind
  | read _ hpoint | readInterrupted hpoint | readEnds hpoint | noSemaphore hpoint
  | writeRefused hpoint | writeQueued hpoint | closeRefused hpoint | closeQueued hpoint =>
    have hquiet := hsound.queued.quiet
    constructor
    all_goals try assumption
    all_goals simp_all [HostPoint.pcbReleased]
  | doTcpWrite _ _ hqueue hhost | doTcpWriteLate _ _ hqueue hhost =>
    obtain ⟨pcb, hone⟩ := hsound.queued.writes _ _ hhost
    constructor
    all_goals simp_all [HostPoint.pcbReleased]
  | closePcbCb hidle hqueue =>
    have hclosed := hsound.queued.released_of_closePcbCb hqueue
    have hcloses := hsound.queued.closes hclosed
    constructor
    all_goals try assumption
    all_goals grind

end Steps

theorem releasing_of_reachable {state : ForwardState} (hreach : Reachable Step .initial state) :
    Sound state ∧ Released state := by
  obtain ⟨actors, hrun⟩ := hreach
  induction hrun with
  | refl => exact ⟨.initial, .initial⟩
  | tail hrun hstep ih => exact ⟨ih.1.step hstep, ih.2.step ih.1 hstep⟩

/-- Whatever the order of steps, the socket is closed, the record freed and the pcb given to
`close_pcb_cb` at most once. When the thread has ended the first two have happened, and the pcb is
not served any more once the queue has been worked off, unless `tcpip_callback` refused to close it.
This is about one connection, whose record is not handed to another one once it has been freed. -/
theorem released_once {state : ForwardState} (hreach : Reachable Step .initial state) :
    state.fdCloses ≤ 1 ∧ state.frees ≤ 1 ∧ state.pcbCloses ≤ 1 ∧
      (state.host = .ended →
        state.fdCloses = 1 ∧ state.frees = 1 ∧ state.fdOpen = false ∧
        (state.queue = [] → state.closesRefused = 0 → state.pcb ≠ .serving)) := by
  have hsound := (spliced_of_reachable hreach).sound
  have hreleased : Released state := (releasing_of_reachable hreach).2
  have hheld := hsound.owned.held
  refine ⟨?_, ?_, ?_, fun hended ↦ ?_⟩
  · cases hhost : state.host
    all_goals simp_all [ForwardState.held, HostPoint.holds]
  · cases hhost : state.host
    all_goals simp_all [ForwardState.held, HostPoint.holds]
  · by_cases hafter : state.host.pcbReleased = true
    · rcases hreleased.after hafter with hone | ⟨hnone, -⟩ <;> omega
    · have hnone := hreleased.before (by simpa using hafter)
      omega
  · rw [hended] at hheld
    simp only [ForwardState.held, HostPoint.holds, Prod.mk.injEq] at hheld
    refine ⟨hheld.2.2.1, hheld.2.2.2, hheld.2.1, fun hnil hnone ↦ ?_⟩
    rcases hreleased.after (by rw [hended]; rfl) with hone | ⟨-, hfailed⟩
    · exact hreleased.done (by omega) hnil
    · simp [hfailed]

theorem reachable_endedState : Reachable Step .initial endedState :=
  reachable_finishedState.run run_endedState

theorem released_once_ended :
    endedState.fdCloses ≤ 1 ∧ endedState.frees ≤ 1 ∧ endedState.pcbCloses ≤ 1 ∧
      (endedState.host = .ended →
        endedState.fdCloses = 1 ∧ endedState.frees = 1 ∧ endedState.fdOpen = false ∧
        (endedState.queue = [] → endedState.closesRefused = 0 → endedState.pcb ≠ .serving)) :=
  released_once reachable_endedState

/-! ### A record that has been freed -/

/-- `netdev_recv` comes to its end or touches the record. -/
theorem recv_ends_or_touches {start state : ForwardState} (more : List Bytes) (total : ℕ)
    (hreach : Reachable Step start state) (hfreed : state.freed = true)
    (hserving : state.pcb = .serving) (hpoint : state.tcpip = nextPbuf more total) :
    ∃ later, Reachable Step start later ∧
      (later.touched = true ∨ later.freed = true ∧ later.pcb = .serving ∧ later.tcpip = .idle) := by
  induction more generalizing state with
  | nil =>
    have hgo : state.tcpipGo false =
        some { state with recved := state.recved + total, tcpip := .idle } := by
      simp [ForwardState.tcpipGo, hpoint, nextPbuf]
    exact ⟨_, hreach.tail (.tcpip false hgo), .inr ⟨hfreed, hserving, rfl⟩⟩
  | cons data more ih =>
    cases data with
    | nil =>
      have hgo : state.tcpipGo false = some { state with tcpip := nextPbuf more total } := by
        simp [ForwardState.tcpipGo, hpoint, nextPbuf]
      exact ih (hreach.tail (.tcpip false hgo)) hfreed hserving rfl
    | cons byte data =>
      have hgo : state.tcpipGo false =
          some { state.touch with tcpip := nextPbuf more total } := by
        simp [ForwardState.tcpipGo, hpoint, nextPbuf, ForwardState.look, hfreed]
      exact ⟨_, hreach.tail (.tcpip false hgo), .inl (by simp [ForwardState.touch, hfreed])⟩

/-- In `netdev_err` the next step touches the record. -/
theorem failing_touches {state : ForwardState} (hfreed : state.freed = true)
    (hfailing : state.tcpip.failing = true) :
    ∃ later, Step state .tcpip later ∧ later.touched = true := by
  cases hpoint : state.tcpip
  all_goals first
    | simp [hpoint, TcpipPoint.failing] at hfailing; done
    | exact ⟨_, .tcpip false (by simp only [ForwardState.tcpipGo, hpoint]; rfl),
        by simp [ForwardState.store, ForwardState.touch, hfreed]⟩

/-- A freed record of a pcb that lwIP serves can be touched, in the callback that is running or in the
next one. -/
theorem serving_touches {state : ForwardState} (hserved : Served state) (hfreed : state.freed = true)
    (hserving : state.pcb = .serving) :
    ∃ later, Reachable Step state later ∧ later.touched = true := by
  -- Between two callbacks lwIP may give the connection up.
  have hidle : ∀ {middle : ForwardState}, Reachable Step state middle → middle.freed = true →
      middle.pcb = .serving → middle.tcpip = .idle →
      ∃ later, Reachable Step state later ∧ later.touched = true := by
    intro middle hreach hfreed hserving hidle
    let failed : ForwardState := { middle with tcpip := .errPcb, pcb := .failed }
    have hstill : failed.freed = true := hfreed
    obtain ⟨later, hstep, htouched⟩ := failing_touches hstill rfl
    exact ⟨later, (hreach.tail (.fails hidle hserving)).tail hstep, htouched⟩
  have hrecv : ∀ more total, state.tcpip = nextPbuf more total →
      ∃ later, Reachable Step state later ∧ later.touched = true := by
    intro more total hpoint
    obtain ⟨later, hreach, htouched | ⟨hfreed, hserving, hends⟩⟩ :=
      recv_ends_or_touches more total (.refl state) hfreed hserving hpoint
    · exact ⟨later, hreach, htouched⟩
    · exact hidle hreach hfreed hserving hends
  cases hpoint : state.tcpip with
  | idle => exact hidle (.refl state) hfreed hserving hpoint
  | recved total => exact hrecv [] total hpoint
  | recvFd data more total => exact hrecv (data :: more) total hpoint
  | recvWrite data more total =>
    exact ⟨_, (Reachable.refl state).tail (.writeFails hpoint), by simp [ForwardState.touch, hfreed]⟩
  | errPcb | errAlive | errFd | errShutdown =>
    have hfailed := hserved.failing (by rw [hpoint]; rfl)
    simp [hserving] at hfailed
  | _ =>
    exact ⟨_, (Reachable.refl state).tail
        (.tcpip false (by simp only [ForwardState.tcpipGo, hpoint]; rfl)),
      by simp [ForwardState.store, ForwardState.touch, hfreed]⟩

/-- A freed record nobody will come back to. -/
structure Forgotten (state : ForwardState) : Prop where
  ended : state.host = .ended
  gone : state.pcb ≠ .serving
  idle : state.tcpip = .idle
  untouched : state.touched = false

theorem Forgotten.step {before after : ForwardState} {actor : Actor} (hforgotten : Forgotten before)
    (hstep : Step before actor after) : Forgotten after := by
  obtain ⟨hended, hgone, hidle, huntouched⟩ := id hforgotten
  cases hstep with
  | host hgo => simp [ForwardState.hostGo, hended] at hgo
  | tcpip anything hgo => simp [ForwardState.tcpipGo, hidle] at hgo
  | closePcbCb =>
    refine ⟨hended, ?_, hidle, huntouched⟩
    simp [hgone]
  | _ => simp_all

/-- After the thread has freed the record, the tcpip thread can still come to touch it exactly if lwIP
serves the pcb, `close_pcb_cb` having been refused or not having run yet, or is in `netdev_err`. -/
theorem freed_record_touched_iff {state : ForwardState} (hreach : Reachable Step .initial state)
    (hfreed : 0 < state.frees) (huntouched : state.touched = false) :
    (∃ later, Reachable Step state later ∧ later.touched = true) ↔
      state.pcb = .serving ∨ state.tcpip.failing = true := by
  have hsound := (spliced_of_reachable hreach).sound
  have hfreed : state.freed = true := by simpa [ForwardState.freed] using hfreed
  constructor
  · rintro ⟨later, hlater, htouched⟩
    by_contra hnot
    obtain ⟨hgone, hcalm⟩ := not_or.mp hnot
    have hidle : state.tcpip = .idle := by
      cases hpoint : state.tcpip with
      | idle => rfl
      | errPcb | errAlive | errFd | errShutdown => simp [hpoint, TcpipPoint.failing] at hcalm
      | _ => exact absurd (hsound.served.receiving (by rw [hpoint]; rfl)) hgone
    have hforgotten : Forgotten later :=
      hlater.invariant ⟨hsound.owned.ended_of_freed hfreed, hgone, hidle, huntouched⟩
        fun _ _ _ hbefore hstep ↦ hbefore.step hstep
    simp [hforgotten.untouched] at htouched
  · rintro (hserving | hfailing)
    · exact serving_touches hsound.served hfreed hserving
    · obtain ⟨later, hstep, htouched⟩ := failing_touches hfreed hfailing
      exact ⟨later, (Reachable.refl state).tail hstep, htouched⟩

theorem freed_record_touched_iff_ended :
    (∃ later, Reachable Step endedState later ∧ later.touched = true) ↔
      endedState.pcb = .serving ∨ endedState.tcpip.failing = true :=
  freed_record_touched_iff reachable_endedState (by decide) rfl

end ZigbeeRemote.Client.NetdevForward
