import ZigbeeRemote.Foundation.StreamProgram
import ZigbeeRemote.Foundation.TransitionSystem
import Mathlib.Data.List.Infix

/-!
# Two programs over one connection

A `Thread` is a program in execution, with the state of its machine and the marks it has left. A
`Move` is one step of it as the other side can see it: a step of its own, one read of a non-empty
run of bytes no longer than what its buffer still lacks, one write of a non-empty part of what is
left of its buffer, a system call that was interrupted and is tried again, or one that failed. A
read or write replaces the node by what is left of its loop, so `Thread.Step` is one pass of the
loop.

`Ran` collects the bytes a thread has read and written along a run without failures. Whatever the
sizes of the single reads and writes were, the reaction of the thread it started from to the bytes
read so far followed by more is what it has done so far followed by its reaction to the rest
(`Ran.reacts`, `Ran.reacts_rest`).

A `Connection` is a client and a server with one first-in first-out channel in each direction. Its
steps interleave the two sides in every order; a side whose program has ended may close, and calls
of the other side may fail from then on. `Connection.histories` relates every state with both ends
open to the two sides' own histories: what one side has written is what the other has read followed
by what is in the channel. All reasoning about interleavings rests on that one result.

Two consequences are used throughout. In a deadlock each side has reacted to all that the other has
written and waits (`Connection.Deadlocked.behaviours`). And two programs that would answer each
other are `Matched`: along every run each of them reads a prefix of what the other writes in all,
and there are only so many steps that do anything (`Connection.lockstep`).

`Thread.next` and `Connection.next` compute a step, so that a concrete run can be executed.
-/

set_option autoImplicit false
set_option relaxedAutoImplicit false

namespace ZigbeeRemote.Foundation

/-! ### A program in execution -/

section Thread

variable {σ ε α : Type}

/-- A program in execution: what is left of it, the state of its machine, the marks it has left. -/
structure Thread (σ ε α : Type) where
  prog : Prog σ ε α
  state : σ
  marks : List ε

/-- One step of a thread, as seen from the stream. -/
inductive Move : Type
  | internal
  | reads (bytes : Bytes)
  | writes (bytes : Bytes)
  | interrupted
  | readFails
  | writeFails
  deriving DecidableEq

namespace Move

/-- The bytes a move takes from the stream. -/
def input : Move → Bytes
  | .reads bytes => bytes
  | _ => []

/-- The bytes a move puts on the stream. -/
def output : Move → Bytes
  | .writes bytes => bytes
  | _ => []

/-- The number of nodes a move passes. -/
def cost : Move → ℕ
  | .internal => 1
  | _ => 0

/-- A system call that failed for another reason than an interruption. -/
def fails : Move → Bool
  | .readFails => true
  | .writeFails => true
  | _ => false

/-- A move after which less remains to be done. -/
def productive : Move → Bool
  | .internal => true
  | .reads _ => true
  | .writes _ => true
  | _ => false

end Move

/-- One step of a thread. The read and write steps are one pass of a loop that reads or writes until
its buffer is done with. -/
inductive Thread.Step (restart : α → Option (Prog σ ε α)) :
    Thread σ ε α → Move → Thread σ ε α → Prop
  | filled {next : Option Bytes → Prog σ ε α} {state : σ} {marks : List ε} :
      Step restart ⟨.recv 0 next, state, marks⟩ .internal ⟨next (some []), state, marks⟩
  | reads {size : ℕ} {next : Option Bytes → Prog σ ε α} {state : σ} {marks : List ε}
      {bytes : Bytes} (hsome : bytes ≠ []) (hfits : bytes.length ≤ size) :
      Step restart ⟨.recv size next, state, marks⟩ (.reads bytes)
        ⟨.recv (size - bytes.length) fun more ↦ next (more.map (bytes ++ ·)), state, marks⟩
  | readFails {size : ℕ} {next : Option Bytes → Prog σ ε α} {state : σ} {marks : List ε}
      (hsize : 0 < size) :
      Step restart ⟨.recv size next, state, marks⟩ .readFails ⟨next none, state, marks⟩
  | readInterrupted {size : ℕ} {next : Option Bytes → Prog σ ε α} {state : σ} {marks : List ε}
      (hsize : 0 < size) :
      Step restart ⟨.recv size next, state, marks⟩ .interrupted ⟨.recv size next, state, marks⟩
  | written {next : Bool → Prog σ ε α} {state : σ} {marks : List ε} :
      Step restart ⟨.send [] next, state, marks⟩ .internal ⟨next true, state, marks⟩
  | writes {first rest : Bytes} {next : Bool → Prog σ ε α} {state : σ} {marks : List ε}
      (hsome : first ≠ []) :
      Step restart ⟨.send (first ++ rest) next, state, marks⟩ (.writes first)
        ⟨.send rest next, state, marks⟩
  | writeFails {bytes : Bytes} {next : Bool → Prog σ ε α} {state : σ} {marks : List ε}
      (hsome : bytes ≠ []) :
      Step restart ⟨.send bytes next, state, marks⟩ .writeFails ⟨next false, state, marks⟩
  | writeInterrupted {bytes : Bytes} {next : Bool → Prog σ ε α} {state : σ} {marks : List ε}
      (hsome : bytes ≠ []) :
      Step restart ⟨.send bytes next, state, marks⟩ .interrupted ⟨.send bytes next, state, marks⟩
  | query {update : σ → σ} {next : σ → Prog σ ε α} {state : σ} {marks : List ε} :
      Step restart ⟨.query update next, state, marks⟩ .internal ⟨next state, update state, marks⟩
  | note {mark : ε} {next : Prog σ ε α} {state : σ} {marks : List ε} :
      Step restart ⟨.note mark next, state, marks⟩ .internal ⟨next, state, marks ++ [mark]⟩
  | restart {value : α} {following : Prog σ ε α} {state : σ} {marks : List ε}
      (hrestart : restart value = some following) :
      Step restart ⟨.done value, state, marks⟩ .internal ⟨following, state, marks⟩

/-- The steps of a thread as a function, to compute runs with. -/
def Thread.next (restart : α → Option (Prog σ ε α)) (thread : Thread σ ε α) :
    Move → Option (Thread σ ε α)
  | .internal =>
    match thread.prog with
    | .done value => (restart value).map fun following ↦ { thread with prog := following }
    | .recv size next => if size = 0 then some { thread with prog := next (some []) } else none
    | .send bytes next => if bytes = [] then some { thread with prog := next true } else none
    | .query update next => some ⟨next thread.state, update thread.state, thread.marks⟩
    | .note mark next => some ⟨next, thread.state, thread.marks ++ [mark]⟩
  | .reads bytes =>
    match thread.prog with
    | .recv size next =>
      if bytes ≠ [] ∧ bytes.length ≤ size then
        some { thread with
          prog := .recv (size - bytes.length) fun more ↦ next (more.map (bytes ++ ·)) }
      else none
    | _ => none
  | .writes first =>
    match thread.prog with
    | .send bytes next =>
      if first ≠ [] ∧ first <+: bytes then
        some { thread with prog := .send (bytes.drop first.length) next }
      else none
    | _ => none
  | .interrupted =>
    match thread.prog with
    | .recv size _ => if 0 < size then some thread else none
    | .send bytes _ => if bytes ≠ [] then some thread else none
    | _ => none
  | .readFails =>
    match thread.prog with
    | .recv size next => if 0 < size then some { thread with prog := next none } else none
    | _ => none
  | .writeFails =>
    match thread.prog with
    | .send bytes next => if bytes ≠ [] then some { thread with prog := next false } else none
    | _ => none

theorem Thread.Step.of_next {restart : α → Option (Prog σ ε α)} {before after : Thread σ ε α}
    {move : Move} (hnext : before.next restart move = some after) :
    Thread.Step restart before move after := by
  obtain ⟨prog, state, marks⟩ := before
  cases move with
  | internal =>
    cases prog with
    | done value =>
      obtain ⟨following, hagain, rfl⟩ := Option.map_eq_some_iff.mp hnext
      exact .restart hagain
    | recv size next =>
      simp only [Thread.next] at hnext
      split_ifs at hnext with hsize
      subst hsize
      exact Option.some.inj hnext ▸ .filled
    | send bytes next =>
      simp only [Thread.next] at hnext
      split_ifs at hnext with hbytes
      subst hbytes
      exact Option.some.inj hnext ▸ .written
    | query update next => exact Option.some.inj hnext ▸ .query
    | note mark next => exact Option.some.inj hnext ▸ .note
  | reads bytes =>
    cases prog with
    | recv size next =>
      simp only [Thread.next] at hnext
      split_ifs at hnext with hready
      exact Option.some.inj hnext ▸ .reads hready.1 hready.2
    | _ => simp [Thread.next] at hnext
  | writes first =>
    cases prog with
    | send bytes next =>
      simp only [Thread.next] at hnext
      split_ifs at hnext with hready
      obtain ⟨hsome, rest, rfl⟩ := hready
      rw [List.drop_left] at hnext
      exact Option.some.inj hnext ▸ .writes hsome
    | _ => simp [Thread.next] at hnext
  | interrupted =>
    cases prog with
    | recv size next =>
      simp only [Thread.next] at hnext
      split_ifs at hnext with hsize
      exact Option.some.inj hnext ▸ .readInterrupted hsize
    | send bytes next =>
      simp only [Thread.next] at hnext
      split_ifs at hnext with hsome
      exact Option.some.inj hnext ▸ .writeInterrupted hsome
    | _ => simp [Thread.next] at hnext
  | readFails =>
    cases prog with
    | recv size next =>
      simp only [Thread.next] at hnext
      split_ifs at hnext with hsize
      exact Option.some.inj hnext ▸ .readFails hsize
    | _ => simp [Thread.next] at hnext
  | writeFails =>
    cases prog with
    | send bytes next =>
      simp only [Thread.next] at hnext
      split_ifs at hnext with hsome
      exact Option.some.inj hnext ▸ .writeFails hsome
    | _ => simp [Thread.next] at hnext

/-- A thread that waits in a read. -/
def Thread.Waits (thread : Thread σ ε α) : Prop :=
  ∃ size next, thread.prog = .recv (size + 1) next

/-- A productive step of an open thread consumes or produces a byte or passes a node. -/
theorem Thread.Step.productive_le {restart : α → Option (Prog σ ε α)} {before after : Thread σ ε α}
    {move : Move} (hstep : Thread.Step restart before move after) :
    [move].countP Move.productive ≤ move.cost + move.input.length + move.output.length := by
  cases hstep <;> simp_all [Move.productive, Move.cost, Move.input, Move.output,
    Nat.one_le_iff_ne_zero]

/-- A thread can move on its own unless it waits in a read or has ended for good. -/
theorem Thread.exists_step (restart : α → Option (Prog σ ε α)) (thread : Thread σ ε α) :
    (∃ move after, Thread.Step restart thread move after ∧ move.productive = true ∧
        move.input = []) ∨
      thread.Waits ∨ ∃ value, thread.prog = .done value ∧ restart value = none := by
  obtain ⟨prog, state, marks⟩ := thread
  cases prog with
  | done value =>
    cases hrestart : restart value with
    | none => exact Or.inr (Or.inr ⟨value, rfl, hrestart⟩)
    | some following => exact Or.inl ⟨_, _, .restart hrestart, rfl, rfl⟩
  | recv size next =>
    cases size with
    | zero => exact Or.inl ⟨_, _, .filled, rfl, rfl⟩
    | succ size => exact Or.inr (Or.inl ⟨size, next, rfl⟩)
  | send bytes next =>
    cases bytes with
    | nil => exact Or.inl ⟨_, _, .written, rfl, rfl⟩
    | cons byte rest =>
      have hwrites : Thread.Step restart ⟨.send ([byte] ++ rest) next, state, marks⟩ (.writes [byte])
          ⟨.send rest next, state, marks⟩ := .writes (List.cons_ne_nil byte [])
      exact Or.inl ⟨_, _, hwrites, rfl, rfl⟩
  | query update next => exact Or.inl ⟨_, _, .query, rfl, rfl⟩
  | note mark next => exact Or.inl ⟨_, _, .note, rfl, rfl⟩

end Thread

/-! ### The history of a thread -/

section History

variable {σ ε α : Type} {restart : α → Option (Prog σ ε α)}

/-- A behaviour that continues another one gives a reaction that continues the other's. -/
theorem Reacts.after_of_behave {eof : Bool} {program other : Prog σ ε α} {state otherState : σ}
    {input otherInput output : Bytes} {marks : List ε} {cost : ℕ} {behaviour : Behaviour σ ε α}
    (hbehave : behave eof program state input =
      (behave eof other otherState otherInput).after output marks cost)
    (hreacts : Reacts eof restart other otherState otherInput behaviour) :
    Reacts eof restart program state input (behaviour.after output marks cost) := by
  cases hreacts with
  | blocked hending => exact .of_blocked hbehave hending
  | stopped hending hrestart => exact .of_stopped hbehave hending hrestart
  | again hending hrestart hlater =>
    have hround := hbehave
    rw [Behaviour.after, hending] at hround
    have hagain := Reacts.of_again hround hrestart hlater
    simpa [Nat.add_assoc] using hagain

/-- A reaction to a behaviour that continues another one continues the other's reaction. -/
theorem Reacts.before_of_behave {eof : Bool} {program other : Prog σ ε α} {state otherState : σ}
    {input otherInput output : Bytes} {marks : List ε} {cost : ℕ} {behaviour : Behaviour σ ε α}
    (hbehave : behave eof program state input =
      (behave eof other otherState otherInput).after output marks cost)
    (hreacts : Reacts eof restart program state input behaviour) :
    ∃ later, Reacts eof restart other otherState otherInput later ∧
      behaviour = later.after output marks cost := by
  cases hending : (behave eof other otherState otherInput).ending with
  | blocked =>
    have hwhole : Reacts eof restart program state input _ := .of_blocked hbehave hending
    exact ⟨_, .blocked hending, hreacts.unique hwhole⟩
  | finished value rest =>
    have hround := hbehave
    rw [Behaviour.after, hending] at hround
    cases hrestart : restart value with
    | none =>
      have hwhole : Reacts eof restart program state input _ :=
        .of_stopped hbehave hending hrestart
      exact ⟨_, .stopped hending hrestart, hreacts.unique hwhole⟩
    | some following =>
      obtain ⟨later, hlater, rfl⟩ := hreacts.later hround hrestart
      exact ⟨_, .again hending hrestart hlater, by simp [Nat.add_assoc]⟩

/-- The behaviour of a waiting thread does not depend on how its bytes arrive. -/
theorem behave_recv_split {size : ℕ} (next : Option Bytes → Prog σ ε α) (state : σ)
    {bytes : Bytes} (hfits : bytes.length ≤ size) (rest : Bytes) :
    behave false (.recv size next) state (bytes ++ rest) =
      behave false (.recv (size - bytes.length) fun more ↦ next (more.map (bytes ++ ·)))
        state rest := by
  have hcompare : size ≤ (bytes ++ rest).length ↔ size - bytes.length ≤ rest.length := by
    rw [List.length_append]
    omega
  simp only [behave, hcompare, Option.map_some, List.take_append, List.drop_append,
    List.take_of_length_le hfits, List.drop_of_length_le hfits, List.nil_append]
  split_ifs <;> rfl

/-- What a thread does on the bytes a move takes and more is what the move does followed by what it
does on the rest. Assumes: a step that is neither a failed system call nor a new round. -/
theorem Thread.Step.behave {before after : Thread σ ε α} {move : Move}
    (hstep : Thread.Step restart before move after) (hfails : move.fails = false)
    (hround : ∀ value, before.prog ≠ .done value) (rest : Bytes) :
    ∃ marks, after.marks = before.marks ++ marks ∧
      behave false before.prog before.state (move.input ++ rest) =
        (behave false after.prog after.state rest).after move.output marks move.cost := by
  cases hstep with
  | filled => exact ⟨[], by simp, by simp [Foundation.behave, Move.input, Move.output, Move.cost]⟩
  | reads hsome hfits =>
    refine ⟨[], by simp, ?_⟩
    simp [Move.input, Move.output, Move.cost, behave_recv_split _ _ hfits rest]
  | readFails hsize => simp [Move.fails] at hfails
  | readInterrupted hsize => exact ⟨[], by simp, by simp [Move.input, Move.output, Move.cost]⟩
  | written => exact ⟨[], by simp, by simp [Move.input, Move.output, Move.cost]⟩
  | writes hsome => exact ⟨[], by simp, by simp [Move.input, Move.output, Move.cost]⟩
  | writeFails hsome => simp [Move.fails] at hfails
  | writeInterrupted hsome => exact ⟨[], by simp, by simp [Move.input, Move.output, Move.cost]⟩
  | query => exact ⟨[], by simp, by simp [Move.input, Move.output, Move.cost]⟩
  | @note mark => exact ⟨[mark], rfl, by simp [Move.input, Move.output, Move.cost]⟩
  | @restart value => exact absurd rfl (hround value)

/-- The reaction of a thread to the bytes a move takes and more is what the move does followed by
its reaction to the rest. Assumes: a step that is not a failed system call. -/
theorem Thread.Step.reacts {before after : Thread σ ε α} {move : Move}
    (hstep : Thread.Step restart before move after) (hfails : move.fails = false) {rest : Bytes}
    {behaviour : Behaviour σ ε α}
    (hreacts : Reacts false restart after.prog after.state rest behaviour) :
    ∃ marks, after.marks = before.marks ++ marks ∧
      Reacts false restart before.prog before.state (move.input ++ rest)
        (behaviour.after move.output marks move.cost) := by
  by_cases hround : ∃ value, before.prog = .done value
  · obtain ⟨value, hvalue⟩ := hround
    cases hstep with
    | @restart value' following state marks hrestart =>
      exact ⟨[], by simp, .of_again (behave_done false state value' rest) hrestart hreacts⟩
    | _ => simp at hvalue
  · obtain ⟨marks, hmarks, hbehave⟩ := hstep.behave hfails (fun value h ↦ hround ⟨value, h⟩) rest
    exact ⟨marks, hmarks, .after_of_behave hbehave hreacts⟩

/-- Conversely, whatever a thread's reaction to the bytes a move takes and more is, it starts with
what the move does. Assumes: a step that is not a failed system call. -/
theorem Thread.Step.reacts_rest {before after : Thread σ ε α} {move : Move}
    (hstep : Thread.Step restart before move after) (hfails : move.fails = false) {rest : Bytes}
    {behaviour : Behaviour σ ε α}
    (hreacts : Reacts false restart before.prog before.state (move.input ++ rest) behaviour) :
    ∃ marks later, after.marks = before.marks ++ marks ∧
      Reacts false restart after.prog after.state rest later ∧
        behaviour = later.after move.output marks move.cost := by
  by_cases hround : ∃ value, before.prog = .done value
  · obtain ⟨value, hvalue⟩ := hround
    cases hstep with
    | @restart value' following state marks hrestart =>
      obtain ⟨later, hlater, heq⟩ := hreacts.later (behave_done false state value' rest) hrestart
      exact ⟨[], later, by simp, hlater, heq⟩
    | _ => simp at hvalue
  · obtain ⟨marks, hmarks, hbehave⟩ := hstep.behave hfails (fun value h ↦ hround ⟨value, h⟩) rest
    obtain ⟨later, hlater, heq⟩ := Reacts.before_of_behave hbehave hreacts
    exact ⟨marks, later, hmarks, hlater, heq⟩

/-- A thread after a run without failures: the bytes it has read, the bytes it has written, and the
number of nodes it has passed. -/
inductive Ran (restart : α → Option (Prog σ ε α)) (start : Thread σ ε α) :
    Bytes → Bytes → ℕ → Thread σ ε α → Prop
  | refl : Ran restart start [] [] 0 start
  | step {input output : Bytes} {cost : ℕ} {before after : Thread σ ε α} {move : Move}
      (hran : Ran restart start input output cost before)
      (hstep : Thread.Step restart before move after) (hfails : move.fails = false) :
      Ran restart start (input ++ move.input) (output ++ move.output) (cost + move.cost) after

/-- A thread's reaction to what it has read and more is what it has done followed by its reaction
to the rest. -/
theorem Ran.reacts {start thread : Thread σ ε α} {input output : Bytes} {cost : ℕ}
    (hran : Ran restart start input output cost thread) {rest : Bytes}
    {behaviour : Behaviour σ ε α}
    (hreacts : Reacts false restart thread.prog thread.state rest behaviour) :
    ∃ marks, thread.marks = start.marks ++ marks ∧
      Reacts false restart start.prog start.state (input ++ rest)
        (behaviour.after output marks cost) := by
  induction hran generalizing rest behaviour with
  | refl => exact ⟨[], by simp, by simpa using hreacts⟩
  | step _ hstep hfails ih =>
    obtain ⟨later, hlater, hbefore⟩ := hstep.reacts hfails hreacts
    obtain ⟨marks, hmarks, hstart⟩ := ih hbefore
    refine ⟨marks ++ later, by rw [hlater, hmarks, List.append_assoc], ?_⟩
    simpa using hstart

/-- Conversely, a thread's reaction to what it has read and more starts with what it has done. -/
theorem Ran.reacts_rest {start thread : Thread σ ε α} {input output : Bytes} {cost : ℕ}
    (hran : Ran restart start input output cost thread) {rest : Bytes}
    {behaviour : Behaviour σ ε α}
    (hreacts : Reacts false restart start.prog start.state (input ++ rest) behaviour) :
    ∃ marks later, thread.marks = start.marks ++ marks ∧
      Reacts false restart thread.prog thread.state rest later ∧
        behaviour = later.after output marks cost := by
  induction hran generalizing rest behaviour with
  | refl => exact ⟨[], behaviour, by simp, by simpa using hreacts, by simp⟩
  | step _ hstep hfails ih =>
    rw [List.append_assoc] at hreacts
    obtain ⟨marks, middle, hmarks, hmiddle, rfl⟩ := ih hreacts
    obtain ⟨further, later, hfurther, hlater, rfl⟩ := hstep.reacts_rest hfails hmiddle
    refine ⟨marks ++ further, later, by rw [hfurther, hmarks, List.append_assoc], hlater, ?_⟩
    simp

/-- A thread that has read a prefix of an input has written a prefix of its output on it. -/
theorem Ran.output_prefix {start thread : Thread σ ε α} {input output whole : Bytes} {cost : ℕ}
    (hran : Ran restart start input output cost thread) {behaviour : Behaviour σ ε α}
    (hreacts : Reacts false restart start.prog start.state whole behaviour)
    (hinput : input <+: whole) : output <+: behaviour.output := by
  obtain ⟨rest, rfl⟩ := hinput
  obtain ⟨marks, later, -, -, rfl⟩ := hran.reacts_rest hreacts
  exact List.prefix_append _ _

end History

/-! ### Two threads and two channels -/

section Connection

variable {κ μ α σ ε β : Type}

/-- A client and a server, the bytes on their way in each direction, and which ends are open. -/
structure Connection (κ μ α σ ε β : Type) where
  client : Thread κ μ α
  server : Thread σ ε β
  toServer : Bytes
  toClient : Bytes
  clientOpen : Bool
  serverOpen : Bool

/-- What happens in one step of a connection. -/
inductive Happening : Type
  | client (move : Move)
  | server (move : Move)
  | clientCloses
  | serverCloses
  deriving DecidableEq

/-- A step after which less remains to be done. -/
def Happening.productive : Happening → Bool
  | .client move => move.productive
  | .server move => move.productive
  | _ => false

/-- How a move of one side changes the channel it reads from and the channel it writes to. Bytes are
read from the front of the incoming channel and appended to the outgoing one; calls fail only
after the peer has closed, and what is written then is lost. -/
def Carries (peerOpen : Bool) (incoming outgoing : Bytes) (move : Move)
    (incomingAfter outgoingAfter : Bytes) : Prop :=
  match move with
  | .internal => incomingAfter = incoming ∧ outgoingAfter = outgoing
  | .interrupted => incomingAfter = incoming ∧ outgoingAfter = outgoing
  | .reads bytes => incoming = bytes ++ incomingAfter ∧ outgoingAfter = outgoing
  | .writes bytes =>
    incomingAfter = incoming ∧ outgoingAfter = if peerOpen then outgoing ++ bytes else outgoing
  | .readFails => peerOpen = false ∧ incomingAfter = incoming ∧ outgoingAfter = outgoing
  | .writeFails => peerOpen = false ∧ incomingAfter = incoming ∧ outgoingAfter = outgoing

/-- One step of a connection, in any order of the two sides. The client's program runs once; the
server's program may start over. A side closes its end when its program has ended for good. -/
inductive Connection.Step (restart : β → Option (Prog σ ε β)) :
    Connection κ μ α σ ε β → Happening → Connection κ μ α σ ε β → Prop
  | client {before : Connection κ μ α σ ε β} {move : Move} {after : Thread κ μ α}
      {toClient toServer : Bytes} (hopen : before.clientOpen = true)
      (hstep : Thread.Step (fun _ ↦ none) before.client move after)
      (hcarries : Carries before.serverOpen before.toClient before.toServer move toClient
        toServer) :
      Step restart before (.client move)
        { before with client := after, toClient := toClient, toServer := toServer }
  | server {before : Connection κ μ α σ ε β} {move : Move} {after : Thread σ ε β}
      {toServer toClient : Bytes} (hopen : before.serverOpen = true)
      (hstep : Thread.Step restart before.server move after)
      (hcarries : Carries before.clientOpen before.toServer before.toClient move toServer
        toClient) :
      Step restart before (.server move)
        { before with server := after, toServer := toServer, toClient := toClient }
  | clientCloses {before : Connection κ μ α σ ε β} {value : α}
      (hdone : before.client.prog = .done value) :
      Step restart before .clientCloses { before with clientOpen := false }
  | serverCloses {before : Connection κ μ α σ ε β} {value : β}
      (hdone : before.server.prog = .done value) (hrestart : restart value = none) :
      Step restart before .serverCloses { before with serverOpen := false }

/-- The channels after a move, if it can be made. -/
def Move.carry (peerOpen : Bool) (incoming outgoing : Bytes) : Move → Option (Bytes × Bytes)
  | .internal => some (incoming, outgoing)
  | .interrupted => some (incoming, outgoing)
  | .reads bytes => if bytes <+: incoming then some (incoming.drop bytes.length, outgoing) else none
  | .writes bytes => some (incoming, if peerOpen then outgoing ++ bytes else outgoing)
  | .readFails => if peerOpen then none else some (incoming, outgoing)
  | .writeFails => if peerOpen then none else some (incoming, outgoing)

theorem Carries.of_carry {peerOpen : Bool} {incoming outgoing incomingAfter outgoingAfter : Bytes}
    {move : Move}
    (hcarry : move.carry peerOpen incoming outgoing = some (incomingAfter, outgoingAfter)) :
    Carries peerOpen incoming outgoing move incomingAfter outgoingAfter := by
  cases move with
  | internal =>
    cases hcarry
    exact ⟨rfl, rfl⟩
  | interrupted =>
    cases hcarry
    exact ⟨rfl, rfl⟩
  | reads bytes =>
    simp only [Move.carry] at hcarry
    split_ifs at hcarry with hfront
    obtain ⟨rest, rfl⟩ := hfront
    cases hcarry
    exact ⟨by rw [List.drop_left], rfl⟩
  | writes bytes =>
    cases hcarry
    exact ⟨rfl, rfl⟩
  | readFails =>
    simp only [Move.carry] at hcarry
    split_ifs at hcarry with hopen
    cases hcarry
    exact ⟨Bool.eq_false_iff.mpr hopen, rfl, rfl⟩
  | writeFails =>
    simp only [Move.carry] at hcarry
    split_ifs at hcarry with hopen
    cases hcarry
    exact ⟨Bool.eq_false_iff.mpr hopen, rfl, rfl⟩

/-- The steps of the two sides as a function, to compute runs with. -/
def Connection.next (restart : β → Option (Prog σ ε β)) (connection : Connection κ μ α σ ε β) :
    Happening → Option (Connection κ μ α σ ε β)
  | .client move =>
    if connection.clientOpen then
      (connection.client.next (fun _ ↦ none) move).bind fun after ↦
        (move.carry connection.serverOpen connection.toClient connection.toServer).map
          fun (toClient, toServer) ↦
            { connection with client := after, toClient := toClient, toServer := toServer }
    else none
  | .server move =>
    if connection.serverOpen then
      (connection.server.next restart move).bind fun after ↦
        (move.carry connection.clientOpen connection.toServer connection.toClient).map
          fun (toServer, toClient) ↦
            { connection with server := after, toServer := toServer, toClient := toClient }
    else none
  | _ => none

theorem Connection.Step.of_next {restart : β → Option (Prog σ ε β)}
    {before after : Connection κ μ α σ ε β} {label : Happening}
    (hnext : before.next restart label = some after) :
    Connection.Step restart before label after := by
  cases label with
  | client move =>
    simp only [Connection.next] at hnext
    split_ifs at hnext with hopen
    obtain ⟨thread, hthread, hchannels⟩ := Option.bind_eq_some_iff.mp hnext
    obtain ⟨⟨toClient, toServer⟩, hcarry, rfl⟩ := Option.map_eq_some_iff.mp hchannels
    exact .client hopen (.of_next hthread) (.of_carry hcarry)
  | server move =>
    simp only [Connection.next] at hnext
    split_ifs at hnext with hopen
    obtain ⟨thread, hthread, hchannels⟩ := Option.bind_eq_some_iff.mp hnext
    obtain ⟨⟨toServer, toClient⟩, hcarry, rfl⟩ := Option.map_eq_some_iff.mp hchannels
    exact .server hopen (.of_next hthread) (.of_carry hcarry)
  | clientCloses => cases hnext
  | serverCloses => cases hnext

/-- A new connection between two programs. -/
def Connection.start (client : Prog κ μ α) (clientState : κ) (server : Prog σ ε β)
    (serverState : σ) : Connection κ μ α σ ε β :=
  ⟨⟨client, clientState, []⟩, ⟨server, serverState, []⟩, [], [], true, true⟩

/-- Both sides wait in a read for bytes that are not there, with both ends open. -/
def Connection.Deadlocked (connection : Connection κ μ α σ ε β) : Prop :=
  connection.clientOpen = true ∧ connection.serverOpen = true ∧
    connection.client.Waits ∧ connection.toClient = [] ∧
      connection.server.Waits ∧ connection.toServer = []

/-- The two sides' own histories, and how they meet in the channels: what one side has written is
what the other has read followed by what is on its way. -/
structure Histories (restart : β → Option (Prog σ ε β)) (clientStart : Thread κ μ α)
    (serverStart : Thread σ ε β) (connection : Connection κ μ α σ ε β)
    (clientIn clientOut serverIn serverOut : Bytes) (clientCost serverCost : ℕ) : Prop where
  client : Ran (fun _ ↦ none) clientStart clientIn clientOut clientCost connection.client
  server : Ran restart serverStart serverIn serverOut serverCost connection.server
  toServer : clientOut = serverIn ++ connection.toServer
  toClient : serverOut = clientIn ++ connection.toClient

variable {restart : β → Option (Prog σ ε β)}

theorem Carries.of_open {incoming outgoing incomingAfter outgoingAfter : Bytes} {move : Move}
    (hcarries : Carries true incoming outgoing move incomingAfter outgoingAfter) :
    move.fails = false ∧ incoming = move.input ++ incomingAfter ∧
      outgoingAfter = outgoing ++ move.output := by
  cases move <;> simp_all [Carries, Move.fails, Move.input, Move.output]

/-- A move that takes nothing from the stream can always be made. -/
theorem Carries.of_input_nil {move : Move} (hproductive : move.productive = true)
    (hinput : move.input = []) (incoming outgoing : Bytes) :
    Carries true incoming outgoing move incoming (outgoing ++ move.output) := by
  cases move <;> simp_all [Carries, Move.productive, Move.input, Move.output]

/-- Ends that are open have always been open. -/
theorem Connection.Step.open_before {before after : Connection κ μ α σ ε β} {label : Happening}
    (hstep : Connection.Step restart before label after) :
    (after.clientOpen = true → before.clientOpen = true) ∧
      (after.serverOpen = true → before.serverOpen = true) := by
  cases hstep <;> simp

/-- One step between two states with both ends open extends the two histories. A side reads only
what the other had written before. -/
theorem Histories.step {clientStart : Thread κ μ α} {serverStart : Thread σ ε β}
    {before after : Connection κ μ α σ ε β} {label : Happening}
    {clientIn clientOut serverIn serverOut : Bytes} {clientCost serverCost : ℕ}
    (hist : Histories restart clientStart serverStart before clientIn clientOut serverIn serverOut
      clientCost serverCost)
    (hstep : Connection.Step restart before label after) (hclient : after.clientOpen = true)
    (hserver : after.serverOpen = true) :
    ∃ clientIn' clientOut' serverIn' serverOut' clientCost' serverCost',
      Histories restart clientStart serverStart after clientIn' clientOut' serverIn' serverOut'
          clientCost' serverCost' ∧
        clientIn' <+: serverOut ∧ serverIn' <+: clientOut ∧
        [label].countP Happening.productive + (clientCost + serverCost +
            (clientIn.length + clientOut.length + serverIn.length + serverOut.length)) ≤
          clientCost' + serverCost' +
            (clientIn'.length + clientOut'.length + serverIn'.length + serverOut'.length) := by
  cases hstep with
  | @client move _ _ _ hopen hstep hcarries =>
    simp only at hserver
    rw [hserver] at hcarries
    obtain ⟨hfails, hin, hout⟩ := hcarries.of_open
    refine ⟨_, _, serverIn, serverOut, _, serverCost,
      ⟨hist.client.step hstep hfails, hist.server, ?_, ?_⟩, ?_, ?_, ?_⟩
    · rw [hist.toServer, hout, List.append_assoc]
    · rw [hist.toClient, hin, List.append_assoc]
    · rw [hist.toClient, hin, ← List.append_assoc]
      exact List.prefix_append _ _
    · exact ⟨_, hist.toServer.symm⟩
    · have hone := hstep.productive_le
      have hlast : [Happening.client move].countP Happening.productive =
          [move].countP Move.productive := rfl
      rw [hlast, List.length_append, List.length_append]
      omega
  | @server move _ _ _ hopen hstep hcarries =>
    simp only at hclient
    rw [hclient] at hcarries
    obtain ⟨hfails, hin, hout⟩ := hcarries.of_open
    refine ⟨clientIn, clientOut, _, _, clientCost, _,
      ⟨hist.client, hist.server.step hstep hfails, ?_, ?_⟩, ?_, ?_, ?_⟩
    · rw [hist.toServer, hin, List.append_assoc]
    · rw [hist.toClient, hout, List.append_assoc]
    · exact ⟨_, hist.toClient.symm⟩
    · rw [hist.toServer, hin, ← List.append_assoc]
      exact List.prefix_append _ _
    · have hone := hstep.productive_le
      have hlast : [Happening.server move].countP Happening.productive =
          [move].countP Move.productive := rfl
      rw [hlast, List.length_append, List.length_append]
      omega
  | clientCloses hdone => simp at hclient
  | serverCloses hdone hrestart => simp at hserver

/-- A thread that waits can read when there are bytes. -/
theorem Thread.Waits.exists_read {thread : Thread σ ε β} (hwaits : thread.Waits)
    (restart : β → Option (Prog σ ε β)) (peerOpen : Bool) {incoming : Bytes} (hsome : incoming ≠ [])
    (outgoing : Bytes) :
    ∃ move after rest, Thread.Step restart thread move after ∧ move.productive = true ∧
      Carries peerOpen incoming outgoing move rest outgoing := by
  obtain ⟨prog, state, marks⟩ := thread
  obtain ⟨size, next, hprog⟩ := hwaits
  simp only at hprog
  subst hprog
  obtain ⟨byte, rest, rfl⟩ := List.exists_cons_of_ne_nil hsome
  refine ⟨.reads [byte], _, rest, .reads (List.cons_ne_nil byte []) ?_, rfl, rfl, rfl⟩
  simp

/-- A thread that waits has nothing to do until more arrives. -/
theorem Thread.Waits.reacts {thread : Thread σ ε β} (hwaits : thread.Waits) :
    Reacts false restart thread.prog thread.state [] ⟨[], [], 0, thread.state, .blocked⟩ := by
  obtain ⟨size, next, hprog⟩ := hwaits
  rw [hprog]
  exact .of_blocked (behave_recv_wait thread.state next (Nat.succ_pos size)) rfl

section Runs

variable {client : Prog κ μ α} {clientState : κ} {server : Prog σ ε β} {serverState : σ}
  {labels : List Happening} {connection : Connection κ μ α σ ε β}

/-- Every state of a run with both ends open is given by the two sides' own histories. -/
theorem Connection.histories
    (hrun : Run (Connection.Step restart)
      (Connection.start client clientState server serverState) labels connection)
    (hclient : connection.clientOpen = true) (hserver : connection.serverOpen = true) :
    ∃ clientIn clientOut serverIn serverOut clientCost serverCost,
      Histories restart ⟨client, clientState, []⟩ ⟨server, serverState, []⟩ connection
        clientIn clientOut serverIn serverOut clientCost serverCost := by
  induction hrun with
  | refl => exact ⟨[], [], [], [], 0, 0, .refl, .refl, rfl, rfl⟩
  | tail _ hstep ih =>
    obtain ⟨_, _, _, _, _, _, hist⟩ :=
      ih (hstep.open_before.1 hclient) (hstep.open_before.2 hserver)
    obtain ⟨_, _, _, _, _, _, hafter, -⟩ := hist.step hstep hclient hserver
    exact ⟨_, _, _, _, _, _, hafter⟩

/-- In a deadlock each side has written its reaction to all that the other has written, and waits for
more. -/
theorem Connection.Deadlocked.behaviours (hdeadlocked : connection.Deadlocked)
    (hreach : Reachable (Connection.Step restart)
      (Connection.start client clientState server serverState) connection) :
    ∃ toServer toClient serverAll, (behave false client clientState toClient).output = toServer ∧
      (behave false client clientState toClient).ending = .blocked ∧
      Reacts false restart server serverState toServer serverAll ∧
      serverAll.output = toClient ∧ serverAll.ending = .blocked := by
  obtain ⟨hclientOpen, hserverOpen, hclientWaits, hclientEmpty, hserverWaits, hserverEmpty⟩ :=
    hdeadlocked
  obtain ⟨labels, hrun⟩ := hreach
  obtain ⟨clientIn, clientOut, serverIn, serverOut, clientCost, serverCost, hist⟩ :=
    Connection.histories hrun hclientOpen hserverOpen
  obtain ⟨clientMarks, -, hclient⟩ := hist.client.reacts hclientWaits.reacts
  obtain ⟨serverMarks, -, hserver⟩ := hist.server.reacts hserverWaits.reacts
  have htoServer := hist.toServer
  have htoClient := hist.toClient
  rw [hserverEmpty, List.append_nil] at htoServer
  rw [hclientEmpty, List.append_nil] at htoClient
  rw [List.append_nil] at hclient hserver
  subst htoServer htoClient
  have hbehave := hclient.eq_behave
  exact ⟨_, _, _, by rw [← hbehave]; simp, by rw [← hbehave]; simp, hserver, by simp, rfl⟩

variable {clientAll : Behaviour κ μ α} {serverAll : Behaviour σ ε β}

/-- Two programs that would answer each other: what the client writes when it reads all the server
writes is what the server reads to write that. -/
structure Matched (restart : β → Option (Prog σ ε β)) (client : Prog κ μ α) (clientState : κ)
    (server : Prog σ ε β) (serverState : σ) (clientAll : Behaviour κ μ α)
    (serverAll : Behaviour σ ε β) : Prop where
  client : Reacts false (fun _ ↦ none) client clientState serverAll.output clientAll
  server : Reacts false restart server serverState clientAll.output serverAll

/-- Along every run of matched programs, each side reads a prefix of what the other would write in
all, and the number of productive steps so far is bounded by the nodes passed and bytes moved. -/
theorem Connection.lockstep
    (hmatched : Matched restart client clientState server serverState clientAll serverAll)
    (hrun : Run (Connection.Step restart)
      (Connection.start client clientState server serverState) labels connection)
    (hclient : connection.clientOpen = true) (hserver : connection.serverOpen = true) :
    ∃ clientIn clientOut serverIn serverOut clientCost serverCost,
      Histories restart ⟨client, clientState, []⟩ ⟨server, serverState, []⟩ connection
          clientIn clientOut serverIn serverOut clientCost serverCost ∧
        clientIn <+: serverAll.output ∧ serverIn <+: clientAll.output ∧
        labels.countP Happening.productive ≤ clientCost + serverCost +
          (clientIn.length + clientOut.length + serverIn.length + serverOut.length) := by
  induction hrun with
  | refl =>
    exact ⟨[], [], [], [], 0, 0, ⟨.refl, .refl, rfl, rfl⟩, List.nil_prefix, List.nil_prefix, by simp⟩
  | tail _ hstep ih =>
    obtain ⟨clientIn, clientOut, serverIn, serverOut, _, _, hist, hclientIn, hserverIn, hcount⟩ :=
      ih (hstep.open_before.1 hclient) (hstep.open_before.2 hserver)
    obtain ⟨_, _, _, _, _, _, hafter, hclientIn', hserverIn', hone⟩ :=
      hist.step hstep hclient hserver
    have hwritten := hist.client.output_prefix hmatched.client hclientIn
    have hanswered := hist.server.output_prefix hmatched.server hserverIn
    refine ⟨_, _, _, _, _, _, hafter, hclientIn'.trans hanswered, hserverIn'.trans hwritten, ?_⟩
    rw [List.countP_append]
    omega

/-- A server that would wait for more has not ended. -/
theorem Connection.server_not_done
    (hmatched : Matched restart client clientState server serverState clientAll serverAll)
    (hblocked : serverAll.ending = .blocked)
    (hrun : Run (Connection.Step restart)
      (Connection.start client clientState server serverState) labels connection)
    (hclient : connection.clientOpen = true) (hserver : connection.serverOpen = true) {value : β}
    (hdone : connection.server.prog = .done value) : restart value ≠ none := by
  intro hrestart
  obtain ⟨_, _, serverIn, _, _, _, hist, -, ⟨rest, hrest⟩, -⟩ :=
    Connection.lockstep hmatched hrun hclient hserver
  have hreacts := hmatched.server
  rw [← hrest] at hreacts
  obtain ⟨marks, later, -, hlater, hequal⟩ := hist.server.reacts_rest hreacts
  rw [hdone] at hlater
  rw [hequal, hlater.eq_of_done hrestart] at hblocked
  simp at hblocked

/-- A server that would wait for more does not close while the client's end is open. -/
theorem Connection.server_stays_open
    (hmatched : Matched restart client clientState server serverState clientAll serverAll)
    (hblocked : serverAll.ending = .blocked)
    (hrun : Run (Connection.Step restart)
      (Connection.start client clientState server serverState) labels connection)
    (hclient : connection.clientOpen = true) : connection.serverOpen = true := by
  induction hrun with
  | refl => rfl
  | tail hprefix hstep ih =>
    have hserver := ih (hstep.open_before.1 hclient)
    cases hstep with
    | client _ _ _ => exact hserver
    | server _ _ _ => exact hserver
    | clientCloses _ => exact hserver
    | serverCloses hdone hrestart =>
      exact absurd hrestart
        (Connection.server_not_done hmatched hblocked hprefix hclient hserver hdone)

/-- Along every run of matched programs, the marks so far are a prefix of the marks in all, and the
number of productive steps is bounded. -/
theorem Connection.marks_prefix
    (hmatched : Matched restart client clientState server serverState clientAll serverAll)
    (hblocked : serverAll.ending = .blocked)
    (hrun : Run (Connection.Step restart)
      (Connection.start client clientState server serverState) labels connection)
    (hclient : connection.clientOpen = true) :
    connection.client.marks <+: clientAll.marks ∧ connection.server.marks <+: serverAll.marks ∧
      labels.countP Happening.productive ≤ clientAll.cost + serverAll.cost +
        2 * (clientAll.output.length + serverAll.output.length) := by
  obtain ⟨clientIn, clientOut, serverIn, serverOut, clientCost, serverCost, hist,
      ⟨clientRest, hclientRest⟩, ⟨serverRest, hserverRest⟩, hcount⟩ :=
    Connection.lockstep hmatched hrun hclient
      (Connection.server_stays_open hmatched hblocked hrun hclient)
  have hclientReacts := hmatched.client
  have hserverReacts := hmatched.server
  have hclientLength := congrArg List.length hclientRest
  have hserverLength := congrArg List.length hserverRest
  rw [← hclientRest] at hclientReacts
  rw [← hserverRest] at hserverReacts
  obtain ⟨marks, later, hmarks, -, rfl⟩ := hist.client.reacts_rest hclientReacts
  obtain ⟨others, latest, hothers, -, rfl⟩ := hist.server.reacts_rest hserverReacts
  refine ⟨?_, ?_, ?_⟩
  · rw [hmarks]
    exact List.prefix_append _ _
  · rw [hothers]
    exact List.prefix_append _ _
  · simp only [Behaviour.after_output, Behaviour.after_cost, List.length_append] at *
    omega

/-- A client that has ended has left all its marks. -/
theorem Connection.client_done
    (hmatched : Matched restart client clientState server serverState clientAll serverAll)
    (hblocked : serverAll.ending = .blocked)
    (hrun : Run (Connection.Step restart)
      (Connection.start client clientState server serverState) labels connection)
    (hclient : connection.clientOpen = true) {value : α}
    (hdone : connection.client.prog = .done value) :
    connection.client.marks = clientAll.marks := by
  obtain ⟨clientIn, clientOut, _, _, clientCost, _, hist, ⟨rest, hrest⟩, -⟩ :=
    Connection.lockstep hmatched hrun hclient
      (Connection.server_stays_open hmatched hblocked hrun hclient)
  have hreacts := hmatched.client
  rw [← hrest] at hreacts
  obtain ⟨marks, later, hmarks, hlater, rfl⟩ := hist.client.reacts_rest hreacts
  rw [hdone] at hlater
  rw [hlater.eq_of_done rfl, hmarks]
  simp

/-- A connection with both ends open either has a productive step, or each side waits for bytes that
are not there or has ended. -/
theorem Connection.productive_or_stuck (hclient : connection.clientOpen = true)
    (hserver : connection.serverOpen = true) :
    (∃ label after, Connection.Step restart connection label after ∧ label.productive = true) ∨
      (connection.client.Waits ∧ connection.toClient = [] ∨
          ∃ value, connection.client.prog = .done value) ∧
        (connection.server.Waits ∧ connection.toServer = [] ∨
          ∃ value, connection.server.prog = .done value ∧ restart value = none) := by
  rcases Thread.exists_step (fun _ ↦ none) connection.client with
      ⟨move, after, hstep, hproductive, hinput⟩ | hclientStuck
  · exact Or.inl ⟨.client move, _, .client hclient hstep
      (hserver ▸ Carries.of_input_nil hproductive hinput _ _), hproductive⟩
  rcases Thread.exists_step restart connection.server with
      ⟨move, after, hstep, hproductive, hinput⟩ | hserverStuck
  · exact Or.inl ⟨.server move, _, .server hserver hstep
      (hclient ▸ Carries.of_input_nil hproductive hinput _ _), hproductive⟩
  by_cases hclientReads : connection.client.Waits ∧ connection.toClient ≠ []
  · obtain ⟨hwaits, hsome⟩ := hclientReads
    obtain ⟨move, after, rest, hstep, hmove, hcarries⟩ :=
      hwaits.exists_read (fun _ ↦ none) true hsome connection.toServer
    exact Or.inl ⟨.client move, _, .client hclient hstep (hserver ▸ hcarries), hmove⟩
  by_cases hserverReads : connection.server.Waits ∧ connection.toServer ≠ []
  · obtain ⟨hwaits, hsome⟩ := hserverReads
    obtain ⟨move, after, rest, hstep, hmove, hcarries⟩ :=
      hwaits.exists_read restart true hsome connection.toClient
    exact Or.inl ⟨.server move, _, .server hserver hstep (hclient ▸ hcarries), hmove⟩
  refine Or.inr ⟨?_, ?_⟩
  · rcases hclientStuck with hwaits | ⟨value, hdone, -⟩
    · exact Or.inl ⟨hwaits, not_not.mp fun hsome ↦ hclientReads ⟨hwaits, hsome⟩⟩
    · exact Or.inr ⟨value, hdone⟩
  · rcases hserverStuck with hwaits | hdone
    · exact Or.inl ⟨hwaits, not_not.mp fun hsome ↦ hserverReads ⟨hwaits, hsome⟩⟩
    · exact Or.inr hdone

end Runs

end Connection

end ZigbeeRemote.Foundation
