import Mathlib.Data.List.Basic
import Mathlib.Order.Basic

/-!
# Programs at one end of a byte stream

A thread that speaks over a byte stream does four things: it fills a buffer of a known size, it
writes out a buffer, it asks the machine it runs on, and it computes. `Prog` is the type of such
programs. A `recv` node stands for a loop that reads until its buffer is full and hands over the
bytes, or `none` when the stream ended or failed first; a `send` node for a loop that writes its
buffer out and hands over whether it succeeded; a `query` node reads and updates the state of the
machine in one step; a `note` node leaves a mark for the reader of the model and has no effect.

`behave` is the meaning of a program on a finite input. With `eof = true` the input is all there
will ever be, and a `recv` node that finds too few bytes fails; with `eof = false` the input is what
has arrived so far, and the program stops there, `blocked`. The fields of a `Behaviour` say what was
written, which marks were left, how many nodes were passed, the state of the machine, and how it
ended. `behave_bind` composes behaviours along `>>=`.

`Reacts` is the meaning of a program that may start over: `restart` says, for every value a round
can end with, whether another round follows and with which program. It is deterministic
(`Reacts.unique`).
-/

set_option autoImplicit false
set_option relaxedAutoImplicit false

namespace ZigbeeRemote.Foundation

/-- A run of bytes, first byte first. -/
abbrev Bytes := List UInt8

/-- A program at one end of a byte stream, over a machine with state `σ`, leaving marks of type `ε`
and ending with a value of type `α`. -/
inductive Prog (σ ε α : Type) : Type
  | done (value : α)
  | recv (size : ℕ) (next : Option Bytes → Prog σ ε α)
  | send (bytes : Bytes) (next : Bool → Prog σ ε α)
  | query (update : σ → σ) (next : σ → Prog σ ε α)
  | note (mark : ε) (next : Prog σ ε α)

namespace Prog

variable {σ ε α β γ : Type}

/-- Run a program and continue with its value. -/
def bind : Prog σ ε α → (α → Prog σ ε β) → Prog σ ε β
  | .done value, next => next value
  | .recv size rest, next => .recv size fun bytes ↦ (rest bytes).bind next
  | .send bytes rest, next => .send bytes fun sent ↦ (rest sent).bind next
  | .query update rest, next => .query update fun state ↦ (rest state).bind next
  | .note mark rest, next => .note mark (rest.bind next)

instance : Monad (Prog σ ε) where
  pure := .done
  bind := bind

theorem bind_done (program : Prog σ ε α) : program.bind .done = program := by
  induction program with
  | done value => rfl
  | recv size rest ih => simp only [bind, ih]
  | send bytes rest ih => simp only [bind, ih]
  | query update rest ih => simp only [bind, ih]
  | note mark rest ih => simp only [bind, ih]

theorem bind_assoc (program : Prog σ ε α) (first : α → Prog σ ε β) (second : β → Prog σ ε γ) :
    (program.bind first).bind second = program.bind fun value ↦ (first value).bind second := by
  induction program with
  | done value => rfl
  | recv size rest ih => simp only [bind, ih]
  | send bytes rest ih => simp only [bind, ih]
  | query update rest ih => simp only [bind, ih]
  | note mark rest ih => simp only [bind, ih]

instance : LawfulMonad (Prog σ ε) :=
  LawfulMonad.mk' (Prog σ ε) bind_done (fun _ _ ↦ rfl) bind_assoc

@[simp] theorem pure_eq_done (value : α) : (pure value : Prog σ ε α) = .done value := rfl

@[simp] theorem bind_eq_bind (program : Prog σ ε α) (next : α → Prog σ ε β) :
    program >>= next = program.bind next := rfl

@[simp] theorem map_eq_bind (program : Prog σ ε α) (f : α → β) :
    f <$> program = program.bind fun value ↦ .done (f value) := rfl

/-- Fill a buffer of `size` bytes. -/
def readAll (size : ℕ) : Prog σ ε (Option Bytes) := .recv size .done

/-- Write a buffer out. -/
def writeAll (bytes : Bytes) : Prog σ ε Bool := .send bytes .done

/-- One call of a function of the machine. -/
def lift (action : StateM σ α) : Prog σ ε α :=
  .query (fun state ↦ (action.run state).2) fun state ↦ .done (action.run state).1

/-- Leave a mark. -/
def mark (mark : ε) : Prog σ ε Unit := .note mark (.done ())

end Prog

/-! ### The behaviour of a program on a finite input -/

/-- How a program ends on a finite input: with a value and the input it left over, or waiting for
bytes that have not arrived. -/
inductive Ending (α : Type) : Type
  | finished (value : α) (rest : Bytes)
  | blocked

/-- What a program does on a finite input: the bytes it writes, the marks it leaves, the number of
nodes it passes, the state of the machine afterwards, and how it ends. -/
@[ext] structure Behaviour (σ ε α : Type) where
  output : Bytes
  marks : List ε
  cost : ℕ
  state : σ
  ending : Ending α

namespace Behaviour

variable {σ ε α β : Type}

/-- A behaviour preceded by earlier output, marks and nodes. -/
def after (behaviour : Behaviour σ ε α) (output : Bytes) (marks : List ε) (cost : ℕ) :
    Behaviour σ ε α :=
  { behaviour with
    output := output ++ behaviour.output
    marks := marks ++ behaviour.marks
    cost := cost + behaviour.cost }

@[simp] theorem after_output (behaviour : Behaviour σ ε α) (output : Bytes) (marks : List ε)
    (cost : ℕ) : (behaviour.after output marks cost).output = output ++ behaviour.output := rfl

@[simp] theorem after_marks (behaviour : Behaviour σ ε α) (output : Bytes) (marks : List ε)
    (cost : ℕ) : (behaviour.after output marks cost).marks = marks ++ behaviour.marks := rfl

@[simp] theorem after_cost (behaviour : Behaviour σ ε α) (output : Bytes) (marks : List ε)
    (cost : ℕ) : (behaviour.after output marks cost).cost = cost + behaviour.cost := rfl

@[simp] theorem after_state (behaviour : Behaviour σ ε α) (output : Bytes) (marks : List ε)
    (cost : ℕ) : (behaviour.after output marks cost).state = behaviour.state := rfl

@[simp] theorem after_ending (behaviour : Behaviour σ ε α) (output : Bytes) (marks : List ε)
    (cost : ℕ) : (behaviour.after output marks cost).ending = behaviour.ending := rfl

@[simp] theorem after_nil (behaviour : Behaviour σ ε α) : behaviour.after [] [] 0 = behaviour := by
  ext <;> simp

/-- Nodes passed before a behaviour that writes nothing and leaves no marks. -/
theorem after_nodes (behaviour : Behaviour σ ε α) (cost : ℕ) :
    behaviour.after [] [] cost = { behaviour with cost := cost + behaviour.cost } := by
  ext <;> simp

@[simp] theorem after_after (behaviour : Behaviour σ ε α) (first second : Bytes)
    (earlier later : List ε) (m n : ℕ) :
    (behaviour.after second later n).after first earlier m =
      behaviour.after (first ++ second) (earlier ++ later) (m + n) := by
  ext <;> simp [Nat.add_assoc]

/-- A behaviour followed by another one on the input it leaves over. -/
def andThen (behaviour : Behaviour σ ε α) (next : α → σ → Bytes → Behaviour σ ε β) :
    Behaviour σ ε β :=
  match behaviour.ending with
  | .finished value rest =>
    (next value behaviour.state rest).after behaviour.output behaviour.marks behaviour.cost
  | .blocked => ⟨behaviour.output, behaviour.marks, behaviour.cost, behaviour.state, .blocked⟩

@[simp] theorem andThen_finished (output : Bytes) (marks : List ε) (cost : ℕ) (state : σ)
    (value : α) (rest : Bytes) (next : α → σ → Bytes → Behaviour σ ε β) :
    (Behaviour.mk output marks cost state (.finished value rest)).andThen next =
      (next value state rest).after output marks cost := rfl

@[simp] theorem andThen_blocked (output : Bytes) (marks : List ε) (cost : ℕ) (state : σ)
    (next : α → σ → Bytes → Behaviour σ ε β) :
    (Behaviour.mk output marks cost state (.blocked : Ending α)).andThen next =
      ⟨output, marks, cost, state, .blocked⟩ := rfl

@[simp] theorem after_andThen (behaviour : Behaviour σ ε α) (output : Bytes) (marks : List ε)
    (cost : ℕ) (next : α → σ → Bytes → Behaviour σ ε β) :
    (behaviour.after output marks cost).andThen next =
      (behaviour.andThen next).after output marks cost := by
  obtain ⟨written, left, passed, state, ending⟩ := behaviour
  cases ending with
  | finished value rest => simp [after, andThen, Nat.add_assoc]
  | blocked => simp [after, andThen]

theorem output_prefix_andThen (behaviour : Behaviour σ ε α)
    (next : α → σ → Bytes → Behaviour σ ε β) :
    behaviour.output <+: (behaviour.andThen next).output := by
  unfold andThen
  split
  · exact List.prefix_append _ _
  · exact List.prefix_rfl

end Behaviour

section Behave

variable {σ ε α β : Type}

/-- The behaviour of a program on a finite input, which is all there will be (`eof`) or all that has
arrived so far. -/
def behave (eof : Bool) : Prog σ ε α → σ → Bytes → Behaviour σ ε α
  | .done value, state, input => ⟨[], [], 0, state, .finished value input⟩
  | .recv size next, state, input =>
    if size ≤ input.length then
      (behave eof (next (some (input.take size))) state (input.drop size)).after [] [] 1
    else if eof then (behave eof (next none) state []).after [] [] 1
    else ⟨[], [], 0, state, .blocked⟩
  | .send bytes next, state, input => (behave eof (next true) state input).after bytes [] 1
  | .query update next, state, input =>
    (behave eof (next state) (update state) input).after [] [] 1
  | .note mark next, state, input => (behave eof next state input).after [] [mark] 1

variable (eof : Bool) (state : σ)

@[simp] theorem behave_done (value : α) (input : Bytes) :
    behave eof (.done value : Prog σ ε α) state input = ⟨[], [], 0, state, .finished value input⟩ :=
  rfl

@[simp] theorem behave_send (bytes : Bytes) (next : Bool → Prog σ ε α) (input : Bytes) :
    behave eof (.send bytes next) state input =
      (behave eof (next true) state input).after bytes [] 1 := rfl

@[simp] theorem behave_query (update : σ → σ) (next : σ → Prog σ ε α) (input : Bytes) :
    behave eof (.query update next) state input =
      (behave eof (next state) (update state) input).after [] [] 1 := rfl

@[simp] theorem behave_note (mark : ε) (next : Prog σ ε α) (input : Bytes) :
    behave eof (.note mark next) state input =
      (behave eof next state input).after [] [mark] 1 := rfl

/-- A `recv` node whose buffer the input can fill. -/
theorem behave_recv_append {size : ℕ} (next : Option Bytes → Prog σ ε α) {bytes : Bytes}
    (rest : Bytes) (hsize : bytes.length = size) :
    behave eof (.recv size next) state (bytes ++ rest) =
      (behave eof (next (some bytes)) state rest).after [] [] 1 := by
  simp [behave, ← hsize]

/-- A `recv` node at the end of a stream that is too short for its buffer. -/
theorem behave_recv_eof {size : ℕ} (next : Option Bytes → Prog σ ε α) {input : Bytes}
    (hshort : input.length < size) :
    behave true (.recv size next) state input =
      (behave true (next none) state []).after [] [] 1 := by
  simp [behave, Nat.not_le.mpr hshort]

/-- A `recv` node that waits for bytes. -/
theorem behave_recv_wait {size : ℕ} (next : Option Bytes → Prog σ ε α) {input : Bytes}
    (hshort : input.length < size) :
    behave false (.recv size next) state input = ⟨[], [], 0, state, .blocked⟩ := by
  simp [behave, Nat.not_le.mpr hshort]

/-- Behaviours compose along `>>=`. -/
theorem behave_bind (program : Prog σ ε α) (next : α → Prog σ ε β) (input : Bytes) :
    behave eof (program.bind next) state input =
      (behave eof program state input).andThen fun value later rest ↦
        behave eof (next value) later rest := by
  induction program generalizing state input with
  | done value => simp [Prog.bind]
  | recv size rest ih =>
    simp only [Prog.bind, behave]
    split_ifs
    · rw [ih, Behaviour.after_andThen]
    · rw [ih, Behaviour.after_andThen]
    · rfl
  | send bytes rest ih => simp only [Prog.bind, behave_send, ih, Behaviour.after_andThen]
  | query update rest ih => simp only [Prog.bind, behave_query, ih, Behaviour.after_andThen]
  | note mark rest ih => simp only [Prog.bind, behave_note, ih, Behaviour.after_andThen]

/-- A call of the machine's own function takes no input and writes nothing. -/
@[simp] theorem behave_lift (action : StateM σ α) (input : Bytes) :
    behave eof (Prog.lift action : Prog σ ε α) state input =
      ⟨[], [], 1, (action.run state).2, .finished (action.run state).1 input⟩ := rfl

@[simp] theorem behave_mark (mark : ε) (input : Bytes) :
    behave eof (Prog.mark mark : Prog σ ε Unit) state input =
      ⟨[], [mark], 1, state, .finished () input⟩ := rfl

@[simp] theorem behave_writeAll (bytes : Bytes) (input : Bytes) :
    behave eof (Prog.writeAll bytes : Prog σ ε Bool) state input =
      ⟨bytes, [], 1, state, .finished true input⟩ := by
  simp [Prog.writeAll, Behaviour.after]

/-- Reading a buffer off the front of the input. -/
theorem behave_readAll_append {size : ℕ} {bytes : Bytes} (rest : Bytes)
    (hsize : bytes.length = size) :
    behave eof (Prog.readAll size : Prog σ ε (Option Bytes)) state (bytes ++ rest) =
      ⟨[], [], 1, state, .finished (some bytes) rest⟩ := by
  rw [Prog.readAll, behave_recv_append eof state _ rest hsize]
  simp [Behaviour.after]

/-- Reading a buffer at the end of a stream that is too short for it. -/
theorem behave_readAll_eof {size : ℕ} {input : Bytes} (hshort : input.length < size) :
    behave true (Prog.readAll size : Prog σ ε (Option Bytes)) state input =
      ⟨[], [], 1, state, .finished none []⟩ := by
  rw [Prog.readAll, behave_recv_eof state _ hshort]
  simp [Behaviour.after]

end Behave

/-! ### Programs that start over -/

section Reacts

variable {σ ε α : Type}

/-- What a program that may start over does on a finite input. A round that blocks or ends with a
value after which nothing follows is the last one. -/
inductive Reacts (eof : Bool) (restart : α → Option (Prog σ ε α)) :
    Prog σ ε α → σ → Bytes → Behaviour σ ε α → Prop
  | blocked {program : Prog σ ε α} {state : σ} {input : Bytes}
      (hending : (behave eof program state input).ending = .blocked) :
      Reacts eof restart program state input (behave eof program state input)
  | stopped {program : Prog σ ε α} {state : σ} {input : Bytes} {value : α} {rest : Bytes}
      (hending : (behave eof program state input).ending = .finished value rest)
      (hrestart : restart value = none) :
      Reacts eof restart program state input (behave eof program state input)
  | again {program following : Prog σ ε α} {state : σ} {input : Bytes} {value : α} {rest : Bytes}
      {later : Behaviour σ ε α}
      (hending : (behave eof program state input).ending = .finished value rest)
      (hrestart : restart value = some following)
      (hlater : Reacts eof restart following (behave eof program state input).state rest later) :
      Reacts eof restart program state input
        (later.after (behave eof program state input).output
          (behave eof program state input).marks ((behave eof program state input).cost + 1))

variable {eof : Bool} {restart : α → Option (Prog σ ε α)}

/-- A program that may start over has one behaviour on every input. -/
theorem Reacts.unique {program : Prog σ ε α} {state : σ} {input : Bytes}
    {first second : Behaviour σ ε α} (hfirst : Reacts eof restart program state input first)
    (hsecond : Reacts eof restart program state input second) : first = second := by
  induction hfirst generalizing second with
  | blocked hending =>
    cases hsecond with
    | blocked _ => rfl
    | stopped _ _ => rfl
    | again hother _ _ => simp [hending] at hother
  | stopped hending hrestart =>
    cases hsecond with
    | blocked _ => rfl
    | stopped _ _ => rfl
    | again hother hfollowing _ =>
      rw [hending] at hother
      obtain ⟨rfl, rfl⟩ := Ending.finished.inj hother
      simp [hrestart] at hfollowing
  | again hending hrestart _ ih =>
    cases hsecond with
    | blocked hother => simp [hending] at hother
    | stopped hother hnone =>
      rw [hending] at hother
      obtain ⟨rfl, rfl⟩ := Ending.finished.inj hother
      simp [hrestart] at hnone
    | again hother hfollowing hlater =>
      rw [hending] at hother
      obtain ⟨rfl, rfl⟩ := Ending.finished.inj hother
      rw [hrestart] at hfollowing
      obtain rfl := Option.some.inj hfollowing
      rw [ih hlater]

/-- A round that stops, from a computed behaviour. -/
theorem Reacts.of_stopped {program : Prog σ ε α} {state : σ} {input : Bytes}
    {behaviour : Behaviour σ ε α} {value : α} {rest : Bytes}
    (hbehave : behave eof program state input = behaviour)
    (hending : behaviour.ending = .finished value rest) (hrestart : restart value = none) :
    Reacts eof restart program state input behaviour := by
  subst hbehave
  exact .stopped hending hrestart

/-- A round that blocks, from a computed behaviour. -/
theorem Reacts.of_blocked {program : Prog σ ε α} {state : σ} {input : Bytes}
    {behaviour : Behaviour σ ε α} (hbehave : behave eof program state input = behaviour)
    (hending : behaviour.ending = .blocked) :
    Reacts eof restart program state input behaviour := by
  subst hbehave
  exact .blocked hending

/-- A round after which another one follows, from a computed behaviour. -/
theorem Reacts.of_again {program following : Prog σ ε α} {state : σ} {input : Bytes}
    {output : Bytes} {marks : List ε} {cost : ℕ} {after : σ} {value : α} {rest : Bytes}
    {later : Behaviour σ ε α}
    (hbehave : behave eof program state input =
      ⟨output, marks, cost, after, .finished value rest⟩)
    (hrestart : restart value = some following)
    (hlater : Reacts eof restart following after rest later) :
    Reacts eof restart program state input (later.after output marks (cost + 1)) := by
  have hending : (behave eof program state input).ending = .finished value rest := by rw [hbehave]
  have hround : Reacts eof restart following (behave eof program state input).state rest later := by
    rw [hbehave]
    exact hlater
  have hagain := Reacts.again hending hrestart hround
  rw [hbehave] at hagain
  exact hagain

/-- A program that never starts over. -/
theorem Reacts.eq_behave {program : Prog σ ε α} {state : σ} {input : Bytes}
    {behaviour : Behaviour σ ε α}
    (hreacts : Reacts eof (fun _ ↦ none) program state input behaviour) :
    behaviour = behave eof program state input := by
  cases hreacts with
  | blocked _ => rfl
  | stopped _ _ => rfl
  | again _ hrestart _ => simp at hrestart

/-- A program that has ended for good. -/
theorem Reacts.eq_of_done {value : α} {state : σ} {input : Bytes} {behaviour : Behaviour σ ε α}
    (hreacts : Reacts eof restart (.done value) state input behaviour)
    (hrestart : restart value = none) :
    behaviour = ⟨[], [], 0, state, .finished value input⟩ :=
  hreacts.unique (.of_stopped (behave_done eof state value input) rfl hrestart)

/-- The later rounds of a program, once its first round is known to start over. -/
theorem Reacts.later {program following : Prog σ ε α} {state : σ} {input : Bytes}
    {output : Bytes} {marks : List ε} {cost : ℕ} {after : σ} {value : α} {rest : Bytes}
    {behaviour : Behaviour σ ε α}
    (hreacts : Reacts eof restart program state input behaviour)
    (hbehave : behave eof program state input =
      ⟨output, marks, cost, after, .finished value rest⟩)
    (hrestart : restart value = some following) :
    ∃ later, Reacts eof restart following after rest later ∧
      behaviour = later.after output marks (cost + 1) := by
  cases hreacts with
  | blocked hending => simp [hbehave] at hending
  | stopped hending hnone =>
    rw [hbehave] at hending
    obtain ⟨rfl, rfl⟩ := Ending.finished.inj hending
    simp [hrestart] at hnone
  | @again _ other _ _ _ _ later hending hfollowing hlater =>
    rw [hbehave] at hending hlater ⊢
    obtain ⟨rfl, rfl⟩ := Ending.finished.inj hending
    rw [hrestart] at hfollowing
    obtain rfl := Option.some.inj hfollowing
    exact ⟨later, hlater, rfl⟩

end Reacts

end ZigbeeRemote.Foundation
