import Mathlib.Data.List.Basic

/-!
# Programs that only use an interface

A program that does nothing but call the operations of an interface and leave notes is a `Script`:
a tree with one branch for every answer an operation can give. The operations are a type `Op`, and
`Answer op` is the type of the answers to `op`, so that a script cannot mistake one for another.

The same script has several meanings. `Path` is every way it can go when the answers are arbitrary;
`interpret` carries it out with an implementation of the interface in a monad. `path_bind` takes the
ways of a script apart at its `>>=`.

`Holds` says what a script may do after what it has done so far, and what is true when it ends,
whatever the answers. Its rules go along the script (`Holds.bind`), and `Holds.path` turns it into a
statement about every way the script can go.
-/

set_option autoImplicit false
set_option relaxedAutoImplicit false

namespace ZigbeeRemote.Foundation

/-- A program over an interface, leaving notes of type `ε` and ending with a value of type `α`. -/
inductive Script (Op : Type) (Answer : Op → Type) (ε α : Type) : Type
  | done (value : α)
  | call (op : Op) (next : Answer op → Script Op Answer ε α)
  | note (mark : ε) (next : Script Op Answer ε α)

namespace Script

variable {Op : Type} {Answer : Op → Type} {ε α β γ : Type}

/-- Run a script and continue with its value. -/
def bind : Script Op Answer ε α → (α → Script Op Answer ε β) → Script Op Answer ε β
  | .done value, next => next value
  | .call op rest, next => .call op fun answer ↦ (rest answer).bind next
  | .note mark rest, next => .note mark (rest.bind next)

instance : Monad (Script Op Answer ε) where
  pure := .done
  bind := bind

@[simp] theorem pure_eq_done (value : α) : (pure value : Script Op Answer ε α) = .done value := rfl

@[simp] theorem bind_eq_bind (script : Script Op Answer ε α) (next : α → Script Op Answer ε β) :
    script >>= next = script.bind next := rfl

/-- Call an operation. -/
def ask (op : Op) : Script Op Answer ε (Answer op) := .call op .done

/-- Leave a note. -/
def tell (mark : ε) : Script Op Answer ε Unit := .note mark (.done ())

/-- One step of a script: a call with its answer, or a note. -/
inductive Event (Op : Type) (Answer : Op → Type) (ε : Type) : Type
  | asked (op : Op) (answer : Answer op)
  | noted (mark : ε)

/-- The ways a script can go when every call may be answered by anything. -/
inductive Path : Script Op Answer ε α → List (Event Op Answer ε) → α → Prop
  | done {value : α} : Path (.done value) [] value
  | call {op : Op} {next : Answer op → Script Op Answer ε α} {answer : Answer op}
      {events : List (Event Op Answer ε)} {value : α} (hnext : Path (next answer) events value) :
      Path (.call op next) (.asked op answer :: events) value
  | note {mark : ε} {next : Script Op Answer ε α} {events : List (Event Op Answer ε)} {value : α}
      (hnext : Path next events value) : Path (.note mark next) (.noted mark :: events) value

theorem path_done {value other : α} {events : List (Event Op Answer ε)} :
    Path (.done value : Script Op Answer ε α) events other ↔ events = [] ∧ other = value := by
  constructor
  · intro hpath
    cases hpath
    exact ⟨rfl, rfl⟩
  · rintro ⟨rfl, rfl⟩
    exact .done

theorem path_call {op : Op} {next : Answer op → Script Op Answer ε α} {value : α}
    {events : List (Event Op Answer ε)} :
    Path (.call op next) events value ↔
      ∃ answer later, events = .asked op answer :: later ∧ Path (next answer) later value := by
  constructor
  · intro hpath
    cases hpath with
    | call hnext => exact ⟨_, _, rfl, hnext⟩
  · rintro ⟨answer, later, rfl, hnext⟩
    exact .call hnext

theorem path_note {mark : ε} {next : Script Op Answer ε α} {value : α}
    {events : List (Event Op Answer ε)} :
    Path (.note mark next) events value ↔
      ∃ later, events = .noted mark :: later ∧ Path next later value := by
  constructor
  · intro hpath
    cases hpath with
    | note hnext => exact ⟨_, rfl, hnext⟩
  · rintro ⟨later, rfl, hnext⟩
    exact .note hnext

/-- The ways of a script that continues another are the ways of the other continued. -/
theorem path_bind {script : Script Op Answer ε α} {next : α → Script Op Answer ε β} {value : β}
    {events : List (Event Op Answer ε)} :
    Path (script.bind next) events value ↔
      ∃ earlier later middle, events = earlier ++ later ∧ Path script earlier middle ∧
        Path (next middle) later value := by
  induction script generalizing events with
  | done start =>
    constructor
    · intro hpath
      exact ⟨[], events, start, rfl, .done, hpath⟩
    · rintro ⟨earlier, later, middle, rfl, hfirst, hnext⟩
      obtain ⟨rfl, rfl⟩ := path_done.mp hfirst
      exact hnext
  | call op rest ih =>
    rw [bind, path_call]
    constructor
    · rintro ⟨answer, events, rfl, hpath⟩
      obtain ⟨earlier, later, middle, rfl, hfirst, hnext⟩ := (ih answer).mp hpath
      exact ⟨_ :: earlier, later, middle, rfl, .call hfirst, hnext⟩
    · rintro ⟨_, later, middle, rfl, hfirst, hnext⟩
      obtain ⟨answer, earlier, rfl, hrest⟩ := path_call.mp hfirst
      exact ⟨answer, _, rfl, (ih answer).mpr ⟨earlier, later, middle, rfl, hrest, hnext⟩⟩
  | note mark rest ih =>
    rw [bind, path_note]
    constructor
    · rintro ⟨events, rfl, hpath⟩
      obtain ⟨earlier, later, middle, rfl, hfirst, hnext⟩ := ih.mp hpath
      exact ⟨_ :: earlier, later, middle, rfl, .note hfirst, hnext⟩
    · rintro ⟨_, later, middle, rfl, hfirst, hnext⟩
      obtain ⟨earlier, rfl, hrest⟩ := path_note.mp hfirst
      exact ⟨_, rfl, ih.mpr ⟨earlier, later, middle, rfl, hrest, hnext⟩⟩

/-- The way a script goes when each operation has one fixed answer. -/
def follow (answers : (op : Op) → Answer op) :
    Script Op Answer ε α → List (Event Op Answer ε) × α
  | .done value => ([], value)
  | .call op next =>
    let rest := (next (answers op)).follow answers
    (.asked op (answers op) :: rest.1, rest.2)
  | .note mark next =>
    let rest := next.follow answers
    (.noted mark :: rest.1, rest.2)

theorem path_follow (answers : (op : Op) → Answer op) (script : Script Op Answer ε α) :
    Path script (script.follow answers).1 (script.follow answers).2 := by
  induction script with
  | done value => exact .done
  | call op next ih => exact .call (ih (answers op))
  | note mark next ih => exact .note ih

section Holds

/-- After the given steps, a script only makes calls and leaves notes that these steps allow, and ends
with a condition. -/
def Holds (asks : List (Event Op Answer ε) → Op → Prop) (tells : List (Event Op Answer ε) → ε → Prop)
    (post : List (Event Op Answer ε) → α → Prop) :
    Script Op Answer ε α → List (Event Op Answer ε) → Prop
  | .done value, earlier => post earlier value
  | .call op next, earlier => asks earlier op ∧
      ∀ answer, (next answer).Holds asks tells post (earlier ++ [.asked op answer])
  | .note mark next, earlier => tells earlier mark ∧
      next.Holds asks tells post (earlier ++ [.noted mark])

variable {asks : List (Event Op Answer ε) → Op → Prop}
  {tells : List (Event Op Answer ε) → ε → Prop} {earlier : List (Event Op Answer ε)}

theorem Holds.bind {script : Script Op Answer ε α} {next : α → Script Op Answer ε β}
    {post : List (Event Op Answer ε) → β → Prop}
    (hholds : script.Holds asks tells
      (fun later value ↦ (next value).Holds asks tells post later) earlier) :
    (script.bind next).Holds asks tells post earlier := by
  induction script generalizing earlier with
  | done value => exact hholds
  | call op rest ih => exact ⟨hholds.1, fun answer ↦ ih answer (hholds.2 answer)⟩
  | note mark rest ih => exact ⟨hholds.1, ih hholds.2⟩

theorem Holds.imp {script : Script Op Answer ε α} {post weaker : List (Event Op Answer ε) → α → Prop}
    (hholds : script.Holds asks tells post earlier)
    (himp : ∀ later value, post later value → weaker later value) :
    script.Holds asks tells weaker earlier := by
  induction script generalizing earlier with
  | done value => exact himp earlier value hholds
  | call op rest ih => exact ⟨hholds.1, fun answer ↦ ih answer (hholds.2 answer)⟩
  | note mark rest ih => exact ⟨hholds.1, ih hholds.2⟩

/-- Steps each of which is allowed by those before it. -/
structure Allowed (asks : List (Event Op Answer ε) → Op → Prop)
    (tells : List (Event Op Answer ε) → ε → Prop) (earlier events : List (Event Op Answer ε)) :
    Prop where
  asked : ∀ first op answer rest, events = first ++ .asked op answer :: rest →
    asks (earlier ++ first) op
  noted : ∀ first mark rest, events = first ++ .noted mark :: rest → tells (earlier ++ first) mark

theorem Allowed.cons {event : Event Op Answer ε} {events : List (Event Op Answer ε)}
    (hasked : ∀ op answer, event = .asked op answer → asks earlier op)
    (hnoted : ∀ mark, event = .noted mark → tells earlier mark)
    (hrest : Allowed asks tells (earlier ++ [event]) events) :
    Allowed asks tells earlier (event :: events) := by
  constructor
  · intro first op answer rest hsplit
    rcases List.cons_eq_append_iff.mp hsplit with ⟨rfl, hhead⟩ | ⟨first, rfl, htail⟩
    · rw [List.append_nil]
      exact hasked op answer (List.cons.inj hhead).1.symm
    · rw [List.append_cons]
      exact hrest.asked first op answer rest htail
  · intro first mark rest hsplit
    rcases List.cons_eq_append_iff.mp hsplit with ⟨rfl, hhead⟩ | ⟨first, rfl, htail⟩
    · rw [List.append_nil]
      exact hnoted mark (List.cons.inj hhead).1.symm
    · rw [List.append_cons]
      exact hrest.noted first mark rest htail

/-- On every way a script can go it does what it is allowed to do, and ends as it has to. -/
theorem Holds.path {script : Script Op Answer ε α} {post : List (Event Op Answer ε) → α → Prop}
    {events : List (Event Op Answer ε)} {value : α}
    (hholds : script.Holds asks tells post earlier) (hpath : Path script events value) :
    Allowed asks tells earlier events ∧ post (earlier ++ events) value := by
  induction hpath generalizing earlier with
  | done =>
    refine ⟨⟨fun first _ _ _ hnil ↦ ?_, fun first _ _ hnil ↦ ?_⟩, ?_⟩
    · cases first <;> cases hnil
    · cases first <;> cases hnil
    · rw [List.append_nil]
      exact hholds
  | @call op next answer events value _ ih =>
    obtain ⟨hrest, hpost⟩ := ih (hholds.2 answer)
    refine ⟨.cons ?_ (fun _ hnoted ↦ by cases hnoted) hrest, ?_⟩
    · intro other _ hasked
      cases hasked
      exact hholds.1
    · rw [List.append_cons]
      exact hpost
  | @note mark next events value _ ih =>
    obtain ⟨hrest, hpost⟩ := ih hholds.2
    refine ⟨.cons (fun _ _ hasked ↦ by cases hasked) ?_ hrest, ?_⟩
    · intro other hnoted
      cases hnoted
      exact hholds.1
    · rw [List.append_cons]
      exact hpost

end Holds

section Interpret

variable {m : Type → Type} [Monad m]

/-- Carry a script out with an implementation of the interface. -/
def interpret (perform : (op : Op) → m (Answer op)) (report : ε → m Unit) :
    Script Op Answer ε α → m α
  | .done value => pure value
  | .call op next => perform op >>= fun answer ↦ (next answer).interpret perform report
  | .note mark next => report mark >>= fun _ ↦ next.interpret perform report

end Interpret

end Script

end ZigbeeRemote.Foundation
