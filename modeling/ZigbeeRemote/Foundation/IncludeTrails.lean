import Mathlib.Data.List.Induction
import Mathlib.Data.List.Lex
import Mathlib.Data.List.Nodup
import Mathlib.Data.List.Sort

/-!
# Expanding includes in place

A document has lines, and a line may include another document. An expansion copies the lines of a
list of documents and puts each included document in the place of the line that includes it. It
opens a document only once, except for those that may come again, and never inside of itself.

A *trail* is a way to a document: the number of a line of the top level, the number of a line in the
document included there, and so on. Trails are ordered as words are, and `Expands` visits the lines
in this order. It remembers which documents it has opened, but what it opens can be said without
that: `Expands.opened_iff`. A document that may not come again is opened on the first trail to it
that does not lead through a document twice.
-/

set_option autoImplicit false
set_option relaxedAutoImplicit false

namespace ZigbeeRemote.Foundation

/-! ### Order of trails -/

section Order

variable {first trail : List ℕ} {i : ℕ}

theorem lt_concat_succ (hlt : first < trail ++ [i + 1]) :
    first < trail ++ [i] ∨ ∃ rest, first = trail ++ i :: rest := by
  induction trail generalizing first with
  | nil =>
    cases first with
    | nil => exact Or.inl (by simp)
    | cons j first =>
      rw [List.nil_append, List.cons_lt_cons_iff] at hlt
      rcases hlt with hj | ⟨-, hnil⟩
      · rcases Nat.lt_succ_iff_lt_or_eq.mp hj with hless | rfl
        · exact Or.inl (List.cons_lt_cons_iff.mpr (Or.inl hless))
        · exact Or.inr ⟨first, rfl⟩
      · exact absurd hnil (List.not_lt_nil first)
  | cons k trail ih =>
    cases first with
    | nil => exact Or.inl (by simp)
    | cons j first =>
      rw [List.cons_append, List.cons_lt_cons_iff] at hlt
      rcases hlt with hj | ⟨rfl, hrest⟩
      · exact Or.inl (List.cons_lt_cons_iff.mpr (Or.inl hj))
      · rcases ih hrest with hless | ⟨rest, rfl⟩
        · exact Or.inl (List.cons_lt_cons_iff.mpr (Or.inr ⟨rfl, hless⟩))
        · exact Or.inr ⟨rest, rfl⟩

theorem lt_concat_zero (hlt : first < trail ++ [0]) : first < trail ∨ first = trail := by
  induction trail generalizing first with
  | nil =>
    cases first with
    | nil => exact Or.inr rfl
    | cons j first =>
      rw [List.nil_append, List.cons_lt_cons_iff] at hlt
      rcases hlt with hj | ⟨-, hnil⟩
      · exact absurd hj (Nat.not_lt_zero j)
      · exact absurd hnil (List.not_lt_nil first)
  | cons k trail ih =>
    cases first with
    | nil => exact Or.inl (by simp)
    | cons j first =>
      rw [List.cons_append, List.cons_lt_cons_iff] at hlt
      rcases hlt with hj | ⟨rfl, hrest⟩
      · exact Or.inl (List.cons_lt_cons_iff.mpr (Or.inl hj))
      · rcases ih hrest with hless | rfl
        · exact Or.inl (List.cons_lt_cons_iff.mpr (Or.inr ⟨rfl, hless⟩))
        · exact Or.inr rfl

theorem append_lt_append {first second : List ℕ} (hlt : first < second) (trail : List ℕ) :
    trail ++ first < trail ++ second := by
  induction trail with
  | nil => exact hlt
  | cons k trail ih => exact List.cons_lt_cons_iff.mpr (Or.inr ⟨rfl, ih⟩)

theorem lt_append_cons (trail rest : List ℕ) : trail < trail ++ i :: rest := by
  have hlt := append_lt_append (List.nil_lt_cons i rest) trail
  rwa [List.append_nil] at hlt

end Order

/-! ### Documents and trails -/

/-- Documents whose lines may include other documents. -/
structure Documents (V : Type) where
  /-- The lines of a document, each with the document it includes, if it does. -/
  lines : V → List (Option V)
  /-- The document may come more than once. -/
  again : V → Bool
  /-- The lines of the top level. -/
  top : List (Option V)

namespace Documents

variable {V : Type}

/-- The documents along a trail that starts in the given lines. -/
def pathFrom (docs : Documents V) : List (Option V) → List ℕ → Option (List V)
  | _, [] => some []
  | lines, i :: trail =>
    match lines[i]? with
    | some (some v) => (docs.pathFrom (docs.lines v) trail).map (v :: ·)
    | _ => none

/-- The documents along a trail. -/
def path (docs : Documents V) (trail : List ℕ) : Option (List V) := docs.pathFrom docs.top trail

/-- The lines at the end of a path that starts in the given lines. -/
def linesFrom (docs : Documents V) (lines : List (Option V)) (path : List V) : List (Option V) :=
  (path.getLast?.map docs.lines).getD lines

/-- The lines at the end of a path. -/
def linesAt (docs : Documents V) (path : List V) : List (Option V) := docs.linesFrom docs.top path

/-- The trail leads to the document, and through none twice. -/
def Leads (docs : Documents V) (trail : List ℕ) (v : V) : Prop :=
  ∃ stack, docs.path trail = some (stack ++ [v]) ∧ (stack ++ [v]).Nodup

/-- The first trail that leads to the document. -/
def First (docs : Documents V) (trail : List ℕ) (v : V) : Prop :=
  docs.Leads trail v ∧ ∀ other, docs.Leads other v → ¬ other < trail

/-- The trails on which documents are opened, with the documents along them: a document is not opened
in itself, and on the first trail to it only unless it may come again. -/
inductive Opens (docs : Documents V) : List ℕ → List V → Prop
  | top : Opens docs [] []
  | line {trail : List ℕ} {stack : List V} {i : ℕ} {v : V} (hopens : Opens docs trail stack)
      (hline : (docs.linesAt stack)[i]? = some (some v)) (hstack : v ∉ stack)
      (hfirst : docs.again v = false → docs.First (trail ++ [i]) v) :
      Opens docs (trail ++ [i]) (stack ++ [v])

/-- Where an expansion goes on behind the document at the end of a trail, given in reverse: at the next
line of the including document, or behind that one. -/
def nextOfReverse (docs : Documents V) : List ℕ → Option (List ℕ × ℕ)
  | [] => none
  | i :: reversed =>
    (docs.path reversed.reverse).bind fun stack ↦
      if i + 1 < (docs.linesAt stack).length then some (reversed.reverse, i + 1)
      else docs.nextOfReverse reversed

/-- Where an expansion goes on behind the document at the end of a trail. -/
def next (docs : Documents V) (trail : List ℕ) : Option (List ℕ × ℕ) :=
  docs.nextOfReverse trail.reverse

/-- The documents that can be reached from the top level. -/
inductive Reachable (docs : Documents V) : V → Prop
  | top {v : V} (hline : some v ∈ docs.top) : Reachable docs v
  | line {v w : V} (hreachable : Reachable docs v) (hline : some w ∈ docs.lines v) :
      Reachable docs w

variable {docs : Documents V} {trail : List ℕ} {stack : List V} {v : V} {i : ℕ}

@[simp] theorem linesAt_nil : docs.linesAt [] = docs.top := rfl

@[simp] theorem linesAt_concat : docs.linesAt (stack ++ [v]) = docs.lines v := by
  simp [linesAt, linesFrom]

theorem linesFrom_cons (lines : List (Option V)) :
    docs.linesFrom lines (v :: stack) = docs.linesFrom (docs.lines v) stack := by
  cases stack with
  | nil => rfl
  | cons w stack => rw [linesFrom, linesFrom, List.getLast?_cons_cons]; rfl

/-- A trail in two parts. -/
theorem pathFrom_append {lines : List (Option V)} {rest : List ℕ} {all : List V} :
    docs.pathFrom lines (trail ++ rest) = some all ↔
      ∃ stack more, docs.pathFrom lines trail = some stack ∧
        docs.pathFrom (docs.linesFrom lines stack) rest = some more ∧ all = stack ++ more := by
  induction trail generalizing lines all with
  | nil =>
    constructor
    · intro hall
      exact ⟨[], all, rfl, hall, rfl⟩
    · rintro ⟨stack, more, hstack, hmore, rfl⟩
      obtain rfl := Option.some.inj hstack
      exact hmore
  | cons i trail ih =>
    rw [List.cons_append, pathFrom, pathFrom]
    cases hline : lines[i]? with
    | none => simp
    | some line =>
      cases line with
      | none => simp
      | some v =>
        simp only [Option.map_eq_some_iff]
        constructor
        · rintro ⟨later, hlater, rfl⟩
          obtain ⟨stack, more, hstack, hmore, rfl⟩ := ih.mp hlater
          exact ⟨v :: stack, more, ⟨stack, hstack, rfl⟩, by rw [linesFrom_cons]; exact hmore, rfl⟩
        · rintro ⟨-, more, ⟨stack, hstack, rfl⟩, hmore, rfl⟩
          rw [linesFrom_cons] at hmore
          exact ⟨stack ++ more, ih.mpr ⟨stack, more, hstack, hmore, rfl⟩, rfl⟩

theorem pathFrom_cons {lines : List (Option V)} {all : List V} :
    docs.pathFrom lines (i :: trail) = some all ↔
      ∃ v more, lines[i]? = some (some v) ∧ docs.pathFrom (docs.lines v) trail = some more ∧
        all = v :: more := by
  rw [pathFrom]
  cases hline : lines[i]? with
  | none => simp
  | some line =>
    cases line with
    | none => simp
    | some v =>
      constructor
      · intro hall
        obtain ⟨more, hmore, rfl⟩ := Option.map_eq_some_iff.mp hall
        exact ⟨v, more, rfl, hmore, rfl⟩
      · rintro ⟨w, more, hw, hmore, rfl⟩
        obtain rfl := Option.some.inj (Option.some.inj hw)
        exact Option.map_eq_some_iff.mpr ⟨more, hmore, rfl⟩

/-- One more line at the end of a trail. -/
theorem path_concat {all : List V} : docs.path (trail ++ [i]) = some all ↔
    ∃ stack v, docs.path trail = some stack ∧ (docs.linesAt stack)[i]? = some (some v) ∧
      all = stack ++ [v] := by
  rw [path, pathFrom_append]
  constructor
  · rintro ⟨stack, more, hstack, hmore, rfl⟩
    obtain ⟨v, rest, hline, hrest, rfl⟩ := pathFrom_cons.mp hmore
    obtain rfl := Option.some.inj hrest
    exact ⟨stack, v, hstack, hline, rfl⟩
  · rintro ⟨stack, v, hstack, hline, rfl⟩
    exact ⟨stack, [v], hstack, pathFrom_cons.mpr ⟨v, [], hline, rfl, rfl⟩, rfl⟩

theorem Opens.path_eq (hopens : docs.Opens trail stack) : docs.path trail = some stack := by
  induction hopens with
  | top => rfl
  | line _ hline _ _ ih => exact path_concat.mpr ⟨_, _, ih, hline, rfl⟩

/-- The document at the end of a trail. -/
theorem Opens.last_eq {before : List V} {w : V} (hopens : docs.Opens trail (stack ++ [v]))
    (hpath : docs.path trail = some (before ++ [w])) : w = v := by
  have hsame := Option.some.inj (hpath.symm.trans hopens.path_eq)
  simpa using congrArg List.getLast? hsame

theorem Opens.nodup (hopens : docs.Opens trail stack) : stack.Nodup := by
  induction hopens with
  | top => exact List.nodup_nil
  | line _ _ hstack _ ih =>
    rw [← List.concat_eq_append]
    exact ih.concat hstack

theorem Opens.leads (hopens : docs.Opens trail (stack ++ [v])) : docs.Leads trail v :=
  ⟨stack, hopens.path_eq, hopens.nodup⟩

/-- A trail through a line of the document at the end of another one. -/
theorem path_through {rest : List ℕ} {all : List V} (hstack : docs.path trail = some stack)
    (hall : docs.path (trail ++ i :: rest) = some all) :
    ∃ v more, (docs.linesAt stack)[i]? = some (some v) ∧
      docs.pathFrom (docs.lines v) rest = some more ∧ all = stack ++ v :: more := by
  obtain ⟨start, later, hstart, hlater, rfl⟩ := pathFrom_append.mp hall
  obtain rfl : stack = start := Option.some.inj (hstack.symm.trans hstart)
  obtain ⟨v, more, hline, hmore, rfl⟩ := pathFrom_cons.mp hlater
  exact ⟨v, more, hline, hmore, rfl⟩

/-- There is only one first trail. -/
theorem First.unique {other : List ℕ} (hfirst : docs.First trail v) (hother : docs.First other v) :
    trail = other :=
  le_antisymm (not_lt.mp (hfirst.2 other hother.1)) (not_lt.mp (hother.2 trail hfirst.1))

/-- What is opened on a trail that does not end at the top level. -/
theorem Opens.concat_inv (hopens : docs.Opens (trail ++ [i]) stack) :
    ∃ earlier v, stack = earlier ++ [v] ∧ docs.Opens trail earlier ∧
      (docs.linesAt earlier)[i]? = some (some v) ∧ v ∉ earlier ∧
      (docs.again v = false → docs.First (trail ++ [i]) v) := by
  generalize htrail : trail ++ [i] = whole at hopens
  cases hopens with
  | top => simp at htrail
  | @line start earlier j v hopens hline hstack hfirst =>
    obtain ⟨rfl, hi⟩ := List.append_inj' htrail rfl
    obtain rfl : i = j := by simpa using hi
    exact ⟨earlier, v, rfl, hopens, hline, hstack, hfirst⟩

theorem next_concat (hpath : docs.path trail = some stack) :
    docs.next (trail ++ [i]) =
      if i + 1 < (docs.linesAt stack).length then some (trail, i + 1) else docs.next trail := by
  rw [next, List.reverse_concat, nextOfReverse, List.reverse_reverse, hpath, Option.bind_some]
  rfl

theorem Opens.first (hopens : docs.Opens trail (stack ++ [v])) (hagain : docs.again v = false) :
    docs.First trail v := by
  rcases List.eq_nil_or_concat trail with rfl | ⟨start, i, rfl⟩
  · simpa [path, pathFrom] using hopens.path_eq
  · rw [List.concat_eq_append] at hopens ⊢
    obtain ⟨earlier, w, hstack, -, -, -, hfirst⟩ := hopens.concat_inv
    obtain ⟨-, hw⟩ := List.append_inj' hstack rfl
    obtain rfl : v = w := by simpa using hw
    exact hfirst hagain

theorem Opens.eq_top_or_concat (hopens : docs.Opens trail stack) :
    (trail = [] ∧ stack = []) ∨ ∃ before v, stack = before ++ [v] := by
  cases hopens with
  | top => exact Or.inl ⟨rfl, rfl⟩
  | @line _ before _ v _ _ _ _ => exact Or.inr ⟨before, v, rfl⟩

end Documents

/-! ### Expansion -/

/-- What comes of a line that includes a document. -/
inductive Outcome : Type
  | opened
  /-- It has been opened before, and may not come again. -/
  | already
  /-- It is being expanded. -/
  | recursive
  deriving DecidableEq

/-- What an expansion does at a line: it copies it, or it meets an included document. A line is given
by the trail to its document and its number there. -/
inductive Event (V : Type) : Type
  | plain (trail : List ℕ) (i : ℕ)
  | met (trail : List ℕ) (i : ℕ) (target : V) (outcome : Outcome)
  deriving DecidableEq

namespace Event

variable {V : Type}

def trail : Event V → List ℕ
  | .plain trail _ => trail
  | .met trail _ _ _ => trail

def line : Event V → ℕ
  | .plain _ i => i
  | .met _ i _ _ => i

def position (event : Event V) : List ℕ := event.trail ++ [event.line]

def target : Event V → Option V
  | .plain _ _ => none
  | .met _ _ target _ => some target

theorem eq_plain {event : Event V} (htarget : event.target = none) :
    event = .plain event.trail event.line := by
  cases event with
  | plain trail i => rfl
  | met trail i target outcome => simp [Event.target] at htarget

theorem eq_met {event : Event V} {v : V} (htarget : event.target = some v) :
    ∃ outcome, event = .met event.trail event.line v outcome := by
  cases event with
  | plain trail i => simp [Event.target] at htarget
  | met trail i target outcome =>
    obtain rfl := Option.some.inj htarget
    exact ⟨outcome, rfl⟩

/-- The document that is opened, with the trail to it. -/
def opening : Event V → Option (List ℕ × V)
  | .met trail i target .opened => some (trail ++ [i], target)
  | _ => none

theorem opening_fst {event : Event V} {trail : List ℕ} {v : V}
    (hopening : event.opening = some (trail, v)) : trail = event.position := by
  unfold opening at hopening
  split at hopening
  · exact (Prod.mk.inj (Option.some.inj hopening)).1.symm
  · simp at hopening

end Event

/-- The line that is copied on a trail, if it is. -/
def Event.copiedOn {V : Type} (trail : List ℕ) : Event V → Option ℕ
  | .plain other i => if other = trail then some i else none
  | .met _ _ _ _ => none

theorem Event.eq_plain_of_copiedOn {V : Type} {event : Event V} {trail : List ℕ} {i : ℕ}
    (hcopied : event.copiedOn trail = some i) : event = .plain trail i := by
  cases event with
  | met other j target outcome => simp [copiedOn] at hcopied
  | plain other j =>
    obtain ⟨rfl, rfl⟩ : other = trail ∧ j = i := by simpa [copiedOn] using hcopied
    rfl

/-- The lines that are copied on a trail, in the order in which they are. -/
def copiedAt {V : Type} (trail : List ℕ) (events : List (Event V)) : List ℕ :=
  events.filterMap (Event.copiedOn trail)

/-- The documents that are opened, with the trails to them. -/
def openings {V : Type} (events : List (Event V)) : List (List ℕ × V) :=
  events.filterMap Event.opening

section Openings

variable {V : Type} {events more : List (Event V)} {trail : List ℕ} {i : ℕ} {v : V}

@[simp] theorem openings_nil : openings ([] : List (Event V)) = [] := rfl

@[simp] theorem openings_plain : openings (.plain trail i :: events) = openings events := rfl

theorem openings_skipped {outcome : Outcome} (hopened : outcome ≠ .opened) :
    openings (.met trail i v outcome :: events) = openings events := by
  cases outcome with
  | opened => exact absurd rfl hopened
  | already => rfl
  | recursive => rfl

@[simp] theorem openings_opened :
    openings (.met trail i v .opened :: events) = (trail ++ [i], v) :: openings events := rfl

@[simp] theorem openings_append : openings (events ++ more) = openings events ++ openings more :=
  List.filterMap_append

end Openings

variable {V : Type}

/-- The lines from line `i` on of the document at the end of a trail are expanded. `stack` has the
documents along the trail, `done` those that may not come again and are complete, `after` these at
the end. -/
inductive Expands (docs : Documents V) :
    List V → List ℕ → ℕ → List (Option V) → List V → List (Event V) → List V → Prop
  | nil {stack : List V} {trail : List ℕ} {i : ℕ} {done : List V} :
      Expands docs stack trail i [] done [] done
  | plain {stack : List V} {trail : List ℕ} {i : ℕ} {rest : List (Option V)} {done after : List V}
      {events : List (Event V)} (hrest : Expands docs stack trail (i + 1) rest done events after) :
      Expands docs stack trail i (none :: rest) done (.plain trail i :: events) after
  | already {stack : List V} {trail : List ℕ} {i : ℕ} {v : V} {rest : List (Option V)}
      {done after : List V} {events : List (Event V)} (hagain : docs.again v = false)
      (hdone : v ∈ done) (hrest : Expands docs stack trail (i + 1) rest done events after) :
      Expands docs stack trail i (some v :: rest) done (.met trail i v .already :: events) after
  | recursive {stack : List V} {trail : List ℕ} {i : ℕ} {v : V} {rest : List (Option V)}
      {done after : List V} {events : List (Event V)} (hfresh : docs.again v = false → v ∉ done)
      (hstack : v ∈ stack) (hrest : Expands docs stack trail (i + 1) rest done events after) :
      Expands docs stack trail i (some v :: rest) done (.met trail i v .recursive :: events) after
  | opened {stack : List V} {trail : List ℕ} {i : ℕ} {v : V} {rest : List (Option V)}
      {done middle after : List V} {inner events : List (Event V)}
      (hfresh : docs.again v = false → v ∉ done) (hstack : v ∉ stack)
      (hinner : Expands docs (stack ++ [v]) (trail ++ [i]) 0 (docs.lines v) done inner middle)
      (hrest : Expands docs stack trail (i + 1) rest
        (if docs.again v then middle else v :: middle) events after) :
      Expands docs stack trail i (some v :: rest) done
        (.met trail i v .opened :: (inner ++ events)) after

/-- A document is included at the end of a trail: what comes of it. -/
inductive Visits (docs : Documents V) (stack : List V) (trail : List ℕ) (v : V) (done : List V) :
    Outcome → List (Event V) → List V → Prop
  | already (hagain : docs.again v = false) (hdone : v ∈ done) :
      Visits docs stack trail v done .already [] done
  | recursive (hfresh : docs.again v = false → v ∉ done) (hstack : v ∈ stack) :
      Visits docs stack trail v done .recursive [] done
  | opened {middle : List V} {events : List (Event V)} (hfresh : docs.again v = false → v ∉ done)
      (hstack : v ∉ stack)
      (hinner : Expands docs (stack ++ [v]) trail 0 (docs.lines v) done events middle) :
      Visits docs stack trail v done .opened events (if docs.again v then middle else v :: middle)

theorem Visits.expands {docs : Documents V} {stack : List V} {trail : List ℕ} {i : ℕ} {v : V}
    {rest : List (Option V)} {done middle after : List V} {outcome : Outcome}
    {inner events : List (Event V)}
    (hvisits : Visits docs stack (trail ++ [i]) v done outcome inner middle)
    (hrest : Expands docs stack trail (i + 1) rest middle events after) :
    Expands docs stack trail i (some v :: rest) done
      (.met trail i v outcome :: (inner ++ events)) after := by
  cases hvisits with
  | already hagain hdone => exact .already hagain hdone hrest
  | recursive hfresh hstack => exact .recursive hfresh hstack hrest
  | opened hfresh hstack hinner => exact .opened hfresh hstack hinner hrest

theorem Visits.mem_of_recursive {docs : Documents V} {stack : List V} {trail : List ℕ} {v : V}
    {done after : List V} {events : List (Event V)}
    (hvisits : Visits docs stack trail v done .recursive events after) : v ∈ stack := by
  cases hvisits with
  | recursive _ hstack => exact hstack

/-- What an expansion does, without what it remembers. -/
inductive Traverses (docs : Documents V) :
    List V → List ℕ → ℕ → List (Option V) → List (Event V) → Prop
  | nil {stack : List V} {trail : List ℕ} {i : ℕ} : Traverses docs stack trail i [] []
  | plain {stack : List V} {trail : List ℕ} {i : ℕ} {rest : List (Option V)}
      {events : List (Event V)} (hrest : Traverses docs stack trail (i + 1) rest events) :
      Traverses docs stack trail i (none :: rest) (.plain trail i :: events)
  | skipped {stack : List V} {trail : List ℕ} {i : ℕ} {v : V} {rest : List (Option V)}
      {outcome : Outcome} {events : List (Event V)} (hopened : outcome ≠ .opened)
      (hrecursive : outcome = .recursive ↔ v ∈ stack)
      (halready : outcome = .already → docs.again v = false)
      (hrest : Traverses docs stack trail (i + 1) rest events) :
      Traverses docs stack trail i (some v :: rest) (.met trail i v outcome :: events)
  | opened {stack : List V} {trail : List ℕ} {i : ℕ} {v : V} {rest : List (Option V)}
      {inner events : List (Event V)} (hopens : docs.Opens (trail ++ [i]) (stack ++ [v]))
      (hinner : Traverses docs (stack ++ [v]) (trail ++ [i]) 0 (docs.lines v) inner)
      (hrest : Traverses docs stack trail (i + 1) rest events) :
      Traverses docs stack trail i (some v :: rest) (.met trail i v .opened :: (inner ++ events))

/-- The place of an expansion: the document is opened on the trail, and these are its lines from line
`i` on. -/
structure Frame (docs : Documents V) (stack : List V) (trail : List ℕ) (i : ℕ)
    (rest : List (Option V)) : Prop where
  opens : docs.Opens trail stack
  rest_eq : rest = (docs.linesAt stack).drop i

section Frame

variable {docs : Documents V} {stack : List V} {trail : List ℕ} {i : ℕ} {rest : List (Option V)}
  {v : V} {line : Option V}

theorem Frame.top (docs : Documents V) : Frame docs [] [] 0 docs.top := ⟨.top, rfl⟩

theorem Frame.line_eq (hframe : Frame docs stack trail i (line :: rest)) :
    (docs.linesAt stack)[i]? = some line := by
  have hdrop := congrArg (·[0]?) hframe.rest_eq
  rw [List.getElem?_drop, Nat.add_zero] at hdrop
  exact hdrop.symm

theorem Frame.next (hframe : Frame docs stack trail i (line :: rest)) :
    Frame docs stack trail (i + 1) rest := by
  refine ⟨hframe.opens, ?_⟩
  rw [← List.drop_drop, ← hframe.rest_eq, List.drop_one, List.tail_cons]

theorem Frame.inner (hopens : docs.Opens trail (stack ++ [v])) :
    Frame docs (stack ++ [v]) trail 0 (docs.lines v) := ⟨hopens, by simp⟩

end Frame

/-! ### What is opened -/

/-- What is known at line `i` of the document at the end of a trail: which documents have been opened,
and which of them are done. -/
structure Explored (docs : Documents V) (stack : List V) (trail : List ℕ) (i : ℕ) (done : List V)
    (seen : V → Prop) : Prop where
  stack_seen : ∀ v ∈ stack, seen v
  /-- Whatever a document includes that is not being expanded has been opened. -/
  closed : ∀ v, seen v → v ∉ stack → ∀ w, some w ∈ docs.lines v → seen w
  /-- Whatever an earlier trail leads to has been opened. -/
  earlier : ∀ other v, docs.Leads other v → other < trail ++ [i] → seen v
  done_seen : ∀ v ∈ done, seen v
  done_apart : ∀ v ∈ done, v ∉ stack ∧ docs.again v = false
  seen_done : ∀ v, seen v → v ∉ stack → docs.again v = false → v ∈ done

section Explored

variable {docs : Documents V} {stack : List V} {trail : List ℕ} {i : ℕ} {rest : List (Option V)}
  {v : V} {done after : List V} {seen : V → Prop} {events : List (Event V)}

theorem Explored.top : Explored docs [] [] 0 [] fun _ ↦ False := by
  refine ⟨by simp, by simp, ?_, by simp, by simp, by simp⟩
  rintro other v ⟨stack, hpath, -⟩ hlt
  rcases lt_concat_zero (hlt : other < [] ++ [0]) with hnone | rfl
  · exact absurd hnone (List.not_lt_nil other)
  · simp [Documents.path, Documents.pathFrom] at hpath

theorem Explored.congr {other : V → Prop} (hexplored : Explored docs stack trail i done seen)
    (hiff : ∀ v, seen v ↔ other v) : Explored docs stack trail i done other :=
  (funext fun v ↦ propext (hiff v) : seen = other) ▸ hexplored

/-- A line is passed when all trails through it lead to what has been opened. -/
theorem Explored.next (hexplored : Explored docs stack trail i done seen)
    (hline : ∀ rest v, docs.Leads (trail ++ i :: rest) v → seen v) :
    Explored docs stack trail (i + 1) done seen := by
  refine ⟨hexplored.stack_seen, hexplored.closed, ?_, hexplored.done_seen, hexplored.done_apart,
    hexplored.seen_done⟩
  intro other v hleads hlt
  rcases lt_concat_succ hlt with hless | ⟨rest, rfl⟩
  · exact hexplored.earlier other v hleads hless
  · exact hline rest v hleads

/-- Past a line that includes nothing, or a document that is being expanded. -/
theorem Explored.next_of_blocked (hexplored : Explored docs stack trail i done seen)
    (hopens : docs.Opens trail stack)
    (hblocked : ∀ v, (docs.linesAt stack)[i]? = some (some v) → v ∈ stack) :
    Explored docs stack trail (i + 1) done seen := by
  refine hexplored.next ?_
  rintro rest w ⟨before, hpath, hnodup⟩
  obtain ⟨v, more, hline, -, hall⟩ := Documents.path_through hopens.path_eq hpath
  rw [hall] at hnodup
  exact absurd (hblocked v hline)
    fun hmem ↦ List.disjoint_of_nodup_append hnodup hmem List.mem_cons_self

/-- Documents that have been opened lead to others that have been. -/
theorem Explored.seen_along (hexplored : Explored docs stack trail i done seen) {rest : List ℕ}
    {more : List V} (hseen : seen v) (hstack : v ∉ stack)
    (hmore : docs.pathFrom (docs.lines v) rest = some more) (hapart : ∀ w ∈ more, w ∉ stack) :
    ∀ w ∈ more, seen w := by
  induction rest generalizing v more with
  | nil =>
    obtain rfl := Option.some.inj hmore
    simp
  | cons j rest ih =>
    obtain ⟨x, later, hline, hlater, rfl⟩ := Documents.pathFrom_cons.mp hmore
    have hx : seen x := hexplored.closed v hseen hstack x (List.mem_of_getElem? hline)
    have hxstack : x ∉ stack := hapart x (by simp)
    intro w hw
    rcases List.mem_cons.mp hw with rfl | hw
    · exact hx
    · exact ih hx hxstack hlater (fun y hy ↦ hapart y (List.mem_cons_of_mem x hy)) w hw

/-- Past a line with a document that has been opened. -/
theorem Explored.next_of_seen (hexplored : Explored docs stack trail i done seen)
    (hopens : docs.Opens trail stack) (hline : (docs.linesAt stack)[i]? = some (some v))
    (hseen : seen v) : Explored docs stack trail (i + 1) done seen := by
  refine hexplored.next ?_
  rintro rest w ⟨before, hpath, hnodup⟩
  obtain ⟨x, more, hx, hmore, hall⟩ := Documents.path_through hopens.path_eq hpath
  obtain rfl : v = x := by simpa using hline.symm.trans hx
  rw [hall] at hnodup
  have hdisjoint := List.disjoint_of_nodup_append hnodup
  have hmem : w ∈ v :: more := by
    have hlast := congrArg List.getLast? hall
    rw [List.getLast?_concat, List.getLast?_append_of_ne_nil _ (List.cons_ne_nil v more)] at hlast
    exact List.mem_of_getLast? hlast.symm
  rcases List.mem_cons.mp hmem with rfl | hlater
  · exact hseen
  · exact hexplored.seen_along hseen (fun hstack ↦ hdisjoint hstack List.mem_cons_self) hmore
      (fun y hy hstack ↦ hdisjoint hstack (List.mem_cons_of_mem v hy)) w hlater

/-- Into a document that is opened. -/
theorem Explored.enter (hexplored : Explored docs stack trail i done seen)
    (hpath : docs.path (trail ++ [i]) = some (stack ++ [v]))
    (hfresh : docs.again v = false → v ∉ done) :
    Explored docs (stack ++ [v]) (trail ++ [i]) 0 done fun w ↦ seen w ∨ w = v := by
  have hother {w : V} (hw : w ∉ stack ++ [v]) : w ∉ stack ∧ w ≠ v := by simpa using hw
  refine ⟨?_, ?_, ?_, fun w hw ↦ Or.inl (hexplored.done_seen w hw), ?_, ?_⟩
  · intro w hw
    rcases List.mem_append.mp hw with hw | hw
    · exact Or.inl (hexplored.stack_seen w hw)
    · exact Or.inr (List.mem_singleton.mp hw)
  · intro w hseen hw x hx
    have hold := hseen.resolve_right (hother hw).2
    exact Or.inl (hexplored.closed w hold (hother hw).1 x hx)
  · intro other w hleads hlt
    rcases lt_concat_zero hlt with hless | rfl
    · exact Or.inl (hexplored.earlier other w hleads hless)
    · obtain ⟨before, hbefore, -⟩ := hleads
      have hsame := Option.some.inj (hpath.symm.trans hbefore)
      exact Or.inr (by simpa using (congrArg List.getLast? hsame).symm)
  · intro w hw
    obtain ⟨hstack, hagain⟩ := hexplored.done_apart w hw
    refine ⟨fun hmem ↦ ?_, hagain⟩
    rcases List.mem_append.mp hmem with hmem | hmem
    · exact hstack hmem
    · obtain rfl := List.mem_singleton.mp hmem
      exact hfresh hagain hw
  · intro w hseen hw hagain
    exact hexplored.seen_done w (hseen.resolve_right (hother hw).2) (hother hw).1 hagain

/-- Whatever a document includes has been opened at its end: it is being expanded, or a trail through
the document leads to it. -/
theorem Explored.seen_of_included
    (hexplored : Explored docs (stack ++ [v]) trail (docs.lines v).length done seen)
    (hopens : docs.Opens trail (stack ++ [v])) {w : V} (hline : some w ∈ docs.lines v) : seen w := by
  by_cases hstack : w ∈ stack ++ [v]
  · exact hexplored.stack_seen w hstack
  obtain ⟨k, hk, hline⟩ := List.getElem_of_mem hline
  have hline' : (docs.lines v)[k]? = some (some w) := List.getElem?_eq_some_iff.mpr ⟨hk, hline⟩
  refine hexplored.earlier (trail ++ [k]) w ⟨stack ++ [v], ?_, ?_⟩ ?_
  · exact Documents.path_concat.mpr ⟨_, _, hopens.path_eq, by simpa using hline', rfl⟩
  · rw [← List.concat_eq_append]
    exact hopens.nodup.concat hstack
  · exact append_lt_append (List.cons_lt_cons_iff.mpr (Or.inl hk)) _

/-- A trail that comes before the line behind an included document ends before its end. -/
theorem Documents.Leads.lt_end {other : List ℕ} {w : V} (hleads : docs.Leads other w)
    (hopens : docs.Opens (trail ++ [i]) (stack ++ [v])) (hlt : other < trail ++ [i + 1]) :
    other < trail ++ [i] ++ [(docs.lines v).length] := by
  rcases lt_concat_succ hlt with hless | ⟨rest, rfl⟩
  · exact hless.trans (lt_append_cons _ _)
  have hsplit : trail ++ i :: rest = trail ++ [i] ++ rest := by simp
  rw [hsplit]
  cases rest with
  | nil =>
    rw [List.append_nil]
    exact lt_append_cons _ _
  | cons k rest =>
    obtain ⟨before, hbefore, -⟩ := hleads
    rw [hsplit] at hbefore
    obtain ⟨x, more, hline, -⟩ := Documents.path_through hopens.path_eq hbefore
    rw [Documents.linesAt_concat] at hline
    obtain ⟨hk, -⟩ := List.getElem?_eq_some_iff.mp hline
    exact append_lt_append (List.cons_lt_cons_iff.mpr (Or.inl hk)) _

/-- What is done when a document is complete. -/
theorem mem_complete {w : V} : w ∈ (if docs.again v then done else v :: done) ↔
    w ∈ done ∨ docs.again v = false ∧ w = v := by
  cases docs.again v with
  | true => simp
  | false => simp [or_comm]

/-- Back from a document that was opened. -/
theorem Explored.leave
    (hexplored : Explored docs (stack ++ [v]) (trail ++ [i]) (docs.lines v).length done seen)
    (hopens : docs.Opens (trail ++ [i]) (stack ++ [v])) (hstack : v ∉ stack) :
    Explored docs stack trail (i + 1) (if docs.again v then done else v :: done) seen := by
  have hother {w : V} (hstack : w ∉ stack) (hw : w ≠ v) : w ∉ stack ++ [v] := by
    simp [hstack, hw]
  refine ⟨fun w hw ↦ hexplored.stack_seen w (List.mem_append_left _ hw), ?_, ?_, ?_, ?_, ?_⟩
  · intro w hseen hstack x hx
    by_cases hw : w = v
    · exact hexplored.seen_of_included hopens (hw ▸ hx)
    · exact hexplored.closed w hseen (hother hstack hw) x hx
  · intro other w hleads hlt
    exact hexplored.earlier other w hleads (hleads.lt_end hopens hlt)
  · intro w hw
    rcases mem_complete.mp hw with hw | ⟨-, rfl⟩
    · exact hexplored.done_seen w hw
    · exact hexplored.stack_seen w (by simp)
  · intro w hw
    rcases mem_complete.mp hw with hw | ⟨hagain, rfl⟩
    · obtain ⟨happart, hw⟩ := hexplored.done_apart w hw
      exact ⟨fun hmem ↦ happart (List.mem_append_left _ hmem), hw⟩
    · exact ⟨hstack, hagain⟩
  · intro w hseen hstack hagain
    refine mem_complete.mpr ?_
    by_cases hw : w = v
    · exact Or.inr ⟨hw ▸ hagain, hw⟩
    · exact Or.inl (hexplored.seen_done w hseen (hother hstack hw) hagain)

/-- An expansion opens documents as `Opens` says, and passes all its lines. -/
theorem Expands.explored (hexpands : Expands docs stack trail i rest done events after)
    (hframe : Frame docs stack trail i rest) (hexplored : Explored docs stack trail i done seen) :
    Traverses docs stack trail i rest events ∧
      Explored docs stack trail (i + rest.length) after
        (fun v ↦ seen v ∨ ∃ other, (other, v) ∈ openings events) := by
  induction hexpands generalizing seen with
  | nil => exact ⟨.nil, hexplored.congr (by simp)⟩
  | plain hrest ih =>
    have hnext := hexplored.next_of_blocked hframe.opens (by simp [hframe.line_eq])
    obtain ⟨htraverses, hlater⟩ := ih hframe.next hnext
    rw [List.length_cons, ← Nat.add_assoc, Nat.add_right_comm]
    exact ⟨.plain htraverses, hlater⟩
  | already hagain hdone hrest ih =>
    have hnext := hexplored.next_of_seen hframe.opens hframe.line_eq (hexplored.done_seen _ hdone)
    obtain ⟨htraverses, hlater⟩ := ih hframe.next hnext
    rw [List.length_cons, ← Nat.add_assoc, Nat.add_right_comm]
    have hapart := (hexplored.done_apart _ hdone).1
    exact ⟨.skipped (by simp) (by simp [hapart]) (fun _ ↦ hagain) htraverses, hlater⟩
  | recursive hfresh hstack hrest ih =>
    have hnext := hexplored.next_of_blocked hframe.opens fun w hw ↦ by
      rw [hframe.line_eq] at hw
      obtain rfl := Option.some.inj (Option.some.inj hw)
      exact hstack
    obtain ⟨htraverses, hlater⟩ := ih hframe.next hnext
    rw [List.length_cons, ← Nat.add_assoc, Nat.add_right_comm]
    exact ⟨.skipped (by simp) (by simp [hstack]) (by simp) htraverses, hlater⟩
  | @opened stack trail i v rest done middle after inner events hfresh hstack _ _ ihinner ihrest =>
    have hpath : docs.path (trail ++ [i]) = some (stack ++ [v]) :=
      Documents.path_concat.mpr ⟨_, _, hframe.opens.path_eq, hframe.line_eq, rfl⟩
    have hnodup : (stack ++ [v]).Nodup := by
      rw [← List.concat_eq_append]
      exact hframe.opens.nodup.concat hstack
    -- A document that may not come again has not been opened, so that no earlier trail leads to it.
    have hopens : docs.Opens (trail ++ [i]) (stack ++ [v]) := by
      refine .line hframe.opens hframe.line_eq hstack fun hagain ↦ ⟨⟨stack, hpath, hnodup⟩, ?_⟩
      intro other hother hless
      have hseen := hexplored.earlier other v hother hless
      exact hfresh hagain (hexplored.seen_done v hseen hstack hagain)
    obtain ⟨hinner, hinside⟩ := ihinner (Frame.inner hopens) (hexplored.enter hpath hfresh)
    rw [Nat.zero_add] at hinside
    obtain ⟨hevents, hlater⟩ := ihrest hframe.next (hinside.leave hopens hstack)
    rw [List.length_cons, ← Nat.add_assoc, Nat.add_right_comm]
    refine ⟨.opened hopens hinner hevents, hlater.congr fun w ↦ ?_⟩
    simp only [openings_opened, openings_append, List.mem_cons, List.mem_append, Prod.mk.injEq,
      exists_or]
    have hself : (∃ x, x = trail ++ [i] ∧ w = v) ↔ w = v := by simp
    rw [hself, or_assoc, or_assoc]

end Explored

/-! ### The order of the lines -/

section Traverses

variable {docs : Documents V} {stack : List V} {trail : List ℕ} {i : ℕ} {rest : List (Option V)}
  {v : V} {line : Option V} {events : List (Event V)}

theorem Traverses.opens (htraverses : Traverses docs stack trail i rest events) {other : List ℕ}
    (hmem : (other, v) ∈ openings events) : ∃ before, docs.Opens other (before ++ [v]) := by
  induction htraverses with
  | nil => simp at hmem
  | plain _ ih => exact ih hmem
  | skipped hopened _ _ _ ih =>
    rw [openings_skipped hopened] at hmem
    exact ih hmem
  | opened hopens _ _ ihinner ihrest =>
    rw [openings_opened, openings_append] at hmem
    rcases List.mem_cons.mp hmem with hself | hmem
    · obtain ⟨rfl, rfl⟩ := Prod.mk.inj hself
      exact ⟨_, hopens⟩
    · exact (List.mem_append.mp hmem).elim ihinner ihrest

/-- Everything happens at a line of a document that is opened. -/
theorem Traverses.sound (htraverses : Traverses docs stack trail i rest events)
    (hframe : Frame docs stack trail i rest) {event : Event V} (hmem : event ∈ events) :
    ∃ path, docs.Opens event.trail path ∧
      (docs.linesAt path)[event.line]? = some event.target ∧
      ∀ other j w outcome, event = .met other j w outcome →
        (outcome = .recursive ↔ w ∈ path) ∧ (outcome = .already → docs.again w = false) := by
  induction htraverses with
  | nil => simp at hmem
  | plain _ ih =>
    rcases List.mem_cons.mp hmem with rfl | hmem
    · exact ⟨_, hframe.opens, hframe.line_eq, by simp⟩
    · exact ih hframe.next hmem
  | skipped _ hrecursive halready _ ih =>
    rcases List.mem_cons.mp hmem with rfl | hmem
    · refine ⟨_, hframe.opens, hframe.line_eq, ?_⟩
      rintro other j w outcome heq
      obtain ⟨-, -, rfl, rfl⟩ := Event.met.inj heq
      exact ⟨hrecursive, halready⟩
    · exact ih hframe.next hmem
  | opened hopens _ _ ihinner ihrest =>
    rcases List.mem_cons.mp hmem with rfl | hmem
    · refine ⟨_, hframe.opens, hframe.line_eq, ?_⟩
      rintro other j w outcome heq
      obtain ⟨-, -, rfl, rfl⟩ := Event.met.inj heq
      have hapart := List.disjoint_of_nodup_append hopens.nodup
      exact ⟨iff_of_false (by simp) fun hmem ↦ hapart hmem (List.mem_singleton_self _), by simp⟩
    · rcases List.mem_append.mp hmem with hmem | hmem
      · exact ihinner (Frame.inner hopens) hmem
      · exact ihrest hframe.next hmem

/-- Something happens at every line from line `i` on. -/
def Covers (events : List (Event V)) (trail : List ℕ) (lines : List (Option V)) (i : ℕ) : Prop :=
  ∀ j line, i ≤ j → lines[j]? = some line →
    ∃ event ∈ events, event.trail = trail ∧ event.line = j ∧ event.target = line

theorem Covers.mono {more : List (Event V)} {lines : List (Option V)}
    (hcovers : Covers events trail lines i) (hsubset : events ⊆ more) :
    Covers more trail lines i := by
  intro j line hj hline
  obtain ⟨event, hevent, hat⟩ := hcovers j line hj hline
  exact ⟨event, hsubset hevent, hat⟩

theorem Covers.at_line (hframe : Frame docs stack trail i (line :: rest)) {event : Event V}
    (htrail : event.trail = trail) (hline : event.line = i) (htarget : event.target = line)
    (hmem : event ∈ events) (hcovers : Covers events trail (docs.linesAt stack) (i + 1)) :
    Covers events trail (docs.linesAt stack) i := by
  intro j other hj hother
  rcases Nat.eq_or_lt_of_le hj with rfl | hj
  · rw [hframe.line_eq] at hother
    exact ⟨event, hmem, htrail, hline, htarget.trans (Option.some.inj hother)⟩
  · exact hcovers j other hj hother

/-- Every line is met: those of the document itself from line `i` on, and all those of the documents
that are opened. -/
theorem Traverses.covers (htraverses : Traverses docs stack trail i rest events)
    (hframe : Frame docs stack trail i rest) :
    Covers events trail (docs.linesAt stack) i ∧
      ∀ other w, (other, w) ∈ openings events → Covers events other (docs.lines w) 0 := by
  induction htraverses with
  | nil =>
    refine ⟨fun j line hj hline ↦ ?_, by simp⟩
    have hend := List.drop_eq_nil_iff.mp hframe.rest_eq.symm
    rw [List.getElem?_eq_none (Nat.le_trans hend hj)] at hline
    simp at hline
  | plain _ ih =>
    obtain ⟨hown, hopened⟩ := ih hframe.next
    refine ⟨.at_line hframe rfl rfl rfl List.mem_cons_self (hown.mono (List.subset_cons_self _ _)), ?_⟩
    intro other w hmem
    exact (hopened other w hmem).mono (List.subset_cons_self _ _)
  | skipped hskipped _ _ _ ih =>
    obtain ⟨hown, hopened⟩ := ih hframe.next
    refine ⟨.at_line hframe rfl rfl rfl List.mem_cons_self (hown.mono (List.subset_cons_self _ _)), ?_⟩
    intro other w hmem
    rw [openings_skipped hskipped] at hmem
    exact (hopened other w hmem).mono (List.subset_cons_self _ _)
  | @opened _ trail i v _ inner events hopens _ _ ihinner ihrest =>
    obtain ⟨hinside, hinner⟩ := ihinner (Frame.inner hopens)
    obtain ⟨hown, hopened⟩ := ihrest hframe.next
    have hfirst : inner ⊆ .met trail i v .opened :: (inner ++ events) := by simp
    have hsecond : events ⊆ .met trail i v .opened :: (inner ++ events) := by simp
    refine ⟨.at_line hframe rfl rfl rfl List.mem_cons_self (hown.mono hsecond), ?_⟩
    intro other w hmem
    rw [openings_opened, openings_append] at hmem
    rcases List.mem_cons.mp hmem with hself | hmem
    · obtain ⟨rfl, rfl⟩ := Prod.mk.inj hself
      rw [← Documents.linesAt_concat]
      exact hinside.mono hfirst
    · rcases List.mem_append.mp hmem with hmem | hmem
      · exact (hinner other w hmem).mono hfirst
      · exact (hopened other w hmem).mono hsecond

/-- Everything happens at the given lines of a document, or inside of what they include. -/
def Behind (trail : List ℕ) (i : ℕ) (events : List (Event V)) : Prop :=
  ∀ event ∈ events, ∃ j more, i ≤ j ∧ event.position = trail ++ j :: more

theorem Behind.lt {event : Event V} (hbehind : Behind trail (i + 1) events) (hmem : event ∈ events)
    (more : List ℕ) : trail ++ i :: more < event.position := by
  obtain ⟨j, later, hj, hposition⟩ := hbehind event hmem
  rw [hposition]
  exact append_lt_append (List.cons_lt_cons_iff.mpr (Or.inl hj)) trail

theorem Behind.cons {event : Event V} (hbehind : Behind trail (i + 1) events) {more : List ℕ}
    (hposition : event.position = trail ++ i :: more) : Behind trail i (event :: events) := by
  intro other hother
  rcases List.mem_cons.mp hother with rfl | hother
  · exact ⟨i, more, Nat.le_refl i, hposition⟩
  · obtain ⟨j, later, hj, hlater⟩ := hbehind other hother
    exact ⟨j, later, by omega, hlater⟩

/-- An expansion goes through the lines in the order of the trails. -/
theorem Traverses.ordered (htraverses : Traverses docs stack trail i rest events) :
    Behind trail i events ∧ (events.map Event.position).Pairwise (· < ·) := by
  have hcons {trail : List ℕ} {i : ℕ} {event : Event V} {events : List (Event V)}
      (hposition : event.position = trail ++ [i])
      (hrest : Behind trail (i + 1) events ∧ (events.map Event.position).Pairwise (· < ·)) :
      Behind trail i (event :: events) ∧
        ((event :: events).map Event.position).Pairwise (· < ·) := by
    refine ⟨hrest.1.cons hposition, List.pairwise_cons.mpr ⟨fun other hother ↦ ?_, hrest.2⟩⟩
    obtain ⟨later, hlater, rfl⟩ := List.mem_map.mp hother
    rw [hposition]
    exact hrest.1.lt hlater []
  induction htraverses with
  | nil => exact ⟨by simp [Behind], List.Pairwise.nil⟩
  | plain _ ih => exact hcons rfl ih
  | skipped _ _ _ _ ih => exact hcons rfl ih
  | @opened _ trail i _ _ inner events _ _ _ ihinner ihrest =>
    have hinner : ∀ event ∈ inner, ∃ j more, event.position = trail ++ i :: j :: more := by
      intro event hevent
      obtain ⟨j, more, -, hposition⟩ := ihinner.1 event hevent
      exact ⟨j, more, by rw [hposition]; simp⟩
    constructor
    · intro event hevent
      rcases List.mem_cons.mp hevent with rfl | hevent
      · exact ⟨i, [], Nat.le_refl i, rfl⟩
      · rcases List.mem_append.mp hevent with hevent | hevent
        · obtain ⟨j, more, hposition⟩ := hinner event hevent
          exact ⟨i, _, Nat.le_refl i, hposition⟩
        · obtain ⟨j, more, hj, hposition⟩ := ihrest.1 event hevent
          exact ⟨j, more, by omega, hposition⟩
    · rw [List.map_cons, List.map_append, List.pairwise_cons, List.pairwise_append]
      refine ⟨?_, ihinner.2, ihrest.2, ?_⟩
      · intro position hposition
        rcases List.mem_append.mp hposition with hposition | hposition
        · obtain ⟨event, hevent, rfl⟩ := List.mem_map.mp hposition
          obtain ⟨j, more, hevent⟩ := hinner event hevent
          rw [hevent]
          exact append_lt_append (List.cons_lt_cons_iff.mpr (Or.inr ⟨rfl, List.nil_lt_cons _ _⟩)) _
        · obtain ⟨event, hevent, rfl⟩ := List.mem_map.mp hposition
          exact ihrest.1.lt hevent []
      · intro first hfirst second hsecond
        obtain ⟨event, hevent, rfl⟩ := List.mem_map.mp hfirst
        obtain ⟨later, hlater, rfl⟩ := List.mem_map.mp hsecond
        obtain ⟨j, more, hposition⟩ := hinner event hevent
        rw [hposition]
        exact ihrest.1.lt hlater _

/-- The first line of an expansion. -/
theorem Traverses.head_eq (htraverses : Traverses docs stack trail i rest events) :
    events.head?.map (fun event ↦ (event.trail, event.line)) =
      if rest = [] then none else some (trail, i) := by
  cases htraverses with
  | nil => rfl
  | plain _ => rfl
  | skipped _ _ _ _ => rfl
  | opened _ _ _ => rfl

/-- An event of an included document, or one behind it. -/
theorem split_append {inner before after : List (Event V)} {event : Event V}
    (hsplit : inner ++ events = before ++ event :: after) :
    (∃ middle, inner = before ++ event :: middle ∧ after = middle ++ events) ∨
      ∃ middle, before = inner ++ middle ∧ events = middle ++ event :: after := by
  rcases List.append_eq_append_iff.mp hsplit with ⟨middle, hbefore, hevents⟩ | ⟨middle, hinner, hafter⟩
  · exact Or.inr ⟨middle, hbefore, hevents⟩
  · cases middle with
    | nil =>
      rw [List.append_nil] at hinner
      exact Or.inr ⟨[], by rw [List.append_nil, hinner], hafter.symm⟩
    | cons first middle =>
      obtain ⟨rfl, hrest⟩ := List.cons.inj hafter
      exact Or.inl ⟨middle, hinner, hrest⟩

/-- What comes behind a line: the next one of its document, or the line where the expansion goes on
behind the document. -/
theorem Traverses.head_next (hrest : Traverses docs stack trail (i + 1) rest events)
    (hframe : Frame docs stack trail i (line :: rest)) :
    (events.head?.map fun event ↦ (event.trail, event.line)).or (docs.next trail) =
      docs.next (trail ++ [i]) := by
  rw [Documents.next_concat hframe.opens.path_eq, hrest.head_eq, hframe.next.rest_eq]
  by_cases hmore : i + 1 < (docs.linesAt stack).length
  · have hsome : (docs.linesAt stack).drop (i + 1) ≠ [] := by simpa using hmore
    rw [if_neg hsome, if_pos hmore]
    rfl
  · have hnone : (docs.linesAt stack).drop (i + 1) = [] := by simpa using hmore
    rw [if_pos hnone, if_neg hmore]
    rfl

/-- What comes behind a line that is copied, at any depth. -/
theorem Traverses.next_eq (htraverses : Traverses docs stack trail i rest events)
    (hframe : Frame docs stack trail i rest) {before after : List (Event V)} {other : List ℕ}
    {j : ℕ} (hsplit : events = before ++ .plain other j :: after) :
    (after.head?.map fun event ↦ (event.trail, event.line)).or (docs.next trail) =
      docs.next (other ++ [j]) := by
  induction htraverses generalizing before after with
  | nil => simp at hsplit
  | @plain stack trail i rest events hrest ih =>
    cases before with
    | nil =>
      obtain ⟨hevent, rfl⟩ := List.cons.inj hsplit
      obtain ⟨rfl, rfl⟩ := Event.plain.inj hevent
      exact hrest.head_next hframe
    | cons first before => exact ih hframe.next (List.cons.inj hsplit).2
  | @skipped stack trail i v rest outcome events _ _ _ _ ih =>
    cases before with
    | nil => simp at hsplit
    | cons first before => exact ih hframe.next (List.cons.inj hsplit).2
  | @opened stack trail i v rest inner events hopens _ hrest ihinner ihrest =>
    cases before with
    | nil => simp at hsplit
    | cons first before =>
      rcases split_append (List.cons.inj hsplit).2 with ⟨middle, hinner, rfl⟩ | ⟨middle, rfl, hevents⟩
      · rw [← ihinner (Frame.inner hopens) hinner, ← hrest.head_next hframe, List.head?_append,
          Option.map_or, Option.or_assoc]
      · exact ihrest hframe.next hevents

end Traverses

/-! ### Whole expansions -/

namespace Documents

/-- The lines of a document that include nothing. -/
def plainLines (docs : Documents V) (v : V) : List ℕ :=
  (List.range (docs.lines v).length).filter fun i ↦ (docs.lines v)[i]?.any Option.isNone

/-- The line of the document that is copied, if it is. -/
def copiedOf [DecidableEq V] (docs : Documents V) (v : V) : Event V → Option ℕ
  | .plain trail i => if (docs.path trail).bind List.getLast? = some v then some i else none
  | .met _ _ _ _ => none

/-- The lines of a document that are copied, in the order in which they are. -/
def copied [DecidableEq V] (docs : Documents V) (v : V) (events : List (Event V)) : List ℕ :=
  events.filterMap (docs.copiedOf v)

theorem mem_plainLines {docs : Documents V} {v : V} {i : ℕ} :
    i ∈ docs.plainLines v ↔ (docs.lines v)[i]? = some none := by
  rw [plainLines, List.mem_filter, List.mem_range]
  cases hline : (docs.lines v)[i]? with
  | none => simp
  | some line =>
    have hlt := (List.getElem?_eq_some_iff.mp hline).1
    simp [hlt]

theorem pairwise_plainLines {docs : Documents V} {v : V} :
    (docs.plainLines v).Pairwise (· < ·) := List.pairwise_lt_range.filter _

theorem Opens.reachable {docs : Documents V} {trail : List ℕ} {stack : List V}
    (hopens : docs.Opens trail stack) : ∀ v ∈ stack, docs.Reachable v := by
  induction hopens with
  | top => simp
  | @line trail stack i v _ hline _ _ ih =>
    intro w hw
    rcases List.mem_append.mp hw with hw | hw
    · exact ih w hw
    obtain rfl := List.mem_singleton.mp hw
    have hmem := List.mem_of_getElem? hline
    rcases List.eq_nil_or_concat stack with rfl | ⟨earlier, x, rfl⟩
    · exact .top hmem
    · rw [List.concat_eq_append, linesAt_concat] at hmem
      exact .line (ih x (by simp)) hmem

end Documents

namespace Expands

variable {docs : Documents V} {events : List (Event V)} {after : List V} {trail : List ℕ} {v : V}
  {i : ℕ} {line : Option V}

theorem traverses (hexpands : Expands docs [] [] 0 docs.top [] events after) :
    Traverses docs [] [] 0 docs.top events := (hexpands.explored (.top docs) .top).1

/-- Whatever a trail leads to is opened. -/
theorem opened_of_leads (hexpands : Expands docs [] [] 0 docs.top [] events after)
    (hleads : docs.Leads trail v) : ∃ other, (other, v) ∈ openings events := by
  have hexplored := (hexpands.explored (.top docs) .top).2
  refine (hexplored.earlier trail v hleads ?_).resolve_left not_false
  obtain ⟨stack, hpath, -⟩ := hleads
  cases trail with
  | nil => simp [Documents.path, Documents.pathFrom] at hpath
  | cons j trail =>
    obtain ⟨w, more, hline, -⟩ := Documents.pathFrom_cons.mp hpath
    have hj := (List.getElem?_eq_some_iff.mp hline).1
    rw [List.nil_append, Nat.zero_add]
    exact List.cons_lt_cons_iff.mpr (Or.inl hj)

theorem opened_of_reachable (hexpands : Expands docs [] [] 0 docs.top [] events after)
    (hreachable : docs.Reachable v) : ∃ other, (other, v) ∈ openings events := by
  induction hreachable with
  | @top v hline =>
    obtain ⟨j, hj, hline⟩ := List.getElem_of_mem hline
    have hline' := List.getElem?_eq_some_iff.mpr ⟨hj, hline⟩
    have hleads : docs.Leads [j] v :=
      ⟨[], Documents.pathFrom_cons.mpr ⟨v, [], hline', rfl, rfl⟩, by simp⟩
    exact hexpands.opened_of_leads hleads
  | @line v w _ hline ih =>
    have hexplored := (hexpands.explored (.top docs) .top).2
    exact (hexplored.closed v (Or.inr ih) (by simp) w hline).resolve_left not_false

/-- What an expansion opens. -/
theorem opened_iff (hexpands : Expands docs [] [] 0 docs.top [] events after) :
    (trail, v) ∈ openings events ↔ ∃ stack, docs.Opens trail (stack ++ [v]) := by
  refine ⟨hexpands.traverses.opens, ?_⟩
  rintro ⟨stack, hopens⟩
  induction trail using List.reverseRecOn generalizing v stack with
  | nil => simpa [Documents.path, Documents.pathFrom] using hopens.path_eq
  | append_singleton trail i ih =>
    obtain ⟨earlier, w, hstack, hearlier, hline, hapart, hfirst⟩ := hopens.concat_inv
    obtain ⟨rfl, hw⟩ := List.append_inj' hstack rfl
    obtain rfl : v = w := by simpa using hw
    -- Something happens at the line with the document, and it is neither recursive nor too late.
    have hmet : ∃ event ∈ events, event.trail = trail ∧ event.line = i ∧
        event.target = some v := by
      have hcovers := hexpands.traverses.covers (.top docs)
      rcases hearlier.eq_top_or_concat with ⟨rfl, rfl⟩ | ⟨before, x, rfl⟩
      · exact hcovers.1 i (some v) (Nat.zero_le i) hline
      · rw [Documents.linesAt_concat] at hline
        exact hcovers.2 trail x (ih before hearlier) i (some v) (Nat.zero_le i) hline
    obtain ⟨event, hmem, htrail, hi, htarget⟩ := hmet
    obtain ⟨outcome, hevent⟩ := Event.eq_met htarget
    obtain ⟨path, hpath, -, houtcome⟩ := hexpands.traverses.sound (.top docs) hmem
    obtain ⟨hrecursive, halready⟩ := houtcome _ _ _ _ hevent
    rw [htrail] at hpath
    obtain rfl : path = stack := Option.some.inj (hpath.path_eq.symm.trans hearlier.path_eq)
    rw [hevent, htrail, hi] at hmem
    cases outcome with
    | opened => exact List.mem_filterMap.mpr ⟨_, hmem, rfl⟩
    | recursive => exact absurd (hrecursive.mp rfl) hapart
    | already =>
      have hagain := halready rfl
      obtain ⟨other, hother⟩ := hexpands.opened_of_leads hopens.leads
      obtain ⟨before, hopensOther⟩ := hexpands.traverses.opens hother
      have hfirstOther : docs.First other v := hopensOther.first hagain
      rw [(hfirst hagain).unique hfirstOther]
      exact hother

/-- What happens, and where. -/
theorem event_iff (hexpands : Expands docs [] [] 0 docs.top [] events after) :
    (∃ event ∈ events, event.trail = trail ∧ event.line = i ∧ event.target = line) ↔
      ∃ stack, docs.Opens trail stack ∧ (docs.linesAt stack)[i]? = some line := by
  constructor
  · rintro ⟨event, hmem, rfl, rfl, rfl⟩
    obtain ⟨stack, hopens, hline, -⟩ := hexpands.traverses.sound (.top docs) hmem
    exact ⟨stack, hopens, hline⟩
  · rintro ⟨stack, hopens, hline⟩
    have hcovers := hexpands.traverses.covers (.top docs)
    rcases hopens.eq_top_or_concat with ⟨rfl, rfl⟩ | ⟨before, v, rfl⟩
    · exact hcovers.1 i line (Nat.zero_le i) hline
    · rw [Documents.linesAt_concat] at hline
      exact hcovers.2 trail v (hexpands.opened_iff.mpr ⟨before, hopens⟩) i line (Nat.zero_le i) hline

theorem plain_iff (hexpands : Expands docs [] [] 0 docs.top [] events after) :
    .plain trail i ∈ events ↔
      ∃ stack, docs.Opens trail stack ∧ (docs.linesAt stack)[i]? = some none := by
  rw [← hexpands.event_iff]
  constructor
  · intro hmem
    exact ⟨_, hmem, rfl, rfl, rfl⟩
  · rintro ⟨event, hmem, rfl, rfl, htarget⟩
    rw [← Event.eq_plain htarget]
    exact hmem

/-- The trails to a document that may not come again are the same. -/
theorem trail_unique (hexpands : Expands docs [] [] 0 docs.top [] events after)
    (hagain : docs.again v = false) {other : List ℕ} (hmem : (trail, v) ∈ openings events)
    (hother : (other, v) ∈ openings events) : trail = other := by
  obtain ⟨stack, hopens⟩ := hexpands.opened_iff.mp hmem
  obtain ⟨before, hopensOther⟩ := hexpands.opened_iff.mp hother
  exact (hopens.first hagain).unique (hopensOther.first hagain)

/-- A document that may not come again and can be reached is opened once. -/
theorem opened_once [DecidableEq V] (hexpands : Expands docs [] [] 0 docs.top [] events after)
    (hagain : docs.again v = false) (hreachable : docs.Reachable v) :
    ∃ trail, (openings events).filter (fun opening ↦ opening.2 = v) = [(trail, v)] := by
  obtain ⟨trail, hmem⟩ := hexpands.opened_of_reachable hreachable
  have hordered : (openings events).Pairwise fun first second ↦ first.1 < second.1 := by
    refine (List.pairwise_map.mp hexpands.traverses.ordered.2).filterMap _ ?_
    rintro first second hlt ⟨opening, v⟩ hopening ⟨later, w⟩ hlater
    rw [Event.opening_fst hopening, Event.opening_fst hlater]
    exact hlt
  have hsingle := hordered.filter fun opening ↦ opening.2 = v
  have hsame : ∀ opening ∈ (openings events).filter (fun opening ↦ opening.2 = v),
      opening = (trail, v) := by
    rintro ⟨other, w⟩ hopening
    obtain ⟨hother, hw⟩ := List.mem_filter.mp hopening
    obtain rfl : w = v := by simpa using hw
    rw [hexpands.trail_unique hagain hmem hother]
  have hfound : (trail, v) ∈ (openings events).filter (fun opening ↦ opening.2 = v) :=
    List.mem_filter.mpr ⟨hmem, by simp⟩
  refine ⟨trail, ?_⟩
  cases hlist : (openings events).filter (fun opening ↦ opening.2 = v) with
  | nil =>
    rw [hlist] at hfound
    simp at hfound
  | cons first rest =>
    rw [hlist] at hsame hsingle
    rw [hsame first List.mem_cons_self] at hsingle ⊢
    cases rest with
    | nil => rfl
    | cons second rest =>
      have hlt := List.rel_of_pairwise_cons hsingle List.mem_cons_self
      rw [hsame second (by simp)] at hlt
      exact absurd hlt (lt_irrefl _)

/-- On a trail on which a document is opened, its lines are copied once each and in order. -/
theorem copiedAt_eq (hexpands : Expands docs [] [] 0 docs.top [] events after) {stack : List V}
    (hopens : docs.Opens trail (stack ++ [v])) : copiedAt trail events = docs.plainLines v := by
  have hline (i : ℕ) : .plain trail i ∈ events ↔ (docs.lines v)[i]? = some none := by
    rw [hexpands.plain_iff]
    constructor
    · rintro ⟨path, hpath, hline⟩
      obtain rfl : path = stack ++ [v] :=
        Option.some.inj (hpath.path_eq.symm.trans hopens.path_eq)
      rwa [Documents.linesAt_concat] at hline
    · intro hline
      exact ⟨_, hopens, by rwa [Documents.linesAt_concat]⟩
  have hordered := List.pairwise_map.mp hexpands.traverses.ordered.2
  have hcopied : (copiedAt trail events).Pairwise (· < ·) := by
    refine hordered.filterMap _ ?_
    intro first second hlt i hi j hj
    rw [Event.eq_plain_of_copiedOn hi, Event.eq_plain_of_copiedOn hj] at hlt
    by_contra hle
    rcases Nat.eq_or_lt_of_le (Nat.not_lt.mp hle) with rfl | hless
    · exact lt_irrefl _ hlt
    · exact lt_asymm hlt (append_lt_append (List.cons_lt_cons_iff.mpr (Or.inl hless)) trail)
  refine hcopied.eq_of_mem_iff Documents.pairwise_plainLines fun i ↦ ?_
  rw [Documents.mem_plainLines, ← hline, copiedAt, List.mem_filterMap]
  constructor
  · rintro ⟨event, hmem, hevent⟩
    rwa [Event.eq_plain_of_copiedOn hevent] at hmem
  · intro hmem
    exact ⟨_, hmem, by simp [Event.copiedOn]⟩

/-- A document that may not come again is copied once, line by line and in order, if it can be
reached, and otherwise not at all. -/
theorem copied_eq [DecidableEq V] (hexpands : Expands docs [] [] 0 docs.top [] events after)
    (hagain : docs.again v = false) :
    (docs.Reachable v → docs.copied v events = docs.plainLines v) ∧
      (¬ docs.Reachable v → docs.copied v events = []) := by
  -- All copied lines of the document come from one trail.
  have hevent {event : Event V} {i : ℕ} (hmem : event ∈ events)
      (hcopied : docs.copiedOf v event = some i) :
      ∃ trail stack, event = .plain trail i ∧ docs.Opens trail (stack ++ [v]) := by
    cases event with
    | met trail j w outcome => simp [Documents.copiedOf] at hcopied
    | plain trail j =>
      obtain ⟨stack, hopens, -⟩ := hexpands.plain_iff.mp hmem
      have hlast : stack.getLast? = some v ∧ j = i := by
        simpa [Documents.copiedOf, hopens.path_eq] using hcopied
      obtain ⟨hlast, rfl⟩ := hlast
      obtain ⟨before, rfl⟩ := List.getLast?_eq_some_iff.mp hlast
      exact ⟨trail, before, rfl, hopens⟩
  constructor
  · intro hreachable
    obtain ⟨trail, hmem⟩ := hexpands.opened_of_reachable hreachable
    obtain ⟨stack, hopens⟩ := hexpands.opened_iff.mp hmem
    rw [← hexpands.copiedAt_eq hopens]
    refine List.filterMap_congr fun event hmem ↦ Option.ext fun i ↦ ?_
    constructor
    · intro hcopied
      obtain ⟨other, path, rfl, hother⟩ := hevent hmem hcopied
      rw [(hopens.first hagain).unique (hother.first hagain)]
      simp [Event.copiedOn]
    · intro hcopied
      rw [Event.eq_plain_of_copiedOn hcopied]
      simp [Documents.copiedOf, hopens.path_eq]
  · intro hreachable
    refine List.eq_nil_iff_forall_not_mem.mpr fun i hcopied ↦ hreachable ?_
    obtain ⟨event, hmem, hcopied⟩ := List.mem_filterMap.mp hcopied
    obtain ⟨trail, stack, -, hopens⟩ := hevent hmem hcopied
    exact hopens.reachable v (by simp)

end Expands

end ZigbeeRemote.Foundation
