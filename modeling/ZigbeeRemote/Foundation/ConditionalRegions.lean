import ZigbeeRemote.Foundation.IncludeTrails

/-!
# Conditional regions of expanded documents

The lines of a document may be directives that open a conditional, go on with its next group or close
it, as those of the C preprocessor do. Whatever is between them is active if each group around it is.

An expansion copies the lines of an included document into the including one, and so the groups
around a line are found by a run through everything before it. If each document closes what it opens,
the groups around a line are those of its own document and those around the include lines that lead
to it: `Expands.groups_before`. The run is a case of `replay`, for a state that the copied lines
change.
-/

set_option autoImplicit false
set_option relaxedAutoImplicit false

namespace ZigbeeRemote.Foundation

/-! ### Directives and groups -/

/-- What a line means for the conditionals. -/
inductive Directive : Type
  /-- `#if`, `#ifdef`, `#ifndef`. -/
  | conditional
  /-- `#elif` and the like. -/
  | alternative
  /-- `#else`. -/
  | otherwise
  /-- `#endif`. -/
  | close
  | plain
  deriving DecidableEq

/-- The current group of an open conditional. -/
structure Group where
  /-- This group, or one before it, is the one that is compiled. -/
  taken : Bool
  active : Bool
  deriving DecidableEq

namespace Directive

/-- What a directive does to the open conditionals, the innermost first. `value` is what its condition
evaluates to. -/
def apply (value : Bool) : Directive → List Group → List Group
  | .conditional, groups => ⟨value, value⟩ :: groups
  | .alternative, group :: groups => ⟨group.taken || value, !group.taken && value⟩ :: groups
  | .otherwise, group :: groups => ⟨true, !group.taken⟩ :: groups
  | .close, _ :: groups => groups
  | _, groups => groups

/-- The number of open conditionals behind a directive, if it is allowed there. -/
def deepen (depth : ℕ) : Directive → Option ℕ
  | .conditional => some (depth + 1)
  | .alternative | .otherwise => if depth = 0 then none else some depth
  | .close => if depth = 0 then none else some (depth - 1)
  | .plain => some depth

/-- A directive that is allowed among some groups leaves those around them alone. -/
theorem apply_append {directive : Directive} {groups : List Group} {depth : ℕ}
    (hdepth : directive.deepen groups.length = some depth) (value : Bool) (base : List Group) :
    directive.apply value (groups ++ base) = directive.apply value groups ++ base ∧
      (directive.apply value groups).length = depth := by
  cases groups with
  | nil => cases directive <;> simp_all [deepen, apply]
  | cons group groups => cases directive <;> simp_all [deepen, apply]

end Directive

/-- The groups behind some directives, each with the value of its condition. -/
def runDirectives (directives : List (Directive × Bool)) (groups : List Group) : List Group :=
  directives.foldl (fun groups directive ↦ directive.1.apply directive.2 groups) groups

theorem runDirectives_append {directives : List (Directive × Bool)} {groups : List Group} {depth : ℕ}
    (hdepth : (directives.map Prod.fst).foldlM Directive.deepen groups.length = some depth)
    (base : List Group) :
    runDirectives directives (groups ++ base) = runDirectives directives groups ++ base ∧
      (runDirectives directives groups).length = depth := by
  induction directives generalizing groups with
  | nil => exact ⟨rfl, Option.some.inj hdepth⟩
  | cons directive directives ih =>
    rw [List.map_cons, List.foldlM_cons] at hdepth
    obtain ⟨middle, hmiddle, hrest⟩ := Option.bind_eq_some_iff.mp hdepth
    obtain ⟨happly, hlength⟩ := Directive.apply_append hmiddle directive.2 base
    rw [← hlength] at hrest
    rw [runDirectives, List.foldl_cons, happly]
    exact ih hrest

/-! ### States along an expansion -/

section Replay

variable {V S : Type} {docs : Documents V}

/-- The state behind some events, if `copy` says what a copied line does to it. -/
def replay (copy : List ℕ → ℕ → S → S) (state : S) (events : List (Event V)) : S :=
  events.foldl (fun state event ↦
    match event with
    | .plain trail i => copy trail i state
    | .met _ _ _ _ => state) state

section Lemmas

variable {copy : List ℕ → ℕ → S → S} {state : S} {trail : List ℕ} {i : ℕ} {v : V}
  {outcome : Outcome} {events more : List (Event V)}

theorem replay_plain :
    replay copy state (.plain trail i :: events) = replay copy (copy trail i state) events := rfl

theorem replay_met :
    replay copy state (.met trail i v outcome :: events) = replay copy state events := rfl

theorem replay_append :
    replay copy state (events ++ more) = replay copy (replay copy state events) more :=
  List.foldl_append

end Lemmas

/-- `stateAt` has the state before each line: copied lines change it, and an included document starts
with the state of the include line and ends with the same one. -/
structure Follows (docs : Documents V) (copy : List ℕ → ℕ → S → S) (stateAt : List ℕ → ℕ → S) :
    Prop where
  plain : ∀ {trail stack i}, docs.Opens trail stack → (docs.linesAt stack)[i]? = some none →
    copy trail i (stateAt trail i) = stateAt trail (i + 1)
  includes : ∀ {trail stack i v}, docs.Opens trail stack →
    (docs.linesAt stack)[i]? = some (some v) → stateAt trail (i + 1) = stateAt trail i
  enters : ∀ {trail stack i v}, docs.Opens (trail ++ [i]) (stack ++ [v]) →
    stateAt (trail ++ [i]) 0 = stateAt trail i
  leaves : ∀ {trail stack i v}, docs.Opens (trail ++ [i]) (stack ++ [v]) →
    stateAt (trail ++ [i]) (docs.lines v).length = stateAt trail i

variable {copy : List ℕ → ℕ → S → S} {stateAt : List ℕ → ℕ → S} {stack : List V} {trail : List ℕ}
  {i : ℕ} {rest : List (Option V)} {events : List (Event V)}

/-- The state behind all lines. -/
theorem Traverses.replay_eq (htraverses : Traverses docs stack trail i rest events)
    (hframe : Frame docs stack trail i rest) (hfollows : Follows docs copy stateAt) :
    replay copy (stateAt trail i) events = stateAt trail (i + rest.length) := by
  induction htraverses with
  | nil => rfl
  | @plain stack trail i rest events _ ih =>
    rw [replay_plain, hfollows.plain hframe.opens hframe.line_eq, List.length_cons,
      ← Nat.add_assoc, Nat.add_right_comm]
    exact ih hframe.next
  | @skipped stack trail i v rest outcome events _ _ _ _ ih =>
    rw [replay_met, ← hfollows.includes hframe.opens hframe.line_eq, List.length_cons,
      ← Nat.add_assoc, Nat.add_right_comm]
    exact ih hframe.next
  | @opened stack trail i v rest inner events hopens _ _ ihinner ihrest =>
    have hinside : replay copy (stateAt trail i) inner = stateAt trail (i + 1) := by
      rw [← hfollows.enters hopens, ihinner (Frame.inner hopens), Nat.zero_add,
        hfollows.leaves hopens, hfollows.includes hframe.opens hframe.line_eq]
    rw [replay_met, replay_append, hinside, List.length_cons, ← Nat.add_assoc, Nat.add_right_comm]
    exact ihrest hframe.next

/-- The state before an event is the one at its line. -/
theorem Traverses.replay_before (htraverses : Traverses docs stack trail i rest events)
    (hframe : Frame docs stack trail i rest) (hfollows : Follows docs copy stateAt)
    {before after : List (Event V)} {event : Event V} (hsplit : events = before ++ event :: after) :
    replay copy (stateAt trail i) before = stateAt event.trail event.line := by
  induction htraverses generalizing before after with
  | nil => simp at hsplit
  | @plain stack trail i rest events _ ih =>
    cases before with
    | nil =>
      obtain ⟨rfl, -⟩ := List.cons.inj hsplit
      rfl
    | cons first before =>
      obtain ⟨rfl, hlater⟩ := List.cons.inj hsplit
      rw [replay_plain, hfollows.plain hframe.opens hframe.line_eq]
      exact ih hframe.next hlater
  | @skipped stack trail i v rest outcome events _ _ _ _ ih =>
    cases before with
    | nil =>
      obtain ⟨rfl, -⟩ := List.cons.inj hsplit
      rfl
    | cons first before =>
      obtain ⟨rfl, hlater⟩ := List.cons.inj hsplit
      rw [replay_met, ← hfollows.includes hframe.opens hframe.line_eq]
      exact ih hframe.next hlater
  | @opened stack trail i v rest inner events hopens hinner _ ihinner ihrest =>
    cases before with
    | nil =>
      obtain ⟨rfl, -⟩ := List.cons.inj hsplit
      rfl
    | cons first before =>
      obtain ⟨rfl, hlater⟩ := List.cons.inj hsplit
      rw [replay_met, ← hfollows.enters hopens]
      rcases split_append hlater with ⟨middle, hinside, -⟩ | ⟨middle, rfl, hbehind⟩
      · exact ihinner (Frame.inner hopens) hinside
      · have hend := hinner.replay_eq (Frame.inner hopens) hfollows
        rw [Nat.zero_add, hfollows.leaves hopens,
          ← hfollows.includes hframe.opens hframe.line_eq] at hend
        rw [replay_append, hend]
        exact ihrest hframe.next hbehind

end Replay

/-! ### Groups around a line -/

/-- The directives among the copied lines, and the values of their conditions. A line may be copied
more than once, and is given by the trail on which it is. -/
structure Conditionals where
  directive : List ℕ → ℕ → Directive
  holds : List ℕ → ℕ → Bool

namespace Conditionals

variable {V : Type} (conditionals : Conditionals) (docs : Documents V)

/-- What a line means for the conditionals; an include line is not copied. -/
def directiveAt (trail : List ℕ) (i : ℕ) : Directive :=
  if ((docs.path trail).bind fun stack ↦ (docs.linesAt stack)[i]?).any Option.isNone then
    conditionals.directive trail i
  else .plain

/-- The first lines of a document as they are copied on a trail. -/
def directivesIn (trail : List ℕ) (count : ℕ) : List (Directive × Bool) :=
  (List.range count).map fun i ↦ (conditionals.directiveAt docs trail i, conditionals.holds trail i)

/-- The document closes what it opens, and nothing else, when it is copied on a trail. -/
def Balanced (trail : List ℕ) (v : V) : Prop :=
  ((conditionals.directivesIn docs trail (docs.lines v).length).map Prod.fst).foldlM
    Directive.deepen 0 = some 0

/-- The groups around line `i` of the document at the end of a trail that are opened in it. -/
def groupsIn (trail : List ℕ) (i : ℕ) : List Group :=
  runDirectives (conditionals.directivesIn docs trail i) []

/-- The groups around the last line of a trail, given in reverse. -/
def groupsAroundOfReverse : List ℕ → List Group
  | [] => []
  | i :: reversed => conditionals.groupsIn docs reversed.reverse i ++ groupsAroundOfReverse reversed

/-- The groups around the last line of a trail: those of its document, and those around the include
lines that lead to it. -/
def groupsAround (trail : List ℕ) : List Group :=
  conditionals.groupsAroundOfReverse docs trail.reverse

/-- What a copied line does to the groups. -/
def copyLine (trail : List ℕ) (i : ℕ) (groups : List Group) : List Group :=
  (conditionals.directive trail i).apply (conditionals.holds trail i) groups

variable {conditionals docs} {trail : List ℕ} {stack : List V} {v : V} {i : ℕ}

theorem groupsAround_nil : conditionals.groupsAround docs [] = [] := rfl

theorem groupsAround_concat :
    conditionals.groupsAround docs (trail ++ [i]) =
      conditionals.groupsIn docs trail i ++ conditionals.groupsAround docs trail := by
  rw [groupsAround, List.reverse_concat, groupsAroundOfReverse, List.reverse_reverse]
  rfl

theorem groupsIn_zero : conditionals.groupsIn docs trail 0 = [] := rfl

theorem directivesIn_succ :
    conditionals.directivesIn docs trail (i + 1) =
      conditionals.directivesIn docs trail i ++
        [(conditionals.directiveAt docs trail i, conditionals.holds trail i)] := by
  rw [directivesIn, List.range_succ, List.map_append]
  rfl

theorem runDirectives_succ (groups : List Group) :
    runDirectives (conditionals.directivesIn docs trail (i + 1)) groups =
      (conditionals.directiveAt docs trail i).apply (conditionals.holds trail i)
        (runDirectives (conditionals.directivesIn docs trail i) groups) := by
  rw [directivesIn_succ, runDirectives, List.foldl_append]
  rfl

/-- The directives before a line leave the groups around the document alone. -/
theorem Balanced.groupsIn_append (hbalanced : conditionals.Balanced docs trail v)
    (hi : i ≤ (docs.lines v).length) (base : List Group) :
    conditionals.groupsIn docs trail i ++ base =
      runDirectives (conditionals.directivesIn docs trail i) base := by
  obtain ⟨count, hcount⟩ := Nat.exists_eq_add_of_le hi
  have hsplit := hbalanced
  rw [Balanced, directivesIn, hcount, List.range_add, List.map_append, List.map_append,
    List.foldlM_append] at hsplit
  obtain ⟨depth, hdepth, -⟩ := Option.bind_eq_some_iff.mp hsplit
  have hnone : (([] : List Group) ++ base) = base := rfl
  rw [groupsIn, ← (runDirectives_append (by exact hdepth) base).1, hnone]

/-- Nothing is open at the end of a document. -/
theorem Balanced.groupsIn_eq_nil (hbalanced : conditionals.Balanced docs trail v) :
    conditionals.groupsIn docs trail (docs.lines v).length = [] := by
  have hdepth : ((conditionals.directivesIn docs trail (docs.lines v).length).map Prod.fst).foldlM
      Directive.deepen ([] : List Group).length = some 0 := hbalanced
  exact List.length_eq_zero_iff.mp (runDirectives_append hdepth []).2

/-- The groups around the lines follow the expansion. -/
theorem follows (hbalanced : ∀ trail stack v, docs.Opens trail (stack ++ [v]) →
    conditionals.Balanced docs trail v) :
    Follows docs conditionals.copyLine
      fun trail i ↦ conditionals.groupsAround docs (trail ++ [i]) := by
  refine ⟨?_, ?_, ?_, ?_⟩
  · intro trail stack i hopens hline
    rw [groupsAround_concat, groupsAround_concat]
    have hdirective : conditionals.directiveAt docs trail i = conditionals.directive trail i := by
      simp [directiveAt, hopens.path_eq, hline]
    rcases hopens.eq_top_or_concat with ⟨rfl, -⟩ | ⟨before, v, rfl⟩
    · rw [groupsAround_nil, List.append_nil, List.append_nil, groupsIn, groupsIn, runDirectives_succ,
        hdirective, copyLine]
    · rw [Documents.linesAt_concat] at hline
      have hi := (List.getElem?_eq_some_iff.mp hline).1
      have hv := hbalanced trail before v hopens
      rw [hv.groupsIn_append (Nat.le_of_lt hi), hv.groupsIn_append hi, runDirectives_succ, hdirective,
        copyLine]
  · intro trail stack i v hopens hline
    have hdirective : conditionals.directiveAt docs trail i = .plain := by
      simp [directiveAt, hopens.path_eq, hline]
    rw [groupsAround_concat, groupsAround_concat, groupsIn, runDirectives_succ, hdirective]
    rfl
  · intro trail stack i v hopens
    rw [groupsAround_concat, groupsIn_zero, List.nil_append]
  · intro trail stack i v hopens
    rw [groupsAround_concat, (hbalanced _ stack v hopens).groupsIn_eq_nil, List.nil_append]

end Conditionals

/-- The groups that are open before an event are those around its line. -/
theorem Expands.groups_before {V : Type} {docs : Documents V} {conditionals : Conditionals}
    {events before more : List (Event V)} {after : List V} {event : Event V}
    (hexpands : Expands docs [] [] 0 docs.top [] events after)
    (hbalanced : ∀ trail stack v, docs.Opens trail (stack ++ [v]) →
      conditionals.Balanced docs trail v)
    (hsplit : events = before ++ event :: more) :
    replay conditionals.copyLine [] before = conditionals.groupsAround docs event.position :=
  hexpands.traverses.replay_before (.top docs) (Conditionals.follows hbalanced) hsplit

end ZigbeeRemote.Foundation
