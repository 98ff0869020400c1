import Mathlib.Data.List.Basic
import Mathlib.Order.Basic

/-!
# Runs of a transition system

A transition system is a relation `step` between states, labelled by what happens. `Run` is a
finite run with the list of its labels, `Reachable` forgets the labels. `Run.invariant` and
`Reachable.invariant` are the induction rules: what holds at the start and survives every step holds
at the end of every run.

`restrict step ok` keeps only the steps that meet a condition on the state they leave and their
label, so that a run of `restrict step ok` is a run all of whose steps meet the condition
(`Reachable.of_restrict`).

`Inevitable step final` holds of the states from which every run comes to a final one, if it goes on and
does not stay where it is for ever.

Where the steps can be computed, `execute` computes the state a list of labels leads to, and
`Run.of_execute` and `Reachable.of_execute` make a run of it.
-/

set_option autoImplicit false
set_option relaxedAutoImplicit false

namespace ZigbeeRemote.Foundation

section Runs

variable {State Label : Type} {step : State → Label → State → Prop}

/-- A finite run, with the labels of its steps in order. -/
inductive Run (step : State → Label → State → Prop) (start : State) : List Label → State → Prop
  | refl : Run step start [] start
  | tail {labels : List Label} {before after : State} {label : Label}
      (hrun : Run step start labels before) (hstep : step before label after) :
      Run step start (labels ++ [label]) after

/-- Some run leads from `start` to `state`. -/
def Reachable (step : State → Label → State → Prop) (start state : State) : Prop :=
  ∃ labels, Run step start labels state

/-- What holds at the start of a run and survives every step holds at its end. -/
theorem Run.invariant {invariant : State → Prop} {start finish : State} {labels : List Label}
    (hrun : Run step start labels finish) (hstart : invariant start)
    (hstep : ∀ before label after, invariant before → step before label after → invariant after) :
    invariant finish := by
  induction hrun with
  | refl => exact hstart
  | tail _ hlast ih => exact hstep _ _ _ ih hlast

theorem Reachable.refl (start : State) : Reachable step start start := ⟨[], .refl⟩

theorem Reachable.tail {start before after : State} {label : Label}
    (hreach : Reachable step start before) (hstep : step before label after) :
    Reachable step start after := by
  obtain ⟨labels, hrun⟩ := hreach
  exact ⟨labels ++ [label], hrun.tail hstep⟩

/-- A run goes on from where another has led to. -/
theorem Reachable.run {start middle finish : State} {labels : List Label}
    (hreach : Reachable step start middle) (hrun : Run step middle labels finish) :
    Reachable step start finish := by
  induction hrun with
  | refl => exact hreach
  | tail _ hstep ih => exact ih.tail hstep

/-- What holds at the start and survives every step holds of every reachable state. -/
theorem Reachable.invariant {invariant : State → Prop} {start finish : State}
    (hreach : Reachable step start finish) (hstart : invariant start)
    (hstep : ∀ before label after, invariant before → step before label after → invariant after) :
    invariant finish := by
  obtain ⟨labels, hrun⟩ := hreach
  exact hrun.invariant hstart hstep

/-- The steps that meet a condition on the state they leave and their label. -/
def restrict (step : State → Label → State → Prop) (ok : State → Label → Prop) :
    State → Label → State → Prop :=
  fun before label after ↦ step before label after ∧ ok before label

theorem Reachable.of_restrict {ok : State → Label → Prop} {start finish : State}
    (hreach : Reachable (restrict step ok) start finish) : Reachable step start finish :=
  hreach.invariant (Reachable.refl start) fun _ _ _ hbefore hstep ↦ hbefore.tail hstep.1

/-- Whatever steps are made, a final state comes after finitely many that change the state, and until
then there is such a step to make. -/
inductive Inevitable (step : State → Label → State → Prop) (final : State → Prop) : State → Prop
  | now {state : State} (hfinal : final state) : Inevitable step final state
  | later {state : State} (hcan : ∃ label after, step state label after ∧ after ≠ state)
      (hall : ∀ label after, step state label after → after ≠ state → Inevitable step final after) :
      Inevitable step final state

theorem Inevitable.imp {final weaker : State → Prop} {state : State}
    (hinevitable : Inevitable step final state) (himp : ∀ state, final state → weaker state) :
    Inevitable step weaker state := by
  induction hinevitable with
  | now hfinal => exact .now (himp _ hfinal)
  | later hcan _ ih => exact .later hcan ih

/-- What is inevitable stays so. Assumes: a final state does not change. -/
theorem Inevitable.of_reachable {final : State → Prop} {start state : State}
    (hinevitable : Inevitable step final start)
    (hstays : ∀ before label after, final before → step before label after → after = before)
    (hreach : Reachable step start state) : Inevitable step final state := by
  refine hreach.invariant hinevitable fun before label after hbefore hstep ↦ ?_
  by_cases hchanged : after = before
  · rw [hchanged]
    exact hbefore
  · cases hbefore with
    | now hfinal => exact absurd (hstays before label after hfinal hstep) hchanged
    | later _ hall => exact hall label after hstep hchanged

/-- A final state can be reached. -/
theorem Inevitable.exists_reachable {final : State → Prop} {state : State}
    (hinevitable : Inevitable step final state) :
    ∃ later, Reachable step state later ∧ final later := by
  induction hinevitable with
  | @now state hfinal => exact ⟨state, .refl state, hfinal⟩
  | @later state hcan _ ih =>
    obtain ⟨label, after, hstep, hchanged⟩ := hcan
    obtain ⟨finish, ⟨labels, hrun⟩, hfinal⟩ := ih label after hstep hchanged
    exact ⟨finish, ((Reachable.refl state).tail hstep).run hrun, hfinal⟩

/-- Induction along the steps that change the state. Assumes: a final state does not change. -/
theorem Inevitable.descend {final : State → Prop} {motive : State → Prop} {state : State}
    (hinevitable : Inevitable step final state)
    (hstays : ∀ before label after, final before → step before label after → after = before)
    (hdescend : ∀ before, Inevitable step final before →
      (∀ label after, step before label after → after ≠ before → motive after) → motive before) :
    motive state := by
  induction hinevitable with
  | now hfinal =>
    refine hdescend _ (.now hfinal) fun label after hstep hchanged ↦ ?_
    exact absurd (hstays _ label after hfinal hstep) hchanged
  | later hcan hall ih => exact hdescend _ (.later hcan hall) ih

/-- The state after the given steps, if they can all be made and all meet a condition. -/
def execute (next : State → Label → Option State) (ok : State → Label → Bool) :
    State → List Label → Option State
  | state, [] => some state
  | state, label :: labels =>
    if ok state label then (next state label).bind fun later ↦ execute next ok later labels else none

/-- What can be executed is a run. Assumes: the executed steps are steps of the system. -/
theorem Reachable.of_execute {next : State → Label → Option State}
    (hnext : ∀ {before label after}, next before label = some after → step before label after)
    (ok : State → Label → Bool) {start before finish : State} (labels : List Label)
    (hreach : Reachable (restrict step fun state label ↦ ok state label = true) start before)
    (hexecute : execute next ok before labels = some finish) :
    Reachable (restrict step fun state label ↦ ok state label = true) start finish := by
  induction labels generalizing before with
  | nil => exact Option.some.inj hexecute ▸ hreach
  | cons label labels ih =>
    simp only [execute] at hexecute
    split_ifs at hexecute with hok
    obtain ⟨later, hlater, hrest⟩ := Option.bind_eq_some_iff.mp hexecute
    exact ih (hreach.tail ⟨hnext hlater, hok⟩) hrest

/-- What can be executed is a run with these labels. Assumes: the executed steps are steps of the
system. -/
theorem Run.of_execute {next : State → Label → Option State}
    (hnext : ∀ {before label after}, next before label = some after → step before label after)
    {ok : State → Label → Bool} {start before finish : State} {made labels : List Label}
    (hrun : Run step start made before) (hexecute : execute next ok before labels = some finish) :
    Run step start (made ++ labels) finish := by
  induction labels generalizing before made with
  | nil =>
    rw [List.append_nil]
    exact Option.some.inj hexecute ▸ hrun
  | cons label labels ih =>
    simp only [execute] at hexecute
    split_ifs at hexecute with hok
    obtain ⟨later, hlater, hrest⟩ := Option.bind_eq_some_iff.mp hexecute
    rw [List.append_cons]
    exact ih (hrun.tail (hnext hlater)) hrest

/-- What can be executed under a condition is a run whose steps meet it. Assumes: the executed steps
are steps of the system. -/
theorem Run.restrict_of_execute {next : State → Label → Option State} {ok : State → Label → Prop}
    [∀ state label, Decidable (ok state label)]
    (hnext : ∀ {before label after}, next before label = some after → step before label after)
    {start before finish : State} {made labels : List Label}
    (hrun : Run (restrict step ok) start made before)
    (hexecute :
      execute next (fun state label ↦ decide (ok state label)) before labels = some finish) :
    Run (restrict step ok) start (made ++ labels) finish := by
  induction labels generalizing before made with
  | nil =>
    rw [List.append_nil]
    exact Option.some.inj hexecute ▸ hrun
  | cons label labels ih =>
    simp only [execute] at hexecute
    split_ifs at hexecute with hok
    obtain ⟨later, hlater, hrest⟩ := Option.bind_eq_some_iff.mp hexecute
    rw [List.append_cons]
    exact ih (hrun.tail ⟨hnext hlater, of_decide_eq_true hok⟩) hrest

/-- A state found by executing steps can be reached. Assumes: the executed steps are steps of the
system. -/
theorem Reachable.exists_of_execute {next : State → Label → Option State}
    (hnext : ∀ {before label after}, next before label = some after → step before label after)
    {ok : State → Label → Bool} {start : State} (labels : List Label) {test : State → Bool}
    (hexecute : (execute next ok start labels).any test = true) :
    ∃ state, Reachable (restrict step fun state label ↦ ok state label = true) start state ∧
      test state = true := by
  obtain ⟨state, hstate, htest⟩ := (Option.any_eq_true _ _).mp hexecute
  exact ⟨state, .of_execute hnext ok labels (.refl start) hstate, htest⟩

end Runs

end ZigbeeRemote.Foundation
