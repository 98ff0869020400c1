import Mathlib.Data.List.Basic

/-!
# Waiting at a queue against a timeline

A queue into which items come at times of their own, and a task that takes them out one by one. A
`Burst` is the items that come at one time, before the waiting task runs again; `send` says how an
item enters the queue and may drop it. `receive` is the blocking call: it takes the first item,
waits for one up to a deadline, or without one. A call without a deadline that waits for an item
that never comes does not return.

`receive_add` is the rule for a wait that is cut in two: the second part begins when the first has
timed out, and together they do what one wait of the added length does.
-/

set_option autoImplicit false
set_option relaxedAutoImplicit false

namespace ZigbeeRemote.Foundation

/-- Items that come at one time. -/
structure Burst (α : Type) where
  time : ℕ
  items : List α
  deriving DecidableEq

/-- The time, the queue, and what is still to come. -/
structure Timeline (α : Type) where
  now : ℕ
  queue : List α
  coming : List (Burst α)
  deriving DecidableEq

namespace Timeline

variable {α : Type} (send : List α → α → List α)

/-- Wait at an empty queue. -/
def await (deadline : Option ℕ) : ℕ → List (Burst α) → Option (Option α × Timeline α)
  | _, [] => deadline.map fun time ↦ (none, ⟨time, [], []⟩)
  | now, burst :: coming =>
    if deadline.all fun time ↦ burst.time < time then
      match burst.items.foldl send [] with
      | item :: queue => some (some item, ⟨max now burst.time, queue, coming⟩)
      | [] => await deadline (max now burst.time) coming
    else deadline.map fun time ↦ (none, ⟨time, [], burst :: coming⟩)

/-- Take the first item out of the queue, waiting for it if there is none. -/
def receive (wait : Option ℕ) (timeline : Timeline α) : Option (Option α × Timeline α) :=
  match timeline.queue with
  | item :: queue => some (some item, { timeline with queue := queue })
  | [] => await send (wait.map (timeline.now + ·)) timeline.now timeline.coming

/-- All items, in the queue and to come, have a property. -/
def Forall (P : α → Prop) (timeline : Timeline α) : Prop :=
  (∀ item ∈ timeline.queue, P item) ∧ ∀ burst ∈ timeline.coming, ∀ item ∈ burst.items, P item

/-- What follows a wait: the item, or another wait. -/
def orElse (next : Timeline α → Option (Option α × Timeline α)) :
    Option α × Timeline α → Option (Option α × Timeline α)
  | (some item, timeline) => some (some item, timeline)
  | (none, timeline) => next timeline

theorem await_add {first second : ℕ} (hdeadlines : first ≤ second) {now : ℕ} (hnow : now ≤ first)
    (coming : List (Burst α)) :
    await send (some second) now coming =
      (await send (some first) now coming).bind
        (orElse fun timeline ↦ await send (some second) timeline.now timeline.coming) := by
  induction coming generalizing now with
  | nil => rfl
  | cons burst coming ih =>
    by_cases hearly : burst.time < first
    · -- The burst comes in the first part of the wait.
      have hboth : burst.time < second := by omega
      simp only [await, Option.all_some, hearly, hboth, decide_true, if_true]
      cases burst.items.foldl send [] with
      | cons item queue => rfl
      | nil => exact ih (by omega)
    · have hpassed : max now burst.time = max first burst.time := by omega
      simp [await, hearly, hpassed, orElse]

variable {send} in
/-- Only a wait that finds nothing ends at its deadline. -/
theorem await_none {deadline : Option ℕ} {now : ℕ} {coming : List (Burst α)} {after : Timeline α}
    (hawait : await send deadline now coming = some (none, after)) :
    deadline = some after.now ∧ after.queue = [] := by
  induction coming generalizing now with
  | nil =>
    obtain ⟨time, hdeadline, hafter⟩ := Option.map_eq_some_iff.mp hawait
    rw [← (Prod.mk.inj hafter).2]
    exact ⟨hdeadline, rfl⟩
  | cons burst coming ih =>
    rw [await] at hawait
    split_ifs at hawait with hearly
    · cases hitems : burst.items.foldl send [] with
      | cons item queue => simp [hitems] at hawait
      | nil =>
        rw [hitems] at hawait
        exact ih hawait
    · obtain ⟨time, hdeadline, hafter⟩ := Option.map_eq_some_iff.mp hawait
      rw [← (Prod.mk.inj hafter).2]
      exact ⟨hdeadline, rfl⟩

/-- A wait that is cut in two. -/
theorem receive_add (first second : ℕ) (timeline : Timeline α) :
    receive send (some (first + second)) timeline =
      (receive send (some first) timeline).bind (orElse (receive send (some second))) := by
  obtain ⟨now, queue, coming⟩ := timeline
  cases queue with
  | cons item queue => rfl
  | nil =>
    have hadd := await_add send (Nat.add_le_add_left (Nat.le_add_right first second) now)
      (Nat.le_add_right now first) coming
    simp only [receive, Option.map_some]
    rw [hadd]
    cases hawait : await send (some (now + first)) now coming with
    | none => rfl
    | some result =>
      obtain ⟨found, after⟩ := result
      cases found with
      | some item => rfl
      | none =>
        obtain ⟨hdeadline, hqueue⟩ := await_none hawait
        obtain ⟨time, queue, later⟩ := after
        obtain rfl : queue = [] := hqueue
        obtain rfl : now + first = time := Option.some.inj hdeadline
        simp only [Option.bind_some, orElse, receive, Option.map_some, Nat.add_assoc]

/-- A wait with a deadline returns. -/
theorem exists_receive (wait : ℕ) (timeline : Timeline α) :
    ∃ found after, receive send (some wait) timeline = some (found, after) := by
  obtain ⟨now, queue, coming⟩ := timeline
  cases queue with
  | cons item queue => exact ⟨_, _, rfl⟩
  | nil =>
    have hawait (deadline now : ℕ) :
        ∃ found after, await send (some deadline) now coming = some (found, after) := by
      induction coming generalizing now with
      | nil => exact ⟨_, _, rfl⟩
      | cons burst coming ih =>
        by_cases hearly : burst.time < deadline
        · cases hitems : burst.items.foldl send [] with
          | cons item queue => simp [await, hearly, hitems]
          | nil => simpa [await, hearly, hitems] using ih (max now burst.time)
        · simp [await, hearly]
    exact hawait (now + wait) now

variable {send}

section Forall

variable {P : α → Prop}
  (hsend : ∀ queue item, ∀ other ∈ send queue item, other ∈ queue ∨ other = item)

include hsend

theorem forall_foldl_send {items queue : List α} (hqueue : ∀ item ∈ queue, P item)
    (hitems : ∀ item ∈ items, P item) : ∀ item ∈ items.foldl send queue, P item := by
  induction items generalizing queue with
  | nil => exact hqueue
  | cons item items ih =>
    refine ih (fun other hother ↦ ?_) fun other hother ↦
      hitems other (List.mem_cons_of_mem item hother)
    rcases hsend queue item other hother with hold | rfl
    · exact hqueue other hold
    · exact hitems other List.mem_cons_self

theorem forall_await {deadline : Option ℕ} {now : ℕ} {coming : List (Burst α)} {found : Option α}
    {after : Timeline α} (hcoming : ∀ burst ∈ coming, ∀ item ∈ burst.items, P item)
    (hawait : await send deadline now coming = some (found, after)) :
    (∀ item ∈ found, P item) ∧ after.Forall P := by
  induction coming generalizing now with
  | nil =>
    obtain ⟨time, -, hafter⟩ := Option.map_eq_some_iff.mp hawait
    obtain ⟨rfl, rfl⟩ := Prod.mk.inj hafter
    exact ⟨by simp, by simp [Forall]⟩
  | cons burst coming ih =>
    have hlater : ∀ later ∈ coming, ∀ item ∈ later.items, P item := fun later hlater ↦
      hcoming later (List.mem_cons_of_mem burst hlater)
    have hburst : ∀ item ∈ burst.items.foldl send [], P item :=
      forall_foldl_send hsend (by simp) (hcoming burst List.mem_cons_self)
    rw [await] at hawait
    split_ifs at hawait with hearly
    · cases hitems : burst.items.foldl send [] with
      | nil =>
        rw [hitems] at hawait
        exact ih hlater hawait
      | cons item queue =>
        rw [hitems] at hawait hburst
        obtain ⟨rfl, rfl⟩ := Prod.mk.inj (Option.some.inj hawait)
        refine ⟨fun other hother ↦ ?_, fun other hother ↦ ?_, hlater⟩
        · obtain rfl := Option.some.inj hother
          exact hburst _ List.mem_cons_self
        · exact hburst other (List.mem_cons_of_mem item hother)
    · obtain ⟨time, -, hafter⟩ := Option.map_eq_some_iff.mp hawait
      obtain ⟨rfl, rfl⟩ := Prod.mk.inj hafter
      exact ⟨by simp, by simp, hcoming⟩

/-- What is received was in the queue or came, and so has the property of all items. -/
theorem Forall.receive {wait : Option ℕ} {timeline after : Timeline α} {found : Option α}
    (hall : timeline.Forall P) (hreceive : timeline.receive send wait = some (found, after)) :
    (∀ item ∈ found, P item) ∧ after.Forall P := by
  obtain ⟨now, queue, coming⟩ := timeline
  cases queue with
  | nil => exact forall_await hsend hall.2 hreceive
  | cons item queue =>
    obtain ⟨rfl, rfl⟩ := Prod.mk.inj (Option.some.inj hreceive)
    refine ⟨fun other hother ↦ ?_, fun other hother ↦ ?_, hall.2⟩
    · obtain rfl := Option.some.inj hother
      exact hall.1 _ List.mem_cons_self
    · exact hall.1 other (List.mem_cons_of_mem item hother)

end Forall

end Timeline

end ZigbeeRemote.Foundation
