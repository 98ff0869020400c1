import ZigbeeRemote.Foundation.TimedQueue
import ZigbeeRemote.Server.Handlers
import ZigbeeRemote.Server.ZigbeeStack
import Mathlib.Algebra.GroupWithZero.Nat
import Mathlib.Algebra.Order.BigOperators.Group.List
import Mathlib.Algebra.Order.Group.Nat

/-!
# The sliced wait for an announcement

`handle_wait_annce` waits for an announcement in short slices, to look after each of them whether
its client is still there. This module compares it with one long `zigbee_wait_annce`, against any
timeline of announcements. Time counts in ticks of the scheduler; the code between two calls takes
none. `pdMS_TO_TICKS` belongs to the scheduler and is a parameter: it rounds down to whole ticks, and
a wait of `portMAX_DELAY` ticks has no deadline.

`waitAnnceSliced` is the loop of `handle_wait_annce` for any lengths. `sliced_wait_eq` is the
comparison, for lengths whose slices add up in ticks, which they do when the slice is a whole number
of ticks (`sliceTicks_of_whole`). `sliced_wait_short` is what happens with a slice that is not: the
time the rounding loses is lost for the wait.
-/

set_option autoImplicit false
set_option relaxedAutoImplicit false

namespace ZigbeeRemote.Server

open Foundation Rpc Zigbee ZigbeeStack

/-! ### The loop for any lengths -/

section Loop

/-- The time the loop waits in one call. -/
def sliceOf (slice remaining : UInt32) : UInt32 := if remaining < slice then remaining else slice

theorem sliceOf_le (slice remaining : UInt32) : sliceOf slice remaining ≤ remaining := by
  unfold sliceOf
  split_ifs with hlast
  · exact UInt32.le_refl remaining
  · exact UInt32.not_lt.mp hlast

theorem sliceOf_pos {slice remaining : UInt32} (hslice : 0 < slice) (hremaining : 0 < remaining) :
    0 < sliceOf slice remaining := by
  unfold sliceOf
  split_ifs
  · exact hremaining
  · exact hslice

/-- What is left after a slice. -/
theorem toNat_sub_sliceOf (slice remaining : UInt32) :
    (remaining - sliceOf slice remaining).toNat =
      remaining.toNat - (sliceOf slice remaining).toNat :=
  UInt32.toNat_sub_of_le _ _ (sliceOf_le slice remaining)

theorem sub_sliceOf_lt {slice remaining : UInt32} (hslice : 0 < slice) (hremaining : 0 < remaining) :
    (remaining - sliceOf slice remaining).toNat < remaining.toNat := by
  have hpos := UInt32.lt_iff_toNat_lt.mp (sliceOf_pos hslice hremaining)
  have hle := UInt32.le_iff_toNat_le.mp (sliceOf_le slice remaining)
  rw [toNat_sub_sliceOf]
  simp only [UInt32.toNat_zero] at hpos
  omega

variable {m : Type → Type} [Monad m] (waitAnnce : UInt32 → m UInt16)
  (pppUartIsConnected clientConnected : m Bool) {slice : UInt32}

/-- The loop of `handle_wait_annce`, with any slice. -/
def waitAnnceSliced (hslice : 0 < slice) (remaining : UInt32) : m U16Resp := do
  if _hremaining : remaining > 0 then
    if !(← pppUartIsConnected) then
      return ⟨toLe16 0⟩
    else if !(← clientConnected) then
      return ⟨toLe16 0⟩
    else
      let shortAddr ← waitAnnce (sliceOf slice remaining)
      if shortAddr ≠ 0 then
        return ⟨toLe16 shortAddr⟩
      else
        waitAnnceSliced hslice (remaining - sliceOf slice remaining)
  else
    return ⟨toLe16 0⟩
termination_by remaining.toNat
decreasing_by exact sub_sliceOf_lt hslice _hremaining

/-- The lengths of the slices. -/
def sliceLengths (hslice : 0 < slice) (remaining : UInt32) : List UInt32 :=
  if _hremaining : remaining > 0 then
    sliceOf slice remaining :: sliceLengths hslice (remaining - sliceOf slice remaining)
  else []
termination_by remaining.toNat
decreasing_by exact sub_sliceOf_lt hslice _hremaining

theorem sliceLengths_pos (hslice : 0 < slice) {remaining : UInt32} (hremaining : 0 < remaining) :
    sliceLengths hslice remaining =
      sliceOf slice remaining :: sliceLengths hslice (remaining - sliceOf slice remaining) := by
  rw [sliceLengths, dif_pos hremaining]

theorem sliceLengths_zero (hslice : 0 < slice) : sliceLengths hslice 0 = [] := by
  rw [sliceLengths, dif_neg (by decide)]

theorem eq_zero_of_not_pos {remaining : UInt32} (hremaining : ¬ remaining > 0) : remaining = 0 :=
  UInt32.le_zero_iff.mp (UInt32.not_lt.mp hremaining)

theorem kAnnceSliceMs_pos : 0 < kAnnceSliceMs := by decide

/-- The handler is the loop with its own lengths. -/
theorem handleWaitAnnce_eq (api : ZigbeeApi m) :
    handleWaitAnnce api pppUartIsConnected clientConnected =
      waitAnnceSliced api.waitAnnce pppUartIsConnected clientConnected kAnnceSliceMs_pos
        kAnnceTimeoutMs := by
  have hloop (remaining : UInt32) : waitAnnceLoop api pppUartIsConnected clientConnected remaining =
      waitAnnceSliced api.waitAnnce pppUartIsConnected clientConnected kAnnceSliceMs_pos
        remaining := by
    induction remaining using waitAnnceLoop.induct with
    | case1 remaining hremaining ih =>
      rw [waitAnnceLoop, waitAnnceSliced, dif_pos hremaining, dif_pos hremaining]
      have hnext : waitAnnceLoop api pppUartIsConnected clientConnected
          (remaining - annceSlice remaining) = waitAnnceSliced api.waitAnnce pppUartIsConnected
            clientConnected kAnnceSliceMs_pos (remaining - sliceOf kAnnceSliceMs remaining) := ih
      rw [hnext]
      rfl
    | case2 remaining hremaining =>
      rw [waitAnnceLoop, waitAnnceSliced, dif_neg hremaining, dif_neg hremaining]
  exact hloop kAnnceTimeoutMs

/-- The slices add up to the whole. -/
theorem sum_sliceLengths (hslice : 0 < slice) (remaining : UInt32) :
    ((sliceLengths hslice remaining).map UInt32.toNat).sum = remaining.toNat := by
  induction remaining using sliceLengths.induct hslice with
  | case1 remaining hremaining ih =>
    have hle := UInt32.le_iff_toNat_le.mp (sliceOf_le slice remaining)
    rw [sliceLengths_pos hslice hremaining, List.map_cons, List.sum_cons, ih, toNat_sub_sliceOf]
    omega
  | case2 remaining hremaining =>
    rw [eq_zero_of_not_pos hremaining, sliceLengths_zero]
    rfl

end Loop

/-! ### The wait against a timeline -/

/-- `portMAX_DELAY`. -/
def portMaxDelay : UInt32 := 0xFFFFFFFF

/-- The timeline of `s_annce_q`, and the timeouts of the waits so far. -/
structure Waiting where
  line : Timeline UInt16
  slices : List UInt32
  deriving DecidableEq

section Timed

variable (pdMsToTicks : UInt32 → UInt32)

/-- The deadline of a wait of so many ticks. -/
def waitOf (ticks : UInt32) : Option ℕ := if ticks = portMaxDelay then none else some ticks.toNat

/-- `zigbee_wait_annce`; the announcements come in by `xQueueSend` to a queue of four. -/
def waitAnnceTimed (timeoutMs : UInt32) : StateT Waiting Option UInt16 := fun waiting ↦
  (waiting.line.receive (xQueueSend 4) (waitOf (pdMsToTicks timeoutMs))).map fun result ↦
    (result.1.getD 0, ⟨result.2, waiting.slices ++ [timeoutMs]⟩)

/-- Whether something is there at the end of each slice. -/
def presence (present : ℕ → Bool) : StateT Waiting Option Bool := fun waiting ↦
  some (present waiting.slices.length, waiting)

variable {slice : UInt32} (hslice : 0 < slice) (linkUp clientUp : ℕ → Bool)

/-- The handler with any lengths, against a timeline. -/
def handleSliced (total : UInt32) : StateT Waiting Option U16Resp :=
  waitAnnceSliced (waitAnnceTimed pdMsToTicks) (presence linkUp) (presence clientUp) hslice total

/-- The loop is at a boundary between slices, with so much time left. -/
inductive AtBoundary (slice total : UInt32) (linkUp clientUp : ℕ → Bool) (start : Waiting) :
    UInt32 → Waiting → Prop
  | start : AtBoundary slice total linkUp clientUp start total start
  | next {remaining : UInt32} {waiting after : Waiting}
      (hbefore : AtBoundary slice total linkUp clientUp start remaining waiting)
      (hremaining : 0 < remaining) (hlink : linkUp waiting.slices.length = true)
      (hclient : clientUp waiting.slices.length = true)
      (hwait : (waitAnnceTimed pdMsToTicks (sliceOf slice remaining)).run waiting = some (0, after)) :
      AtBoundary slice total linkUp clientUp start (remaining - sliceOf slice remaining) after

/-- The ticks of all slices. -/
def sliceTicks (remaining : UInt32) : ℕ :=
  ((sliceLengths hslice remaining).map fun length ↦ (pdMsToTicks length).toNat).sum

variable {pdMsToTicks} {linkUp clientUp}

theorem run_waitAnnceTimed {timeoutMs : UInt32} (hfinite : pdMsToTicks timeoutMs ≠ portMaxDelay)
    (waiting : Waiting) :
    (waitAnnceTimed pdMsToTicks timeoutMs).run waiting =
      (waiting.line.receive (xQueueSend 4) (some (pdMsToTicks timeoutMs).toNat)).map fun result ↦
        (result.1.getD 0, ⟨result.2, waiting.slices ++ [timeoutMs]⟩) := by
  have hdeadline : waitOf (pdMsToTicks timeoutMs) = some (pdMsToTicks timeoutMs).toNat :=
    if_neg hfinite
  rw [← hdeadline]
  rfl

/-- A wait adds its timeout to the list. -/
theorem slices_waitAnnceTimed {timeoutMs : UInt32} {waiting after : Waiting} {shortAddr : UInt16}
    (hwait : (waitAnnceTimed pdMsToTicks timeoutMs).run waiting = some (shortAddr, after)) :
    after.slices = waiting.slices ++ [timeoutMs] := by
  obtain ⟨result, -, hresult⟩ := Option.map_eq_some_iff.mp hwait
  rw [← (Prod.mk.inj hresult).2]

/-- No time is left. -/
theorem handleSliced_zero (waiting : Waiting) :
    (handleSliced pdMsToTicks hslice linkUp clientUp 0).run waiting =
      some (⟨toLe16 0⟩, waiting) := by
  rw [handleSliced, waitAnnceSliced, dif_neg (by decide)]
  rfl

/-- The link or the client is gone. -/
theorem handleSliced_gone {remaining : UInt32} (hremaining : 0 < remaining) {waiting : Waiting}
    (hgone : linkUp waiting.slices.length = false ∨ clientUp waiting.slices.length = false) :
    (handleSliced pdMsToTicks hslice linkUp clientUp remaining).run waiting =
      some (⟨toLe16 0⟩, waiting) := by
  rw [handleSliced, waitAnnceSliced, dif_pos hremaining]
  cases hlink : linkUp waiting.slices.length with
  | false =>
    simp only [presence, StateT.run, bind, StateT.bind, Option.bind_some, hlink, Bool.not_false,
      if_true]
    rfl
  | true =>
    have hclient : clientUp waiting.slices.length = false := by simpa [hlink] using hgone
    simp only [presence, StateT.run, bind, StateT.bind, Option.bind_some, hlink, hclient,
      Bool.not_true, Bool.not_false, Bool.false_eq_true, if_false, if_true]
    rfl

/-- One slice of the wait. -/
theorem handleSliced_present {remaining : UInt32} (hremaining : 0 < remaining) {waiting : Waiting}
    (hlink : linkUp waiting.slices.length = true) (hclient : clientUp waiting.slices.length = true) :
    (handleSliced pdMsToTicks hslice linkUp clientUp remaining).run waiting =
      ((waitAnnceTimed pdMsToTicks (sliceOf slice remaining)).run waiting).bind fun result ↦
        if result.1 ≠ 0 then some (⟨toLe16 result.1⟩, result.2)
        else (handleSliced pdMsToTicks hslice linkUp clientUp
          (remaining - sliceOf slice remaining)).run result.2 := by
  rw [handleSliced, waitAnnceSliced, dif_pos hremaining]
  simp only [presence, StateT.run, bind, StateT.bind, Option.bind_some, hlink, hclient,
    Bool.not_true, Bool.false_eq_true, if_false]
  congr 1
  funext result
  by_cases hfound : result.1 = 0
  · rw [if_neg (not_not.mpr hfound), if_neg (not_not.mpr hfound)]
    rfl
  · rw [if_pos hfound, if_pos hfound]
    rfl

/-- What the handler does from a boundary is what it does from the start. -/
theorem AtBoundary.run_eq {total remaining : UInt32} {start waiting : Waiting}
    (hboundary : AtBoundary pdMsToTicks slice total linkUp clientUp start remaining waiting) :
    (handleSliced pdMsToTicks hslice linkUp clientUp total).run start =
      (handleSliced pdMsToTicks hslice linkUp clientUp remaining).run waiting := by
  induction hboundary with
  | start => rfl
  | next hbefore hremaining hlink hclient hwait ih =>
    rw [ih, handleSliced_present hslice hremaining hlink hclient, hwait]
    rfl

/-- What is left at a boundary and the slices so far add up to the whole. -/
theorem AtBoundary.sum_slices {total remaining : UInt32} {line : Timeline UInt16} {waiting : Waiting}
    (hboundary : AtBoundary pdMsToTicks slice total linkUp clientUp ⟨line, []⟩ remaining waiting) :
    remaining.toNat + (waiting.slices.map UInt32.toNat).sum = total.toNat := by
  induction hboundary with
  | start => simp
  | @next remaining waiting after hbefore hremaining hlink hclient hwait ih =>
    have hle := UInt32.le_iff_toNat_le.mp (sliceOf_le slice remaining)
    rw [slices_waitAnnceTimed hwait, List.map_append, List.sum_append, toNat_sub_sliceOf]
    simp only [List.map_cons, List.map_nil, List.sum_cons, List.sum_nil]
    omega

theorem mem_xQueueSend (queue : List UInt16) (shortAddr : UInt16) :
    ∀ other ∈ xQueueSend 4 queue shortAddr, other ∈ queue ∨ other = shortAddr := by
  unfold xQueueSend
  split_ifs
  · simp
  · exact fun other hother ↦ Or.inl hother

/-- The ticks of the slices, one after the other. -/
theorem sliceTicks_pos {remaining : UInt32} (hremaining : 0 < remaining) :
    sliceTicks pdMsToTicks hslice remaining =
      (pdMsToTicks (sliceOf slice remaining)).toNat +
        sliceTicks pdMsToTicks hslice (remaining - sliceOf slice remaining) := by
  rw [sliceTicks, sliceLengths_pos hslice hremaining, List.map_cons, List.sum_cons]
  rfl

theorem sliceTicks_zero : sliceTicks pdMsToTicks hslice 0 = 0 := by
  rw [sliceTicks, sliceLengths_zero]
  rfl

/-- While link and client are there, the handler does what one wait does that is as long as its
slices together. -/
theorem handleSliced_eq_receive (hlink : ∀ boundary, linkUp boundary = true)
    (hclient : ∀ boundary, clientUp boundary = true) (remaining : UInt32) (waiting : Waiting)
    (hnonzero : waiting.line.Forall (· ≠ 0))
    (hfinite : ∀ length ∈ sliceLengths hslice remaining, pdMsToTicks length ≠ portMaxDelay)
    (hstart : 0 < remaining ∨
      waiting.line.receive (xQueueSend 4) (some 0) = some (none, waiting.line)) :
    ∃ found line used,
      waiting.line.receive (xQueueSend 4) (some (sliceTicks pdMsToTicks hslice remaining)) =
        some (found, line) ∧
      (handleSliced pdMsToTicks hslice linkUp clientUp remaining).run waiting =
        some (⟨toLe16 (found.getD 0)⟩, ⟨line, waiting.slices ++ used⟩) ∧
      (∀ shortAddr ∈ found, shortAddr ≠ 0) ∧
      (found = none → used = sliceLengths hslice remaining) := by
  induction remaining using sliceLengths.induct hslice generalizing waiting with
  | case2 remaining hremaining =>
    obtain rfl := eq_zero_of_not_pos hremaining
    refine ⟨none, waiting.line, [], ?_, ?_, by simp, fun _ ↦ (sliceLengths_zero hslice).symm⟩
    · rw [sliceTicks_zero]
      exact hstart.resolve_left hremaining
    · rw [handleSliced_zero, List.append_nil]
      rfl
  | case1 remaining hremaining ih =>
    rw [sliceLengths_pos hslice hremaining] at hfinite ⊢
    set first := sliceOf slice remaining with hfirst
    obtain ⟨found, line, hreceive⟩ := Timeline.exists_receive (xQueueSend 4)
      (pdMsToTicks first).toNat waiting.line
    obtain ⟨hfound, hline⟩ := hnonzero.receive mem_xQueueSend hreceive
    have hwait : (waitAnnceTimed pdMsToTicks first).run waiting =
        some (found.getD 0, ⟨line, waiting.slices ++ [first]⟩) := by
      rw [run_waitAnnceTimed (hfinite first List.mem_cons_self), hreceive]
      rfl
    rw [sliceTicks_pos hslice hremaining, Timeline.receive_add, ← hfirst, hreceive,
      handleSliced_present hslice hremaining (hlink _) (hclient _), ← hfirst, hwait]
    cases found with
    | some shortAddr =>
      have hother := hfound shortAddr rfl
      refine ⟨some shortAddr, line, [first], rfl, ?_, hfound, by simp⟩
      exact if_pos hother
    | none =>
      have hempty : line.receive (xQueueSend 4) (some 0) = some (none, line) := by
        have hadd := Timeline.receive_add (xQueueSend 4) (pdMsToTicks first).toNat 0
          waiting.line
        rw [Nat.add_zero, hreceive] at hadd
        exact hadd.symm
      obtain ⟨found, after, used, hlater, hrun, hnext, hall⟩ := ih ⟨line, waiting.slices ++ [first]⟩
        hline (fun length hlength ↦ hfinite length (List.mem_cons_of_mem first hlength))
        (Or.inr hempty)
      refine ⟨found, after, first :: used, hlater, ?_, hnext, fun hnone ↦ ?_⟩
      · have hslices : waiting.slices ++ first :: used = waiting.slices ++ [first] ++ used := by simp
        rw [hslices]
        exact hrun
      · rw [hall hnone]

/-- A wait that is longer than its slices would be together has no slice without a deadline. -/
theorem finite_slices {total : UInt32} (hfinite : pdMsToTicks total ≠ portMaxDelay)
    (hticks : sliceTicks pdMsToTicks hslice total = (pdMsToTicks total).toNat) :
    ∀ length ∈ sliceLengths hslice total, pdMsToTicks length ≠ portMaxDelay := by
  intro length hlength hforever
  have hle : (pdMsToTicks length).toNat ≤ sliceTicks pdMsToTicks hslice total :=
    List.le_sum_of_mem (List.mem_map_of_mem hlength)
  have hbound := (pdMsToTicks total).toNat_lt
  have hmax : portMaxDelay.toNat = 2 ^ 32 - 1 := rfl
  refine hfinite (UInt32.toNat_inj.mp ?_)
  rw [hforever, hticks] at hle
  omega

/-- The sliced wait and one long wait, for any lengths. While the link and the client are there, and
the slices add up to the long wait in ticks, the handler returns the same address as one call of
`zigbee_wait_annce` and leaves the same queue at the same time, with the same announcements still to
come; when it times out, its slices add up to the whole timeout. At every boundary between slices, the
slices so far and what remains are the whole timeout, and the next slice is no longer than what
remains. When the link or the client is gone at a boundary with time left, the handler returns zero
and leaves everything as it is at that boundary. `handle_wait_annce` is the handler with its own
lengths. Assumes: slice and total are positive, and the
announcements, those in the queue included, do not have the address zero. -/
theorem sliced_wait_eq (line : Timeline UInt16) (hnonzero : line.Forall (· ≠ 0)) {total : UInt32}
    (htotal : 0 < total) :
    (pdMsToTicks total ≠ portMaxDelay →
      sliceTicks pdMsToTicks hslice total = (pdMsToTicks total).toNat →
      (∀ boundary, linkUp boundary = true) → (∀ boundary, clientUp boundary = true) →
      ∃ shortAddr after used,
        (waitAnnceTimed pdMsToTicks total).run ⟨line, []⟩ = some (shortAddr, ⟨after, [total]⟩) ∧
        (handleSliced pdMsToTicks hslice linkUp clientUp total).run ⟨line, []⟩ =
          some (⟨toLe16 shortAddr⟩, ⟨after, used⟩) ∧
        (shortAddr = 0 → (used.map UInt32.toNat).sum = total.toNat)) ∧
    (∀ remaining waiting,
      AtBoundary pdMsToTicks slice total linkUp clientUp ⟨line, []⟩ remaining waiting →
      remaining.toNat + (waiting.slices.map UInt32.toNat).sum = total.toNat ∧
        sliceOf slice remaining ≤ remaining ∧
        (0 < remaining → (linkUp waiting.slices.length = false ∨
            clientUp waiting.slices.length = false) →
          (handleSliced pdMsToTicks hslice linkUp clientUp total).run ⟨line, []⟩ =
            some (⟨toLe16 0⟩, waiting))) ∧
    ∀ api : ZigbeeApi (StateT Waiting Option), api.waitAnnce = waitAnnceTimed pdMsToTicks →
      handleWaitAnnce api (presence linkUp) (presence clientUp) =
        handleSliced pdMsToTicks kAnnceSliceMs_pos linkUp clientUp kAnnceTimeoutMs := by
  refine ⟨?_, ?_, fun api hwait ↦ ?_⟩
  · intro hfinite hticks hlink hclient
    obtain ⟨found, after, used, hreceive, hrun, hfound, hall⟩ := handleSliced_eq_receive hslice hlink
      hclient total ⟨line, []⟩ hnonzero (finite_slices hslice hfinite hticks) (Or.inl htotal)
    refine ⟨found.getD 0, after, used, ?_, hrun, fun hzero ↦ ?_⟩
    · rw [run_waitAnnceTimed hfinite, ← hticks, hreceive]
      rfl
    · have hnone : found = none := by
        cases found with
        | none => rfl
        | some shortAddr => exact absurd hzero (hfound shortAddr rfl)
      rw [hall hnone, sum_sliceLengths]
  · intro remaining waiting hboundary
    refine ⟨hboundary.sum_slices, sliceOf_le slice remaining, fun hremaining hgone ↦ ?_⟩
    rw [hboundary.run_eq hslice, handleSliced_gone hslice hremaining hgone]
  · rw [handleWaitAnnce_eq, hwait, handleSliced]

end Timed

/-! ### Slices of whole ticks -/

section Ticks

/-- `pdMS_TO_TICKS` at a tick rate of 100 Hz, the default of the board's scheduler. -/
def ticksAt100Hz (timeMs : UInt32) : UInt32 := UInt32.ofNat (timeMs.toNat * 100 / 1000)

theorem toNat_ticksAt100Hz (timeMs : UInt32) :
    (ticksAt100Hz timeMs).toNat = timeMs.toNat * 100 / 1000 := by
  have hbound := timeMs.toNat_lt
  exact UInt32.toNat_ofNat_of_lt' (by show _ < 2 ^ 32; omega)

/-- The slices add up in ticks when each but the last is a whole number of ticks. -/
theorem sliceTicks_of_whole {pdMsToTicks : UInt32 → UInt32} {rate : ℕ}
    (hrounds : ∀ timeMs, (pdMsToTicks timeMs).toNat = timeMs.toNat * rate / 1000) {slice : UInt32}
    (hslice : 0 < slice) (hwhole : 1000 ∣ slice.toNat * rate) (total : UInt32) :
    sliceTicks pdMsToTicks hslice total = (pdMsToTicks total).toNat := by
  induction total using sliceLengths.induct hslice with
  | case1 remaining hremaining ih =>
    rw [sliceTicks_pos hslice hremaining, ih]
    by_cases hlast : remaining < slice
    · rw [sliceOf, if_pos hlast, UInt32.sub_self, hrounds 0]
      simp
    · have hle := UInt32.le_iff_toNat_le.mp (UInt32.not_lt.mp hlast)
      obtain ⟨ticks, hticks⟩ := hwhole
      have hsplit : remaining.toNat * rate =
          1000 * ticks + (remaining.toNat - slice.toNat) * rate := by
        rw [← hticks, ← Nat.add_mul, Nat.add_sub_cancel' hle]
      rw [sliceOf, if_neg hlast, hrounds, hrounds, hrounds,
        UInt32.toNat_sub_of_le _ _ (UInt32.not_lt.mp hlast), hsplit, hticks,
        Nat.mul_add_div (by decide), Nat.mul_div_cancel_left _ (by decide)]
  | case2 remaining hremaining =>
    rw [eq_zero_of_not_pos hremaining, sliceTicks_zero, hrounds]
    simp

/-- The lengths of `handle_wait_annce` are whole numbers of ticks. -/
theorem sliced_wait_eq_annce :
    ∃ shortAddr after used,
      (waitAnnceTimed ticksAt100Hz kAnnceTimeoutMs).run ⟨⟨0, [], [⟨30, [0x1956]⟩]⟩, []⟩ =
        some (shortAddr, ⟨after, [kAnnceTimeoutMs]⟩) ∧
      (handleSliced ticksAt100Hz kAnnceSliceMs_pos (fun _ ↦ true) (fun _ ↦ true)
        kAnnceTimeoutMs).run ⟨⟨0, [], [⟨30, [0x1956]⟩]⟩, []⟩ =
          some (⟨toLe16 shortAddr⟩, ⟨after, used⟩) ∧
      (shortAddr = 0 → (used.map UInt32.toNat).sum = kAnnceTimeoutMs.toNat) :=
  (sliced_wait_eq kAnnceSliceMs_pos ⟨0, [], [⟨30, [0x1956]⟩]⟩
    (by simp [Timeline.Forall]) (show 0 < kAnnceTimeoutMs by decide)).1 (by decide)
    (sliceTicks_of_whole toNat_ticksAt100Hz kAnnceSliceMs_pos (by decide) kAnnceTimeoutMs)
    (fun _ ↦ rfl) (fun _ ↦ rfl)

/-- Two slices of nine and one milliseconds are no ticks at all, and ten milliseconds are one: the
long wait finds the announcement and the sliced wait does not. -/
theorem sliced_wait_short :
    (waitAnnceTimed ticksAt100Hz 10).run ⟨⟨0, [], [⟨0, [0x1956]⟩]⟩, []⟩ =
        some (0x1956, ⟨⟨0, [], []⟩, [10]⟩) ∧
      (handleSliced ticksAt100Hz (show (0 : UInt32) < 9 by decide) (fun _ ↦ true) (fun _ ↦ true)
        10).run ⟨⟨0, [], [⟨0, [0x1956]⟩]⟩, []⟩ =
          some (⟨toLe16 0⟩, ⟨⟨0, [], [⟨0, [0x1956]⟩]⟩, [9, 1]⟩) := by
  have hslice : (0 : UInt32) < 9 := by decide
  refine ⟨by decide, ?_⟩
  have hfirst : (waitAnnceTimed ticksAt100Hz (sliceOf 9 10)).run ⟨⟨0, [], [⟨0, [0x1956]⟩]⟩, []⟩ =
      some (0, ⟨⟨0, [], [⟨0, [0x1956]⟩]⟩, [9]⟩) := by decide
  have hsecond : (waitAnnceTimed ticksAt100Hz (sliceOf 9 1)).run ⟨⟨0, [], [⟨0, [0x1956]⟩]⟩, [9]⟩ =
      some (0, ⟨⟨0, [], [⟨0, [0x1956]⟩]⟩, [9, 1]⟩) := by decide
  have hboundary : AtBoundary ticksAt100Hz 9 10 (fun _ ↦ true) (fun _ ↦ true)
      ⟨⟨0, [], [⟨0, [0x1956]⟩]⟩, []⟩ 0 ⟨⟨0, [], [⟨0, [0x1956]⟩]⟩, [9, 1]⟩ :=
    .next (.next .start (by decide) rfl rfl hfirst) (by decide) rfl rfl hsecond
  rw [hboundary.run_eq hslice, handleSliced_zero]

end Ticks

end ZigbeeRemote.Server
