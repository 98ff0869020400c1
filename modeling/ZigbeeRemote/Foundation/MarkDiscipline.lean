import ZigbeeRemote.Foundation.TransitionSystem
import ZigbeeRemote.Foundation.StreamConnection

/-!
# The order of marks

What marks a program leaves, whatever its peer sends, whichever of its system calls fail, and
whatever other threads do to the state of the machine in the meantime. An `order` is a transition
relation over phases whose labels are the marks. `Prog.Along` says that a program leaves its marks
along the order on every path, and a program that leaves none is `Prog.Quiet`. Both have rules along
the structure of programs; `Thread.Step.along` is the step lemma for a program in execution.
-/

set_option autoImplicit false
set_option relaxedAutoImplicit false

namespace ZigbeeRemote.Foundation

section Along

variable {σ ε α β φ : Type}

namespace Prog

/-- On every path a program leaves its marks along an order and ends with a condition. The state
that a query finds is arbitrary, since it may have been changed from outside. -/
def Along (order : φ → ε → φ → Prop) (post : α → φ → Prop) : Prog σ ε α → φ → Prop
  | .done value, phase => post value phase
  | .recv size next, phase =>
    (∀ bytes : Bytes, bytes.length = size → (next (some bytes)).Along order post phase) ∧
      (next none).Along order post phase
  | .send _ next, phase => ∀ sent, (next sent).Along order post phase
  | .query _ next, phase => ∀ state, (next state).Along order post phase
  | .note mark next, phase => ∃ later, order phase mark later ∧ next.Along order post later

/-- A program leaves no marks. -/
def Quiet : Prog σ ε α → Prop
  | .done _ => True
  | .recv _ next => ∀ bytes, (next bytes).Quiet
  | .send _ next => ∀ sent, (next sent).Quiet
  | .query _ next => ∀ state, (next state).Quiet
  | .note _ _ => False

variable {order : φ → ε → φ → Prop} {post : α → φ → Prop} {phase : φ}

theorem Along.bind {program : Prog σ ε α} {next : α → Prog σ ε β} {following : β → φ → Prop}
    (halong : program.Along order
      (fun value later ↦ (next value).Along order following later) phase) :
    (program.bind next).Along order following phase := by
  induction program generalizing phase with
  | done value => exact halong
  | recv size rest ih => exact ⟨fun bytes hlength ↦ ih _ (halong.1 bytes hlength), ih _ halong.2⟩
  | send bytes rest ih => exact fun sent ↦ ih sent (halong sent)
  | query update rest ih => exact fun state ↦ ih state (halong state)
  | note mark rest ih =>
    obtain ⟨later, horder, hrest⟩ := halong
    exact ⟨later, horder, ih hrest⟩

theorem Along.imp {program : Prog σ ε α} {weaker : α → φ → Prop}
    (halong : program.Along order post phase)
    (himp : ∀ value later, post value later → weaker value later) :
    program.Along order weaker phase := by
  induction program generalizing phase with
  | done value => exact himp value phase halong
  | recv size rest ih => exact ⟨fun bytes hlength ↦ ih _ (halong.1 bytes hlength), ih _ halong.2⟩
  | send bytes rest ih => exact fun sent ↦ ih sent (halong sent)
  | query update rest ih => exact fun state ↦ ih state (halong state)
  | note mark rest ih =>
    obtain ⟨later, horder, hrest⟩ := halong
    exact ⟨later, horder, ih hrest⟩

/-- A program without marks stays in its phase. -/
theorem Quiet.along {program : Prog σ ε α} (hquiet : program.Quiet)
    (hpost : ∀ value, post value phase) : program.Along order post phase := by
  induction program with
  | done value => exact hpost value
  | recv size rest ih => exact ⟨fun bytes _ ↦ ih _ (hquiet _), ih _ (hquiet _)⟩
  | send bytes rest ih => exact fun sent ↦ ih sent (hquiet sent)
  | query update rest ih => exact fun state ↦ ih state (hquiet state)
  | note mark rest => exact hquiet.elim

theorem Quiet.bind {program : Prog σ ε α} {next : α → Prog σ ε β} (hquiet : program.Quiet)
    (hnext : ∀ value, (next value).Quiet) : (program.bind next).Quiet := by
  induction program with
  | done value => exact hnext value
  | recv size rest ih => exact fun bytes ↦ ih bytes (hquiet bytes)
  | send bytes rest ih => exact fun sent ↦ ih sent (hquiet sent)
  | query update rest ih => exact fun state ↦ ih state (hquiet state)
  | note mark rest => exact hquiet.elim

end Prog

/-- One step of a thread whose program leaves its marks along an order. Assumes: so does every
program that the thread starts over with. -/
theorem Thread.Step.along {order : φ → ε → φ → Prop} {post : α → φ → Prop} {first phase : φ}
    {restart : α → Option (Prog σ ε α)} {before after : Thread σ ε α} {move : Move}
    (hstep : Thread.Step restart before move after)
    (hrestart : ∀ value phase following, post value phase → restart value = some following →
      following.Along order post phase)
    (hmarks : Run order first before.marks phase) (halong : before.prog.Along order post phase) :
    ∃ later, Run order first after.marks later ∧ after.prog.Along order post later := by
  cases hstep with
  | filled => exact ⟨phase, hmarks, halong.1 [] rfl⟩
  | reads hsome hfits =>
    refine ⟨phase, hmarks, fun more hlength ↦ halong.1 _ ?_, halong.2⟩
    rw [List.length_append, hlength]
    exact Nat.add_sub_cancel' hfits
  | readFails => exact ⟨phase, hmarks, halong.2⟩
  | readInterrupted => exact ⟨phase, hmarks, halong⟩
  | written => exact ⟨phase, hmarks, halong true⟩
  | writes => exact ⟨phase, hmarks, halong⟩
  | writeFails => exact ⟨phase, hmarks, halong false⟩
  | writeInterrupted => exact ⟨phase, hmarks, halong⟩
  | query => exact ⟨phase, hmarks, halong _⟩
  | note =>
    obtain ⟨later, horder, hrest⟩ := halong
    exact ⟨later, hmarks.tail horder, hrest⟩
  | restart hagain => exact ⟨phase, hmarks, hrestart _ phase _ halong hagain⟩

end Along

end ZigbeeRemote.Foundation
