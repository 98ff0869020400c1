import ZigbeeRemote.Foundation.StreamConnection

/-!
# Programs on a shared machine

A thread may share its machine with others that change its state between any two of its steps. What
can still be said of such a thread is what each of its own steps does. A `Discipline` says which
states it can rely on, and how one call of the machine and one mark change a ghost value: an account
kept for the sake of the proof. `Prog.Follows` says that a program keeps to a discipline from a given
account on, whatever the states it meets, the bytes it reads and the fate of what it writes, and that
a condition holds of its value and the account when it ends.

The rules go along the structure of programs (`Follows.bind`, `follows_lift`, `Silent.follows`), and
`Follows.step` is the step rule: a thread whose program follows a discipline still does after a
step, and the step was one the discipline allows.
-/

set_option autoImplicit false
set_option relaxedAutoImplicit false

namespace ZigbeeRemote.Foundation

variable {σ ε G α β : Type}

/-- What a program can rely on and what it may do. -/
structure Discipline (σ ε G : Type) where
  /-- The states the others leave behind. -/
  rely : σ → Prop
  /-- One call of the machine, from a state and account to others. -/
  ask : σ → σ → G → G → Prop
  /-- One mark, from an account to another. -/
  tell : ε → G → G → Prop

/-- A program keeps to a discipline from an account on and ends with a condition. -/
def Prog.Follows (discipline : Discipline σ ε G) (post : α → G → Prop) : Prog σ ε α → G → Prop
  | .done value, account => post value account
  | .recv _ next, account => ∀ bytes, (next bytes).Follows discipline post account
  | .send _ next, account => ∀ sent, (next sent).Follows discipline post account
  | .query update next, account => ∀ state, discipline.rely state →
      ∃ later, discipline.ask state (update state) account later ∧
        (next state).Follows discipline post later
  | .note mark next, account => ∃ later, discipline.tell mark account later ∧
      next.Follows discipline post later

namespace Prog

variable {discipline : Discipline σ ε G} {post : α → G → Prop} {account : G}

/-- A program is continued by programs that go on from wherever it may end. -/
theorem Follows.andThen {program : Prog σ ε α} {next : α → Prog σ ε β} {following : β → G → Prop}
    (hfollows : program.Follows discipline post account)
    (hnext : ∀ value later, post value later → (next value).Follows discipline following later) :
    (program.bind next).Follows discipline following account := by
  induction program generalizing account with
  | done value => exact hnext value account hfollows
  | recv size rest ih => exact fun bytes ↦ ih bytes (hfollows bytes)
  | send bytes rest ih => exact fun sent ↦ ih sent (hfollows sent)
  | query update rest ih =>
    intro state hrely
    obtain ⟨later, hask, hrest⟩ := hfollows state hrely
    exact ⟨later, hask, ih state hrest⟩
  | note mark rest ih =>
    obtain ⟨later, htell, hrest⟩ := hfollows
    exact ⟨later, htell, ih hrest⟩

theorem Follows.bind {program : Prog σ ε α} {next : α → Prog σ ε β} {following : β → G → Prop}
    (hfollows : program.Follows discipline
      (fun value later ↦ (next value).Follows discipline following later) account) :
    (program.bind next).Follows discipline following account :=
  hfollows.andThen fun _ _ hnext ↦ hnext

theorem Follows.imp {program : Prog σ ε α} {weaker : α → G → Prop}
    (hfollows : program.Follows discipline post account)
    (himp : ∀ value later, post value later → weaker value later) :
    program.Follows discipline weaker account := by
  rw [← bind_done program]
  exact hfollows.andThen himp

/-- One call of the machine. -/
theorem follows_lift {action : StateM σ α}
    (hask : ∀ state, discipline.rely state →
      ∃ later, discipline.ask state (action.run state).2 account later ∧
        post (action.run state).1 later) :
    (Prog.lift action : Prog σ ε α).Follows discipline post account := hask

/-- A program that only reads and writes. -/
def Silent : Prog σ ε α → Prop
  | .done _ => True
  | .recv _ next => ∀ bytes, (next bytes).Silent
  | .send _ next => ∀ sent, (next sent).Silent
  | .query _ _ => False
  | .note _ _ => False

theorem Silent.bind {program : Prog σ ε α} {next : α → Prog σ ε β} (hsilent : program.Silent)
    (hnext : ∀ value, (next value).Silent) : (program.bind next).Silent := by
  induction program with
  | done value => exact hnext value
  | recv size rest ih => exact fun bytes ↦ ih bytes (hsilent bytes)
  | send bytes rest ih => exact fun sent ↦ ih sent (hsilent sent)
  | query update rest ih => exact hsilent.elim
  | note mark rest ih => exact hsilent.elim

/-- What only reads and writes leaves every account as it is. -/
theorem Silent.follows {program : Prog σ ε α} (hsilent : program.Silent)
    (hpost : ∀ value, post value account) : program.Follows discipline post account := by
  induction program with
  | done value => exact hpost value
  | recv size rest ih => exact fun bytes ↦ ih bytes (hsilent bytes)
  | send bytes rest ih => exact fun sent ↦ ih sent (hsilent sent)
  | query update rest ih => exact hsilent.elim
  | note mark rest ih => exact hsilent.elim

end Prog

/-- What a step of a thread did: a call of the machine, a mark, or something between it and the
stream. -/
inductive Did (discipline : Discipline σ ε G) (before after : Thread σ ε α) (account later : G) :
    Prop
  | asked (hask : discipline.ask before.state after.state account later)
      (hmarks : after.marks = before.marks)
  | told {mark : ε} (htell : discipline.tell mark account later)
      (hstate : after.state = before.state) (hmarks : after.marks = before.marks ++ [mark])
  | neither (haccount : later = account) (hstate : after.state = before.state)
      (hmarks : after.marks = before.marks)

/-- A step of a thread that follows a discipline. Assumes: the state is one it can rely on, and every
new round follows the discipline from the accounts a round can end with. -/
theorem Prog.Follows.step {discipline : Discipline σ ε G} {post : α → G → Prop} {account : G}
    {restart : α → Option (Prog σ ε α)} {before after : Thread σ ε α} {move : Move}
    (hfollows : before.prog.Follows discipline post account) (hrely : discipline.rely before.state)
    (hrestart : ∀ value following, restart value = some following → ∀ later, post value later →
      following.Follows discipline post later)
    (hstep : Thread.Step restart before move after) :
    ∃ later, after.prog.Follows discipline post later ∧
      Did discipline before after account later := by
  cases hstep with
  | filled => exact ⟨account, hfollows _, .neither rfl rfl rfl⟩
  | reads hsome hfits => exact ⟨account, fun _ ↦ hfollows _, .neither rfl rfl rfl⟩
  | readFails hsize => exact ⟨account, hfollows _, .neither rfl rfl rfl⟩
  | readInterrupted hsize => exact ⟨account, hfollows, .neither rfl rfl rfl⟩
  | written => exact ⟨account, hfollows _, .neither rfl rfl rfl⟩
  | writes hsome => exact ⟨account, hfollows, .neither rfl rfl rfl⟩
  | writeFails hsome => exact ⟨account, hfollows _, .neither rfl rfl rfl⟩
  | writeInterrupted hsome => exact ⟨account, hfollows, .neither rfl rfl rfl⟩
  | query =>
    obtain ⟨later, hask, hnext⟩ := hfollows _ hrely
    exact ⟨later, hnext, .asked hask rfl⟩
  | note =>
    obtain ⟨later, htell, hnext⟩ := hfollows
    exact ⟨later, hnext, .told htell rfl rfl⟩
  | restart hagain => exact ⟨account, hrestart _ _ hagain _ hfollows, .neither rfl rfl rfl⟩

end ZigbeeRemote.Foundation
