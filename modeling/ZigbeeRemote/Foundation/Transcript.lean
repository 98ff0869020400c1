import ZigbeeRemote.Foundation.StreamConnection

/-!
# Conversations that end

Two programs over one connection, of which each says beforehand what it will read and write. An
`Outlook` is what a side of the connection has ahead of it: the bytes it is still to be sent, the
bytes it still has to write, and how many nodes it passes at most. `Prog.Keeps` says that a program
keeps to its outlook. A side whose peer may leave before it must be prepared for that from the
moment on when it has written all it has to: each of its reads may then fail, wherever in the buffer
it is.

The rules go along the structure of programs (`Keeps.bind`, `keeps_of_behave`), and `KeepsOn` is the
same for programs that start over. `Agreement` is the invariant of a connection both of whose sides
keep to outlooks that fit together. It survives every step, the closing of an end included, and
every step that changes anything leaves less to be done (`Agreement.step`). Without a deadlock there
is always such a step until both ends are closed (`Connection.exists_moving`), so the conversation
ends, and it ends with what the two sides promise (`Agreement.inevitable`).
-/

set_option autoImplicit false
set_option relaxedAutoImplicit false

namespace ZigbeeRemote.Foundation

/-! ### Programs that keep to an outlook -/

section Keeps

variable {σ ε α β : Type}

/-- What a side of a connection has ahead of it, with the state of its machine, the marks it has left,
and whether a read has failed. -/
structure Outlook (σ ε : Type) where
  state : σ
  marks : List ε
  input : Bytes
  output : Bytes
  cost : ℕ
  lost : Bool

/-- A program keeps to an outlook and ends with a condition. -/
def Prog.Keeps (peerLeaves : Bool) (post : α → Outlook σ ε → Prop) : Prog σ ε α → Outlook σ ε → Prop
  | .done value, outlook => post value outlook
  | .recv size next, outlook => ∃ left, outlook.cost = left + 1 ∧
      (size ≤ outlook.input.length → (next (some (outlook.input.take size))).Keeps peerLeaves post
        { outlook with input := outlook.input.drop size, cost := left }) ∧
      (peerLeaves = true → outlook.output = [] → ∀ count < size, (next none).Keeps peerLeaves post
        { outlook with input := outlook.input.drop count, cost := left, lost := true })
  | .send bytes next, outlook => ∃ left rest, outlook.cost = left + 1 ∧ outlook.output = bytes ++ rest ∧
      (next true).Keeps peerLeaves post { outlook with output := rest, cost := left }
  | .query update next, outlook => ∃ left, outlook.cost = left + 1 ∧
      (next outlook.state).Keeps peerLeaves post
        { outlook with state := update outlook.state, cost := left }
  | .note mark next, outlook => ∃ left, outlook.cost = left + 1 ∧
      next.Keeps peerLeaves post { outlook with marks := outlook.marks ++ [mark], cost := left }

namespace Prog

variable {peerLeaves : Bool} {post : α → Outlook σ ε → Prop} {outlook : Outlook σ ε}

/-- A program is continued by programs that go on from wherever it may end. -/
theorem Keeps.andThen {program : Prog σ ε α} {next : α → Prog σ ε β} {following : β → Outlook σ ε → Prop}
    (hkeeps : program.Keeps peerLeaves post outlook)
    (hnext : ∀ value later, post value later → (next value).Keeps peerLeaves following later) :
    (program.bind next).Keeps peerLeaves following outlook := by
  induction program generalizing outlook with
  | done value => exact hnext value outlook hkeeps
  | recv size rest ih =>
    obtain ⟨left, hcost, hread, hfail⟩ := hkeeps
    exact ⟨left, hcost, fun hsize ↦ ih _ (hread hsize),
      fun hleaves houtput count hcount ↦ ih _ (hfail hleaves houtput count hcount)⟩
  | send bytes rest ih =>
    obtain ⟨left, more, hcost, houtput, hrest⟩ := hkeeps
    exact ⟨left, more, hcost, houtput, ih _ hrest⟩
  | query update rest ih =>
    obtain ⟨left, hcost, hrest⟩ := hkeeps
    exact ⟨left, hcost, ih _ hrest⟩
  | note mark rest ih =>
    obtain ⟨left, hcost, hrest⟩ := hkeeps
    exact ⟨left, hcost, ih hrest⟩

theorem Keeps.bind {program : Prog σ ε α} {next : α → Prog σ ε β} {following : β → Outlook σ ε → Prop}
    (hkeeps : program.Keeps peerLeaves
      (fun value later ↦ (next value).Keeps peerLeaves following later) outlook) :
    (program.bind next).Keeps peerLeaves following outlook := hkeeps.andThen fun _ _ hnext ↦ hnext

theorem Keeps.imp {program : Prog σ ε α} {weaker : α → Outlook σ ε → Prop}
    (hkeeps : program.Keeps peerLeaves post outlook)
    (himp : ∀ value later, post value later → weaker value later) :
    program.Keeps peerLeaves weaker outlook := by
  rw [← bind_done program]
  exact hkeeps.andThen himp

/-- One call of the machine. -/
theorem keeps_lift {action : StateM σ α} {state : σ} {marks : List ε} {input output : Bytes} {cost : ℕ}
    {lost : Bool} (hpost : post (action.run state).1
      ⟨(action.run state).2, marks, input, output, cost, lost⟩) :
    (Prog.lift action : Prog σ ε α).Keeps peerLeaves post
      ⟨state, marks, input, output, 1 + cost, lost⟩ :=
  ⟨cost, Nat.add_comm 1 cost, hpost⟩

/-- A program that ends on the input it is to be sent keeps to the outlook of what it does there.
Assumes: the peer stays, or something is left to be written afterwards. -/
theorem keeps_of_behave {program : Prog σ ε α} {state later : σ} {marks left : List ε}
    {input output rest more : Bytes} {passed cost : ℕ} {lost : Bool} {value : α}
    (hbehave : behave false program state input =
      ⟨output, left, passed, later, .finished value rest⟩)
    (hmore : peerLeaves = true → more ≠ [])
    (hpost : post value ⟨later, marks ++ left, rest, more, cost, lost⟩) :
    program.Keeps peerLeaves post ⟨state, marks, input, output ++ more, passed + cost, lost⟩ := by
  induction program generalizing state marks left input output passed with
  | done value =>
    cases hbehave
    rw [List.append_nil, Nat.zero_add] at *
    exact hpost
  | recv size next ih =>
    by_cases hsize : size ≤ input.length
    · simp only [behave, if_pos hsize, Behaviour.after, Behaviour.mk.injEq, List.nil_append] at hbehave
      obtain ⟨houtput, hmarks, hcost, hstate, hending⟩ := hbehave
      have hnext : behave false (next (some (input.take size))) state (input.drop size) =
          ⟨output, left, _, later, .finished value rest⟩ :=
        Behaviour.ext houtput hmarks rfl hstate hending
      refine ⟨_, by rw [← hcost, Nat.add_comm 1, Nat.add_right_comm], fun _ ↦ ih _ hnext hpost, ?_⟩
      intro hleaves hnone
      exact absurd (List.append_eq_nil_iff.mp hnone).2 (hmore hleaves)
    · simp only [behave, if_neg hsize] at hbehave
      cases hbehave
  | send bytes next ih =>
    simp only [behave, Behaviour.after, Behaviour.mk.injEq, List.nil_append] at hbehave
    obtain ⟨houtput, hmarks, hcost, hstate, hending⟩ := hbehave
    have hnext : behave false (next true) state input = ⟨_, left, _, later, .finished value rest⟩ :=
      Behaviour.ext rfl hmarks rfl hstate hending
    exact ⟨_, _, by rw [← hcost, Nat.add_comm 1, Nat.add_right_comm],
      by rw [← houtput, List.append_assoc], ih _ hnext hpost⟩
  | query update next ih =>
    simp only [behave, Behaviour.after, Behaviour.mk.injEq, List.nil_append] at hbehave
    obtain ⟨houtput, hmarks, hcost, hstate, hending⟩ := hbehave
    have hnext : behave false (next state) (update state) input =
        ⟨output, left, _, later, .finished value rest⟩ :=
      Behaviour.ext houtput hmarks rfl hstate hending
    exact ⟨_, by rw [← hcost, Nat.add_comm 1, Nat.add_right_comm], ih _ hnext hpost⟩
  | note mark next ih =>
    simp only [behave, Behaviour.after, Behaviour.mk.injEq, List.nil_append] at hbehave
    obtain ⟨houtput, hmarks, hcost, hstate, hending⟩ := hbehave
    have hnext : behave false next state input = ⟨output, _, _, later, .finished value rest⟩ :=
      Behaviour.ext houtput rfl rfl hstate hending
    refine ⟨_, by rw [← hcost, Nat.add_comm 1, Nat.add_right_comm], ih hnext ?_⟩
    rw [List.append_assoc, hmarks]
    exact hpost

/-- The same for a program that only reads. -/
theorem keeps_of_read {program : Prog σ ε α} {state later : σ} {marks : List ε}
    {input rest more : Bytes} {passed cost : ℕ} {lost : Bool} {value : α}
    (hbehave : behave false program state input = ⟨[], [], passed, later, .finished value rest⟩)
    (hmore : peerLeaves = true → more ≠ [])
    (hpost : post value ⟨later, marks, rest, more, cost, lost⟩) :
    program.Keeps peerLeaves post ⟨state, marks, input, more, passed + cost, lost⟩ := by
  rw [← List.append_nil marks] at hpost
  exact keeps_of_behave hbehave hmore hpost

/-- A read that has got a part of what it waits for. -/
theorem Keeps.read_part {size : ℕ} {next : Option Bytes → Prog σ ε α} {state : σ} {marks : List ε}
    {bytes rest output : Bytes} {cost : ℕ} {lost : Bool}
    (hkeeps : (Prog.recv size next).Keeps peerLeaves post
      ⟨state, marks, bytes ++ rest, output, cost, lost⟩) (hfits : bytes.length ≤ size) :
    (Prog.recv (size - bytes.length) fun more ↦ next (more.map (bytes ++ ·))).Keeps peerLeaves post
      ⟨state, marks, rest, output, cost, lost⟩ := by
  obtain ⟨left, hcost, hread, hfail⟩ := hkeeps
  refine ⟨left, hcost, fun hsize ↦ ?_, fun hleaves hnone count hcount ↦ ?_⟩
  · have hwhole : size ≤ (bytes ++ rest).length := by
      rw [List.length_append]
      exact Nat.sub_le_iff_le_add'.mp hsize
    have hnext := hread hwhole
    simp only [List.take_append, List.drop_append, List.take_of_length_le hfits,
      List.drop_of_length_le hfits, List.nil_append] at hnext
    exact hnext
  · have hnext := hfail hleaves hnone (bytes.length + count) (by omega)
    simp only [List.drop_append, List.drop_of_length_le (Nat.le_add_right _ _),
      Nat.add_sub_cancel_left, List.nil_append] at hnext
    exact hnext

/-- A program that passes no node has ended. -/
theorem eq_done_of_behave {program : Prog σ ε α} {state : σ} {input rest : Bytes} {value : α}
    (hnone : (behave false program state input).cost = 0)
    (hending : (behave false program state input).ending = .finished value rest) :
    program = .done value ∧ rest = input := by
  cases program with
  | done other =>
    cases hending
    exact ⟨rfl, rfl⟩
  | recv size next =>
    by_cases hsize : size ≤ input.length
    · simp [behave, hsize, Behaviour.after] at hnone
    · simp [behave, hsize] at hending
  | send bytes next => simp [Behaviour.after] at hnone
  | query update next => simp [Behaviour.after] at hnone
  | note mark next => simp [Behaviour.after] at hnone

/-- A program that is one read, of which the peer may leave any part unsent. -/
theorem keeps_of_single_read {size : ℕ} {next : Option Bytes → Prog σ ε α} {state later : σ}
    {marks : List ε} {input output rest : Bytes} {cost : ℕ} {lost : Bool} {value : α}
    (hbehave : behave false (.recv size next) state input = ⟨[], [], 1, later, .finished value rest⟩)
    (hread : post value ⟨state, marks, rest, output, cost, lost⟩)
    (hlost : ∀ left, (next none).Keeps peerLeaves post ⟨state, marks, left, output, cost, true⟩) :
    (Prog.recv size next).Keeps peerLeaves post ⟨state, marks, input, output, 1 + cost, lost⟩ := by
  refine ⟨cost, Nat.add_comm 1 cost, fun hsize ↦ ?_, fun _ _ count _ ↦ hlost _⟩
  have hfull : size ≤ input.length := hsize
  simp only [behave, if_pos hfull, Behaviour.after, Behaviour.mk.injEq, Nat.add_eq_left] at hbehave
  obtain ⟨-, -, hnone, -, hending⟩ := hbehave
  obtain ⟨hdone, rfl⟩ := eq_done_of_behave hnone hending
  simp only [hdone]
  exact hread

end Prog

/-- A program that may start over keeps to an outlook and ends for good with a condition. -/
inductive Prog.KeepsOn (peerLeaves : Bool) (restart : α → Option (Prog σ ε α))
    (post : α → Outlook σ ε → Prop) : Prog σ ε α → Outlook σ ε → Prop
  | round {program : Prog σ ε α} {outlook : Outlook σ ε} (middle : α → Outlook σ ε → Prop)
      (hround : program.Keeps peerLeaves middle outlook)
      (hends : ∀ value later, middle value later → restart value = none → post value later)
      (hcost : ∀ value later following, middle value later → restart value = some following →
        0 < later.cost)
      (hagain : ∀ value later following, middle value later → restart value = some following →
        KeepsOn peerLeaves restart post following { later with cost := later.cost - 1 }) :
      KeepsOn peerLeaves restart post program outlook

variable {peerLeaves : Bool} {restart : α → Option (Prog σ ε α)} {post : α → Outlook σ ε → Prop}

/-- A last round. -/
theorem Prog.Keeps.ends {program : Prog σ ε α} {outlook : Outlook σ ε}
    (hkeeps : program.Keeps peerLeaves (fun value later ↦ restart value = none ∧ post value later)
      outlook) : program.KeepsOn peerLeaves restart post outlook := by
  refine .round _ hkeeps (fun _ _ hlast _ ↦ hlast.2) ?_ ?_
  · intro value later following hlast hagain
    rw [hlast.1] at hagain
    cases hagain
  · intro value later following hlast hagain
    rw [hlast.1] at hagain
    cases hagain

/-- A round after which another one follows. -/
theorem Prog.Keeps.again {program : Prog σ ε α} {outlook : Outlook σ ε}
    (hkeeps : program.Keeps peerLeaves (fun value later ↦ ∃ following left,
      restart value = some following ∧ later.cost = left + 1 ∧
        following.KeepsOn peerLeaves restart post { later with cost := left }) outlook) :
    program.KeepsOn peerLeaves restart post outlook := by
  refine .round _ hkeeps ?_ ?_ ?_
  · rintro value later ⟨following, left, hrestart, -⟩ hnone
    rw [hrestart] at hnone
    cases hnone
  · rintro value later following ⟨_, left, -, hcost, -⟩ -
    rw [hcost]
    exact Nat.succ_pos left
  · rintro value later following ⟨other, left, hrestart, hcost, hkeepsOn⟩ hagain
    obtain rfl : other = following := Option.some.inj (hrestart.symm.trans hagain)
    rw [hcost]
    exact hkeepsOn

theorem Prog.KeepsOn.post_of_done {value : α} {outlook : Outlook σ ε}
    (hkeeps : (Prog.done value).KeepsOn peerLeaves restart post outlook)
    (hrestart : restart value = none) : post value outlook := by
  cases hkeeps with
  | round middle hround hends hcost hagain => exact hends value outlook hround hrestart

/-- The outlook of a thread. -/
def Thread.outlook (thread : Thread σ ε α) (input output : Bytes) (cost : ℕ) (lost : Bool) :
    Outlook σ ε := ⟨thread.state, thread.marks, input, output, cost, lost⟩

/-- A step of a thread that keeps to its outlook. Assumes: the step is neither a failed system call
nor an interrupted one, and reads what the outlook says. -/
theorem Prog.KeepsOn.step {before after : Thread σ ε α} {move : Move} {rest output : Bytes} {cost : ℕ}
    {lost : Bool} (hstep : Thread.Step restart before move after) (hfails : move.fails = false)
    (hmoves : move ≠ .interrupted)
    (hkeeps : before.prog.KeepsOn peerLeaves restart post
      (before.outlook (move.input ++ rest) output cost lost)) :
    ∃ more left, output = move.output ++ more ∧
      after.prog.KeepsOn peerLeaves restart post (after.outlook rest more left lost) ∧
      left + more.length < cost + move.input.length + output.length := by
  cases hkeeps with
  | round middle hround hends hcost hagain =>
    cases hstep with
    | filled =>
      obtain ⟨left, hleft, hread, -⟩ := hround
      obtain rfl : cost = left + 1 := hleft
      exact ⟨output, left, rfl, .round middle (hread (Nat.zero_le _)) hends hcost hagain,
        Nat.add_lt_add_right (Nat.lt_succ_self left) _⟩
    | @reads size next state marks bytes hsome hfits =>
      have hlength := List.length_pos_iff.mpr hsome
      have hpart := Prog.Keeps.read_part hround hfits
      refine ⟨output, cost, rfl, .round middle hpart hends hcost hagain, ?_⟩
      show cost + output.length < cost + bytes.length + output.length
      omega
    | readFails hsize => cases hfails
    | readInterrupted hsize => exact absurd rfl hmoves
    | written =>
      obtain ⟨left, more, hleft, houtput, hrest⟩ := hround
      obtain rfl : cost = left + 1 := hleft
      obtain rfl : output = more := houtput
      exact ⟨output, left, rfl, .round middle hrest hends hcost hagain,
        Nat.add_lt_add_right (Nat.lt_succ_self left) _⟩
    | @writes first others next state marks hsome =>
      obtain ⟨left, more, hleft, houtput, hrest⟩ := hround
      obtain rfl : cost = left + 1 := hleft
      obtain rfl : output = first ++ others ++ more := houtput
      have hlength := List.length_pos_iff.mpr hsome
      refine ⟨others ++ more, left + 1, List.append_assoc _ _ _,
        .round middle ⟨left, more, rfl, rfl, hrest⟩ hends hcost hagain, ?_⟩
      show left + 1 + (others ++ more).length < left + 1 + 0 + (first ++ others ++ more).length
      simp only [List.length_append]
      omega
    | writeFails hsome => cases hfails
    | writeInterrupted hsome => exact absurd rfl hmoves
    | query =>
      obtain ⟨left, hleft, hrest⟩ := hround
      obtain rfl : cost = left + 1 := hleft
      exact ⟨output, left, rfl, .round middle hrest hends hcost hagain,
        Nat.add_lt_add_right (Nat.lt_succ_self left) _⟩
    | note =>
      obtain ⟨left, hleft, hrest⟩ := hround
      obtain rfl : cost = left + 1 := hleft
      exact ⟨output, left, rfl, .round middle hrest hends hcost hagain,
        Nat.add_lt_add_right (Nat.lt_succ_self left) _⟩
    | restart hrestart =>
      have hpos : 0 < cost := hcost _ _ _ hround hrestart
      refine ⟨output, cost - 1, rfl, hagain _ _ _ hround hrestart, ?_⟩
      show cost - 1 + output.length < cost + 0 + output.length
      omega

/-- A read that fails. Assumes: the peer may leave, and all has been written. -/
theorem Prog.KeepsOn.step_readFails {before after : Thread σ ε α} {input : Bytes} {cost : ℕ}
    {lost : Bool} (hstep : Thread.Step restart before .readFails after)
    (hkeeps : before.prog.KeepsOn true restart post (before.outlook input [] cost lost)) :
    ∃ left, after.prog.KeepsOn true restart post (after.outlook input [] left true) ∧
      left < cost := by
  cases hkeeps with
  | round middle hround hends hcost hagain =>
    cases hstep with
    | readFails hsize =>
      obtain ⟨left, hleft, -, hfail⟩ := hround
      obtain rfl : cost = left + 1 := hleft
      exact ⟨left, .round middle (hfail rfl rfl 0 hsize) hends hcost hagain, Nat.lt_succ_self _⟩

/-- A write fails only when there is something to write. -/
theorem Prog.KeepsOn.not_writeFails {before after : Thread σ ε α} {input output : Bytes} {cost : ℕ}
    {lost : Bool} (hstep : Thread.Step restart before .writeFails after)
    (hkeeps : before.prog.KeepsOn peerLeaves restart post (before.outlook input output cost lost)) :
    output ≠ [] := by
  cases hkeeps with
  | round middle hround hends hcost hagain =>
    cases hstep with
    | @writeFails bytes next state marks hsome =>
      obtain ⟨left, more, -, houtput, -⟩ := hround
      obtain rfl : output = bytes ++ more := houtput
      exact fun hnone ↦ hsome (List.append_eq_nil_iff.mp hnone).1

end Keeps

/-! ### Two sides whose outlooks fit together -/

section Agreement

variable {κ μ α σ ε β : Type} {restart : β → Option (Prog σ ε β)}

/-- One side of a connection makes a step: it still keeps to its outlook, and the other one still
has the same ahead of it. Assumes: the step is not an interrupted system call, and a peer that has
left may do so and has been written all. -/
theorem Prog.KeepsOn.carries {peerLeaves peerOpen lost : Bool} {post : β → Outlook σ ε → Prop}
    {before after : Thread σ ε β} {move : Move} {incoming outgoing incomingAfter outgoingAfter : Bytes}
    {output peerOutput : Bytes} {cost : ℕ}
    (hkeeps : before.prog.KeepsOn peerLeaves restart post
      (before.outlook (incoming ++ peerOutput) output cost lost))
    (hstep : Thread.Step restart before move after) (hmoves : move ≠ .interrupted)
    (hcarries : Carries peerOpen incoming outgoing move incomingAfter outgoingAfter)
    (hpeer : peerOpen = false → output = [] ∧ peerLeaves = true) :
    ∃ more left gone,
      after.prog.KeepsOn peerLeaves restart post
        (after.outlook (incomingAfter ++ peerOutput) more left gone) ∧
      outgoingAfter ++ more = outgoing ++ output ∧ (output = [] → more = []) ∧
      (gone = true → lost = true ∨ peerOpen = false) ∧
      left + (incomingAfter ++ peerOutput).length + more.length <
        cost + (incoming ++ peerOutput).length + output.length := by
  cases hfails : move.fails with
  | true =>
    cases move with
    | readFails =>
      obtain ⟨hopen, rfl, rfl⟩ := hcarries
      obtain ⟨rfl, rfl⟩ := hpeer hopen
      obtain ⟨left, hafter, hless⟩ := hkeeps.step_readFails hstep
      refine ⟨[], left, true, hafter, rfl, fun _ ↦ rfl, fun _ ↦ Or.inr hopen, ?_⟩
      omega
    | writeFails => exact absurd (hpeer hcarries.1).1 (hkeeps.not_writeFails hstep)
    | _ => cases hfails
  | false =>
    have hinput : incoming = move.input ++ incomingAfter := by
      cases move with
      | reads bytes => exact hcarries.1
      | readFails => cases hfails
      | writeFails => cases hfails
      | _ => exact hcarries.1.symm
    rw [hinput, List.append_assoc] at hkeeps
    obtain ⟨more, left, houtput, hafter, hless⟩ := hkeeps.step hstep hfails hmoves
    have hnone : output = [] → more = [] := by
      intro hempty
      rw [hempty] at houtput
      exact (List.append_eq_nil_iff.mp houtput.symm).2
    have houtgoing : outgoingAfter ++ more = outgoing ++ output := by
      cases peerOpen with
      | true => rw [hcarries.of_open.2.2, houtput, List.append_assoc]
      | false =>
        have hempty := (hpeer rfl).1
        have hsame : outgoingAfter = outgoing := by
          cases move with
          | readFails => cases hfails
          | writeFails => cases hfails
          | _ => exact hcarries.2
        rw [hsame, hnone hempty, hempty]
    refine ⟨more, left, lost, hafter, houtgoing, hnone, Or.inl, ?_⟩
    rw [hinput]
    simp only [List.length_append] at *
    omega

/-- What the two sides have ahead of them. -/
structure Ahead where
  clientOutput : Bytes
  serverOutput : Bytes
  clientCost : ℕ
  serverCost : ℕ
  clientLost : Bool
  serverLost : Bool

/-- Both sides keep to outlooks that fit together: each is to be sent what is on its way to it and
what the other has to write. A side leaves when it has ended; a peer that is still there has then
written all, and the client's must be prepared for it. -/
structure Agreement (serverLeaves : Bool) (restart : β → Option (Prog σ ε β))
    (clientPost : α → Outlook κ μ → Prop) (serverPost : β → Outlook σ ε → Prop)
    (connection : Connection κ μ α σ ε β) (ahead : Ahead) : Prop where
  client : connection.client.prog.KeepsOn serverLeaves (fun _ ↦ none) clientPost
    (connection.client.outlook (connection.toClient ++ ahead.serverOutput) ahead.clientOutput
      ahead.clientCost ahead.clientLost)
  server : connection.server.prog.KeepsOn true restart serverPost
    (connection.server.outlook (connection.toServer ++ ahead.clientOutput) ahead.serverOutput
      ahead.serverCost ahead.serverLost)
  clientClosed : connection.clientOpen = false → (∃ value, connection.client.prog = .done value) ∧
    (connection.serverOpen = true → ahead.serverOutput = [])
  serverClosed : connection.serverOpen = false →
    (∃ value, connection.server.prog = .done value ∧ restart value = none) ∧
      (connection.clientOpen = true → ahead.clientOutput = [] ∧ serverLeaves = true)
  clientLost : ahead.clientLost = true → connection.serverOpen = false
  serverLost : ahead.serverLost = true → connection.clientOpen = false

/-- A new connection between programs that keep to outlooks which fit together. -/
theorem Agreement.start {serverLeaves : Bool} {clientPost : α → Outlook κ μ → Prop}
    {serverPost : β → Outlook σ ε → Prop} {client : Prog κ μ α} {clientState : κ} {server : Prog σ ε β}
    {serverState : σ} {clientOutput serverOutput : Bytes} {clientCost serverCost : ℕ}
    (hclient : client.Keeps serverLeaves clientPost
      ⟨clientState, [], serverOutput, clientOutput, clientCost, false⟩)
    (hserver : server.KeepsOn true restart serverPost
      ⟨serverState, [], clientOutput, serverOutput, serverCost, false⟩) :
    Agreement serverLeaves restart clientPost serverPost
      (Connection.start client clientState server serverState)
      ⟨clientOutput, serverOutput, clientCost, serverCost, false, false⟩ :=
  ⟨(hclient.imp fun _ _ hpost ↦ ⟨rfl, hpost⟩).ends, hserver, nofun, nofun, nofun, nofun⟩

/-- How much is left to be done. -/
def Connection.effort (connection : Connection κ μ α σ ε β) (ahead : Ahead) : ℕ :=
  ahead.clientCost + (connection.toClient ++ ahead.serverOutput).length + ahead.clientOutput.length +
    (ahead.serverCost + (connection.toServer ++ ahead.clientOutput).length +
      ahead.serverOutput.length) +
    connection.clientOpen.toNat + connection.serverOpen.toNat

variable {serverLeaves : Bool} {clientPost : α → Outlook κ μ → Prop}
  {serverPost : β → Outlook σ ε → Prop}

theorem Thread.Step.eq_of_interrupted {before after : Thread σ ε β}
    (hstep : Thread.Step restart before .interrupted after) : after = before := by
  cases hstep <;> rfl

/-- A step that is neither an interrupted system call nor the closing of an end that is closed. -/
def Connection.Moves (connection : Connection κ μ α σ ε β) : Happening → Prop
  | .client move => move ≠ .interrupted
  | .server move => move ≠ .interrupted
  | .clientCloses => connection.clientOpen = true
  | .serverCloses => connection.serverOpen = true

/-- All other steps change nothing. -/
theorem Connection.Step.moves_of_ne {before after : Connection κ μ α σ ε β} {label : Happening}
    (hstep : Connection.Step restart before label after) (hchanged : after ≠ before) :
    before.Moves label := by
  cases hstep with
  | @client move thread toClient toServer hopen hstep hcarries =>
    rintro rfl
    obtain ⟨rfl, rfl⟩ := hcarries
    exact hchanged (by rw [hstep.eq_of_interrupted])
  | @server move thread toServer toClient hopen hstep hcarries =>
    rintro rfl
    obtain ⟨rfl, rfl⟩ := hcarries
    exact hchanged (by rw [hstep.eq_of_interrupted])
  | clientCloses hdone =>
    by_contra hopen
    have hclosed : before.clientOpen = false := Bool.not_eq_true _ ▸ hopen
    exact hchanged (by rw [← hclosed])
  | serverCloses hdone hrestart =>
    by_contra hopen
    have hclosed : before.serverOpen = false := Bool.not_eq_true _ ▸ hopen
    exact hchanged (by rw [← hclosed])

section Steps

variable {before after : Connection κ μ α σ ε β} {ahead : Ahead}

theorem Agreement.step_client {move : Move}
    (hagreement : Agreement serverLeaves restart clientPost serverPost before ahead)
    (hmoves : move ≠ .interrupted) (hstep : Connection.Step restart before (.client move) after) :
    ∃ later, Agreement serverLeaves restart clientPost serverPost after later ∧
      after.effort later < before.effort ahead := by
  cases hstep with
  | @client _ thread toClient toServer hopen hstep hcarries =>
    obtain ⟨more, left, gone, hkeeps, hserver, hnone, hgone, hless⟩ :=
      hagreement.client.carries hstep hmoves hcarries fun hclosed ↦
        (hagreement.serverClosed hclosed).2 hopen
    refine ⟨⟨more, ahead.serverOutput, left, ahead.serverCost, gone, ahead.serverLost⟩,
      ⟨hkeeps, ?_, ?_, ?_, ?_, hagreement.serverLost⟩, ?_⟩
    · rw [hserver]
      exact hagreement.server
    · intro hclosed
      exact absurd (hopen.symm.trans hclosed) (by decide)
    · intro hclosed
      obtain ⟨hdone, hrest⟩ := hagreement.serverClosed hclosed
      exact ⟨hdone, fun hclient ↦ ⟨hnone (hrest hclient).1, (hrest hclient).2⟩⟩
    · intro htrue
      exact (hgone htrue).elim hagreement.clientLost id
    · have hsame := congrArg List.length hserver
      simp only [Connection.effort] at *
      omega

theorem Agreement.step_server {move : Move}
    (hagreement : Agreement serverLeaves restart clientPost serverPost before ahead)
    (hmoves : move ≠ .interrupted) (hstep : Connection.Step restart before (.server move) after) :
    ∃ later, Agreement serverLeaves restart clientPost serverPost after later ∧
      after.effort later < before.effort ahead := by
  cases hstep with
  | @server _ thread toServer toClient hopen hstep hcarries =>
    obtain ⟨more, left, gone, hkeeps, hclient, hnone, hgone, hless⟩ :=
      hagreement.server.carries hstep hmoves hcarries fun hclosed ↦
        ⟨(hagreement.clientClosed hclosed).2 hopen, rfl⟩
    refine ⟨⟨ahead.clientOutput, more, ahead.clientCost, left, ahead.clientLost, gone⟩,
      ⟨?_, hkeeps, ?_, ?_, hagreement.clientLost, ?_⟩, ?_⟩
    · rw [hclient]
      exact hagreement.client
    · intro hclosed
      obtain ⟨hdone, hrest⟩ := hagreement.clientClosed hclosed
      exact ⟨hdone, fun hserver ↦ hnone (hrest hserver)⟩
    · intro hclosed
      exact absurd (hopen.symm.trans hclosed) (by decide)
    · intro htrue
      exact (hgone htrue).elim hagreement.serverLost id
    · have hsame := congrArg List.length hclient
      simp only [Connection.effort] at *
      omega

/-- A step that moves leaves less to be done. Assumes: a side that ends has read all, unless
its peer has left; and the server ends first only where the client is prepared for it. -/
theorem Agreement.step {label : Happening}
    (hclientPost : ∀ value outlook, clientPost value outlook →
      outlook.lost = true ∨ outlook.input = [])
    (hserverPost : ∀ value outlook, serverPost value outlook →
      outlook.lost = true ∨ serverLeaves = true ∧ outlook.input = [])
    (hagreement : Agreement serverLeaves restart clientPost serverPost before ahead)
    (hstep : Connection.Step restart before label after) (hmoves : before.Moves label) :
    ∃ later, Agreement serverLeaves restart clientPost serverPost after later ∧
      after.effort later < before.effort ahead := by
  cases label with
  | client move => exact hagreement.step_client hmoves hstep
  | server move => exact hagreement.step_server hmoves hstep
  | clientCloses =>
    cases hstep with
    | @clientCloses value hdone =>
      have hopen : before.clientOpen = true := hmoves
      have hclient := hagreement.client
      rw [hdone] at hclient
      have hends := hclientPost _ _ (hclient.post_of_done rfl)
      refine ⟨ahead, ⟨hagreement.client, hagreement.server, fun _ ↦ ⟨⟨value, hdone⟩, ?_⟩, ?_,
        hagreement.clientLost, fun _ ↦ rfl⟩, ?_⟩
      · intro hserver
        rcases hends with hlost | hnone
        · exact absurd (hserver.symm.trans (hagreement.clientLost hlost)) (by decide)
        · exact (List.append_eq_nil_iff.mp hnone).2
      · intro hclosed
        exact ⟨(hagreement.serverClosed hclosed).1, fun hclient ↦ nomatch hclient⟩
      · simp only [Connection.effort, hopen, Bool.toNat_true, Bool.toNat_false]
        omega
  | serverCloses =>
    cases hstep with
    | @serverCloses value hdone hrestart =>
      have hopen : before.serverOpen = true := hmoves
      have hserver := hagreement.server
      rw [hdone] at hserver
      have hends := hserverPost _ _ (hserver.post_of_done hrestart)
      refine ⟨ahead, ⟨hagreement.client, hagreement.server, ?_, fun _ ↦ ⟨⟨value, hdone, hrestart⟩, ?_⟩,
        fun _ ↦ rfl, hagreement.serverLost⟩, ?_⟩
      · intro hclosed
        exact ⟨(hagreement.clientClosed hclosed).1, fun hserver ↦ nomatch hserver⟩
      · intro hclient
        rcases hends with hlost | ⟨hleaves, hnone⟩
        · exact absurd (hclient.symm.trans (hagreement.serverLost hlost)) (by decide)
        · exact ⟨(List.append_eq_nil_iff.mp hnone).2, hleaves⟩
      · simp only [Connection.effort, hopen, Bool.toNat_true, Bool.toNat_false]
        omega

end Steps

/-! ### The end of a conversation -/

section Ends

variable {connection : Connection κ μ α σ ε β} {ahead : Ahead}

/-- A side that has not ended can make a step when its peer has left. -/
theorem Thread.exists_step_alone (restart : β → Option (Prog σ ε β)) (thread : Thread σ ε β)
    (hends : ¬ ∃ value, thread.prog = .done value ∧ restart value = none) (incoming outgoing : Bytes) :
    ∃ move after, Thread.Step restart thread move after ∧ move ≠ .interrupted ∧
      ∃ incomingAfter outgoingAfter, Carries false incoming outgoing move incomingAfter outgoingAfter := by
  rcases Thread.exists_step restart thread with ⟨move, after, hstep, hproductive, hinput⟩ | hwaits | hdone
  · refine ⟨move, after, hstep, ?_, incoming, outgoing, ?_⟩
    · rintro rfl
      cases hproductive
    · cases move with
      | internal => exact ⟨rfl, rfl⟩
      | writes bytes => exact ⟨rfl, rfl⟩
      | reads bytes =>
        obtain rfl : bytes = [] := hinput
        exact ⟨rfl, rfl⟩
      | _ => cases hproductive
  · obtain ⟨prog, state, marks⟩ := thread
    obtain ⟨size, next, hprog⟩ := hwaits
    obtain rfl : prog = .recv (size + 1) next := hprog
    exact ⟨.readFails, _, .readFails (Nat.succ_pos size), by decide, incoming, outgoing, rfl, rfl, rfl⟩
  · exact absurd hdone hends

theorem Connection.exists_moving_client (hclient : connection.clientOpen = true)
    (hserver : connection.serverOpen = false) :
    ∃ label after, Connection.Step restart connection label after ∧ connection.Moves label := by
  by_cases hends : ∃ value, connection.client.prog = .done value
  · obtain ⟨value, hdone⟩ := hends
    exact ⟨.clientCloses, _, .clientCloses hdone, hclient⟩
  · obtain ⟨move, after, hstep, hmoves, toClient, toServer, hcarries⟩ :=
      Thread.exists_step_alone (fun _ ↦ none) connection.client
        (fun ⟨value, hdone, _⟩ ↦ hends ⟨value, hdone⟩) connection.toClient connection.toServer
    exact ⟨.client move, _, .client hclient hstep (hserver ▸ hcarries), hmoves⟩

theorem Connection.exists_moving_server (hclient : connection.clientOpen = false)
    (hserver : connection.serverOpen = true) :
    ∃ label after, Connection.Step restart connection label after ∧ connection.Moves label := by
  by_cases hends : ∃ value, connection.server.prog = .done value ∧ restart value = none
  · obtain ⟨value, hdone, hrestart⟩ := hends
    exact ⟨.serverCloses, _, .serverCloses hdone hrestart, hserver⟩
  · obtain ⟨move, after, hstep, hmoves, toServer, toClient, hcarries⟩ :=
      Thread.exists_step_alone restart connection.server hends connection.toServer connection.toClient
    exact ⟨.server move, _, .server hserver hstep (hclient ▸ hcarries), hmoves⟩

/-- There is a step to make until both ends are closed. Assumes: the two sides do not wait for each
other. -/
theorem Connection.exists_moving (hfree : ¬ connection.Deadlocked)
    (hopen : connection.clientOpen = true ∨ connection.serverOpen = true) :
    ∃ label after, Connection.Step restart connection label after ∧ connection.Moves label := by
  cases hclient : connection.clientOpen with
  | false => exact exists_moving_server hclient (hopen.resolve_left (by simp [hclient]))
  | true =>
    cases hserver : connection.serverOpen with
    | false => exact exists_moving_client hclient hserver
    | true =>
      have hstuck : (∃ label after, Connection.Step restart connection label after ∧
          label.productive = true) ∨ _ := Connection.productive_or_stuck hclient hserver
      rcases hstuck with ⟨label, after, hstep, hproductive⟩ | ⟨hclientStuck, hserverStuck⟩
      · refine ⟨label, after, hstep, ?_⟩
        cases label with
        | client move => exact fun hmove ↦ by cases hmove; cases hproductive
        | server move => exact fun hmove ↦ by cases hmove; cases hproductive
        | clientCloses => cases hproductive
        | serverCloses => cases hproductive
      · rcases hclientStuck with ⟨hwaits, hempty⟩ | ⟨value, hdone⟩
        · rcases hserverStuck with ⟨hserverWaits, hserverEmpty⟩ | ⟨value, hdone, hrestart⟩
          · exact absurd ⟨hclient, hserver, hwaits, hempty, hserverWaits, hserverEmpty⟩ hfree
          · exact ⟨.serverCloses, _, .serverCloses hdone hrestart, hserver⟩
        · exact ⟨.clientCloses, _, .clientCloses hdone, hclient⟩

/-- Both ends are closed, and the two sides have ended with what they promise. -/
def Connection.Over (restart : β → Option (Prog σ ε β)) (clientPost : α → Outlook κ μ → Prop)
    (serverPost : β → Outlook σ ε → Prop) (connection : Connection κ μ α σ ε β) : Prop :=
  connection.clientOpen = false ∧ connection.serverOpen = false ∧
    (∃ value input output cost lost, connection.client.prog = .done value ∧
      clientPost value (connection.client.outlook input output cost lost)) ∧
    ∃ value input output cost lost, connection.server.prog = .done value ∧ restart value = none ∧
      serverPost value (connection.server.outlook input output cost lost)

theorem Agreement.over_of_closed
    (hagreement : Agreement serverLeaves restart clientPost serverPost connection ahead)
    (hclient : connection.clientOpen = false) (hserver : connection.serverOpen = false) :
    connection.Over restart clientPost serverPost := by
  obtain ⟨⟨value, hdone⟩, -⟩ := hagreement.clientClosed hclient
  obtain ⟨⟨result, hends, hrestart⟩, -⟩ := hagreement.serverClosed hserver
  have hclientKeeps := hagreement.client
  have hserverKeeps := hagreement.server
  rw [hdone] at hclientKeeps
  rw [hends] at hserverKeeps
  exact ⟨hclient, hserver, ⟨value, _, _, _, _, hdone, hclientKeeps.post_of_done rfl⟩,
    result, _, _, _, _, hends, hrestart, hserverKeeps.post_of_done hrestart⟩

/-- A conversation comes to its end. Assumes: it has no deadlock, and the two sides end as `step`
requires. -/
theorem Agreement.inevitable
    (hclientPost : ∀ value outlook, clientPost value outlook →
      outlook.lost = true ∨ outlook.input = [])
    (hserverPost : ∀ value outlook, serverPost value outlook →
      outlook.lost = true ∨ serverLeaves = true ∧ outlook.input = [])
    {start : Connection κ μ α σ ε β}
    (hfree : ∀ later, Reachable (Connection.Step restart) start later → ¬ later.Deadlocked)
    (hreach : Reachable (Connection.Step restart) start connection)
    (hagreement : Agreement serverLeaves restart clientPost serverPost connection ahead) :
    Inevitable (Connection.Step restart) (Connection.Over restart clientPost serverPost)
      connection := by
  induction heffort : connection.effort ahead using Nat.strong_induction_on generalizing connection
    ahead with
  | _ effort ih =>
    subst heffort
    by_cases hless : ∃ other, Agreement serverLeaves restart clientPost serverPost connection other ∧
        connection.effort other < connection.effort ahead
    · obtain ⟨other, hother, hsmaller⟩ := hless
      exact ih _ hsmaller hreach hother rfl
    by_cases hopen : connection.clientOpen = true ∨ connection.serverOpen = true
    · refine .later ?_ ?_
      · obtain ⟨label, after, hstep, hmoves⟩ := Connection.exists_moving (hfree connection hreach) hopen
        obtain ⟨later, hlater, hsmaller⟩ := hagreement.step hclientPost hserverPost hstep hmoves
        refine ⟨label, after, hstep, ?_⟩
        rintro rfl
        exact hless ⟨later, hlater, hsmaller⟩
      · intro label after hstep hchanged
        obtain ⟨later, hlater, hsmaller⟩ :=
          hagreement.step hclientPost hserverPost hstep (hstep.moves_of_ne hchanged)
        exact ih _ hsmaller (hreach.tail hstep) hlater rfl
    · rw [not_or, Bool.not_eq_true, Bool.not_eq_true] at hopen
      exact .now (hagreement.over_of_closed hopen.1 hopen.2)

end Ends

end Agreement

end ZigbeeRemote.Foundation
