import ZigbeeRemote.Foundation.StreamProgram
import Mathlib.Data.List.Infix

/-!
# The transfer loops

`read_all` and `write_all` of `zb_rpc_shared/include/zb_rpc/engine.hpp`, on a descriptor whose
system calls may be interrupted, fail, report the end of the stream, or move fewer bytes than
asked. A `Schedule` says what each system call of one direction will do: a call can move any number
of bytes between one and what is asked for (and, for a read, what is there). A schedule carries the
fact that interruptions stop at some point, which is what makes the two loops terminate.

On a clean schedule, one with interruptions and short counts but no failure, the loops do not
depend on it: `readAll_clean` and `writeAll_clean` say exactly what they return and leave behind.
`execute` runs a program on a descriptor with these loops at its `recv` and `send` nodes, and
`execute_clean` reduces it to `behave` on the bytes the descriptor holds, followed by the end of the
stream. `executeLoop` does the same for a program that starts over, with a bound on the number of
rounds; `executeLoop_clean` shows that enough rounds always give the result.
-/

set_option autoImplicit false
set_option relaxedAutoImplicit false

namespace ZigbeeRemote.Rpc

open Foundation

/-! ### Descriptors -/

/-- What one system call does: it is interrupted (`EINTR`), fails for another reason, returns zero,
or moves `count + 1` bytes where so many are asked for and available, and all of them otherwise. -/
inductive Outcome : Type
  | interrupted
  | failed
  | zero
  | moved (count : ℕ)
  deriving DecidableEq

/-- The outcomes of the system calls to come, among them finitely many interruptions. -/
structure Schedule where
  outcome : ℕ → Outcome
  calm : ℕ
  not_interrupted : ∀ n, calm ≤ n → outcome n ≠ .interrupted

namespace Schedule

/-- The outcome of the next system call. -/
def head (schedule : Schedule) : Outcome := schedule.outcome 0

/-- The outcomes after the next one. -/
def tail (schedule : Schedule) : Schedule where
  outcome := fun n ↦ schedule.outcome (n + 1)
  calm := schedule.calm - 1
  not_interrupted := fun n hn ↦ schedule.not_interrupted (n + 1) (by omega)

/-- No system call fails or returns zero. -/
def Clean (schedule : Schedule) : Prop :=
  ∀ n, schedule.outcome n = .interrupted ∨ ∃ count, schedule.outcome n = .moved count

theorem Clean.tail {schedule : Schedule} (hclean : schedule.Clean) : schedule.tail.Clean :=
  fun n ↦ hclean (n + 1)

/-- No interruption, and one byte at a time. -/
def steady : Schedule := ⟨fun _ ↦ .moved 0, 0, by simp⟩

theorem steady_clean : steady.Clean := fun _ ↦ Or.inr ⟨0, rfl⟩

/-- An interruption at the first call, then one byte at a time. -/
def interruptedOnce : Schedule :=
  ⟨fun n ↦ if n = 0 then .interrupted else .moved 0, 1, fun n hn ↦ by simp; omega⟩

theorem interruptedOnce_clean : interruptedOnce.Clean := by
  intro n
  by_cases hfirst : n = 0
  · exact Or.inl (if_pos hfirst)
  · exact Or.inr ⟨0, if_neg hfirst⟩

theorem calm_pos {schedule : Schedule} (hhead : schedule.head = .interrupted) :
    0 < schedule.calm := by
  by_contra hcalm
  exact schedule.not_interrupted 0 (by omega) hhead

@[simp] theorem tail_calm (schedule : Schedule) : schedule.tail.calm = schedule.calm - 1 := rfl

end Schedule

/-- One end of a stream: the bytes that will arrive before it ends, the bytes written so far, and
what the system calls in each direction will do. -/
structure Descriptor where
  incoming : Bytes
  reads : Schedule
  sent : Bytes
  writes : Schedule

/-- A descriptor that nothing arrives on and nothing has been written to. -/
def Descriptor.writing (writes : Schedule) : Descriptor := ⟨[], .steady, [], writes⟩

/-- A descriptor that given bytes arrive on. -/
def Descriptor.reading (incoming : Bytes) (reads : Schedule) : Descriptor :=
  ⟨incoming, reads, [], .steady⟩

/-- The result of `::read`; `received []` is the result zero. -/
inductive ReadResult : Type
  | interrupted
  | failed
  | received (bytes : Bytes)

/-- The result of `::write`; `written 0` is the result zero. -/
inductive WriteResult : Type
  | interrupted
  | failed
  | written (count : ℕ)

/-- `::read(fd, bytes, size)`. -/
def Descriptor.read (fd : Descriptor) (size : ℕ) : ReadResult × Descriptor :=
  match fd.reads.head with
  | .interrupted => (.interrupted, { fd with reads := fd.reads.tail })
  | .failed => (.failed, { fd with reads := fd.reads.tail })
  | .zero => (.received [], { fd with reads := fd.reads.tail })
  | .moved count =>
    (.received (fd.incoming.take (min (count + 1) size)),
      { fd with reads := fd.reads.tail, incoming := fd.incoming.drop (min (count + 1) size) })

/-- `::write(fd, bytes, size)`. -/
def Descriptor.write (fd : Descriptor) (bytes : Bytes) : WriteResult × Descriptor :=
  match fd.writes.head with
  | .interrupted => (.interrupted, { fd with writes := fd.writes.tail })
  | .failed => (.failed, { fd with writes := fd.writes.tail })
  | .zero => (.written 0, { fd with writes := fd.writes.tail })
  | .moved count =>
    (.written (min (count + 1) bytes.length),
      { fd with
        writes := fd.writes.tail
        sent := fd.sent ++ bytes.take (min (count + 1) bytes.length) })

theorem Descriptor.read_calm {fd after : Descriptor} {size : ℕ} {result : ReadResult}
    (hread : fd.read size = (result, after)) : after.reads.calm = fd.reads.calm - 1 := by
  unfold Descriptor.read at hread
  split at hread <;> (obtain ⟨-, rfl⟩ := Prod.mk.inj hread; rfl)

theorem Descriptor.write_calm {fd after : Descriptor} {bytes : Bytes} {result : WriteResult}
    (hwrite : fd.write bytes = (result, after)) : after.writes.calm = fd.writes.calm - 1 := by
  unfold Descriptor.write at hwrite
  split at hwrite <;> (obtain ⟨-, rfl⟩ := Prod.mk.inj hwrite; rfl)

theorem Descriptor.calm_pos_of_read {fd after : Descriptor} {size : ℕ}
    (hread : fd.read size = (.interrupted, after)) : 0 < fd.reads.calm := by
  apply Schedule.calm_pos
  unfold Descriptor.read at hread
  split at hread <;> simp_all

theorem Descriptor.calm_pos_of_write {fd after : Descriptor} {bytes : Bytes}
    (hwrite : fd.write bytes = (.interrupted, after)) : 0 < fd.writes.calm := by
  apply Schedule.calm_pos
  unfold Descriptor.write at hwrite
  split at hwrite <;> simp_all

/-! ### The two loops -/

/-- `read_all`: the bytes stored when it returns true. A round that is interrupted is repeated, a
round that fails or finds the end of the stream ends the loop. -/
def readAll (fd : Descriptor) (size : ℕ) : Option Bytes × Descriptor :=
  if _hsize : size = 0 then (some [], fd)
  else
    match _hread : fd.read size with
    | (.interrupted, after) => readAll after size
    | (.failed, after) => (none, after)
    | (.received [], after) => (none, after)
    | (.received (byte :: bytes), after) =>
      let more := readAll after (size - (byte :: bytes).length)
      (more.1.map ((byte :: bytes) ++ ·), more.2)
termination_by fd.reads.calm + size
decreasing_by
  · have hpos := Descriptor.calm_pos_of_read _hread
    rw [Descriptor.read_calm _hread]
    omega
  · rw [Descriptor.read_calm _hread, List.length_cons]
    omega

/-- `write_all`. -/
def writeAll (fd : Descriptor) (bytes : Bytes) : Bool × Descriptor :=
  if _hbytes : bytes.length = 0 then (true, fd)
  else
    match hwrite : fd.write bytes with
    | (.interrupted, after) => writeAll after bytes
    | (.failed, after) => (false, after)
    | (.written 0, after) => (false, after)
    | (.written (count + 1), after) => writeAll after (bytes.drop (count + 1))
termination_by fd.writes.calm + bytes.length
decreasing_by
  · have hpos := Descriptor.calm_pos_of_write hwrite
    rw [Descriptor.write_calm hwrite]
    omega
  · rw [Descriptor.write_calm hwrite, List.length_drop]
    omega

/-! One round of each loop, for every result of the system call. -/

theorem readAll_interrupted {fd after : Descriptor} {size : ℕ} (hsize : size ≠ 0)
    (hread : fd.read size = (.interrupted, after)) : readAll fd size = readAll after size := by
  rw [readAll, dif_neg hsize]
  split <;> simp_all

theorem readAll_failed {fd after : Descriptor} {size : ℕ} (hsize : size ≠ 0)
    (hread : fd.read size = (.failed, after)) : readAll fd size = (none, after) := by
  rw [readAll, dif_neg hsize]
  split <;> simp_all

theorem readAll_ended {fd after : Descriptor} {size : ℕ} (hsize : size ≠ 0)
    (hread : fd.read size = (.received [], after)) : readAll fd size = (none, after) := by
  rw [readAll, dif_neg hsize]
  split <;> simp_all

theorem readAll_received {fd after : Descriptor} {size : ℕ} {bytes : Bytes} (hsize : size ≠ 0)
    (hbytes : bytes ≠ []) (hread : fd.read size = (.received bytes, after)) :
    readAll fd size = ((readAll after (size - bytes.length)).1.map (bytes ++ ·),
      (readAll after (size - bytes.length)).2) := by
  rw [readAll, dif_neg hsize]
  split <;> simp_all

theorem writeAll_interrupted {fd after : Descriptor} {bytes : Bytes} (hbytes : bytes.length ≠ 0)
    (hwrite : fd.write bytes = (.interrupted, after)) :
    writeAll fd bytes = writeAll after bytes := by
  rw [writeAll, dif_neg hbytes]
  split <;> simp_all

theorem writeAll_failed {fd after : Descriptor} {bytes : Bytes} (hbytes : bytes.length ≠ 0)
    (hwrite : fd.write bytes = (.failed, after)) : writeAll fd bytes = (false, after) := by
  rw [writeAll, dif_neg hbytes]
  split <;> simp_all

theorem writeAll_ended {fd after : Descriptor} {bytes : Bytes} (hbytes : bytes.length ≠ 0)
    (hwrite : fd.write bytes = (.written 0, after)) : writeAll fd bytes = (false, after) := by
  rw [writeAll, dif_neg hbytes]
  split <;> simp_all

theorem writeAll_written {fd after : Descriptor} {bytes : Bytes} {count : ℕ}
    (hbytes : bytes.length ≠ 0) (hwrite : fd.write bytes = (.written (count + 1), after)) :
    writeAll fd bytes = writeAll after (bytes.drop (count + 1)) := by
  rw [writeAll, dif_neg hbytes]
  split <;> simp_all

/-- One read of a clean descriptor: an interruption that takes nothing, or a run of bytes off the
front of the stream, empty only at its end. -/
theorem Descriptor.read_clean {fd after : Descriptor} {size : ℕ} {result : ReadResult}
    (hclean : fd.reads.Clean) (hsize : 0 < size) (hread : fd.read size = (result, after)) :
    after.reads.Clean ∧ after.sent = fd.sent ∧ after.writes = fd.writes ∧
      ((result = .interrupted ∧ after.incoming = fd.incoming) ∨
        ∃ bytes, result = .received bytes ∧ bytes.length ≤ size ∧
          fd.incoming = bytes ++ after.incoming ∧ (bytes = [] → fd.incoming = [])) := by
  unfold Descriptor.read at hread
  rcases hclean 0 with hhead | ⟨count, hhead⟩
  · rw [Schedule.head, hhead] at hread
    obtain ⟨rfl, rfl⟩ := Prod.mk.inj hread
    exact ⟨hclean.tail, rfl, rfl, Or.inl ⟨rfl, rfl⟩⟩
  · rw [Schedule.head, hhead] at hread
    obtain ⟨rfl, rfl⟩ := Prod.mk.inj hread
    refine ⟨hclean.tail, rfl, rfl, Or.inr ⟨_, rfl, ?_, (List.take_append_drop _ _).symm, ?_⟩⟩
    · exact Nat.le_trans (List.length_take_le _ _) (Nat.min_le_right _ _)
    · intro hempty
      rcases List.take_eq_nil_iff.mp hempty with hzero | hnil
      · omega
      · exact hnil

/-- One write of a clean descriptor: an interruption that writes nothing, or a non-empty part of
the buffer. -/
theorem Descriptor.write_clean {fd after : Descriptor} {bytes : Bytes} {result : WriteResult}
    (hclean : fd.writes.Clean) (hbytes : bytes.length ≠ 0)
    (hwrite : fd.write bytes = (result, after)) :
    after.writes.Clean ∧ after.incoming = fd.incoming ∧ after.reads = fd.reads ∧
      ((result = .interrupted ∧ after.sent = fd.sent) ∨
        ∃ count, result = .written (count + 1) ∧
          after.sent = fd.sent ++ bytes.take (count + 1)) := by
  unfold Descriptor.write at hwrite
  rcases hclean 0 with hhead | ⟨count, hhead⟩
  · rw [Schedule.head, hhead] at hwrite
    obtain ⟨rfl, rfl⟩ := Prod.mk.inj hwrite
    exact ⟨hclean.tail, rfl, rfl, Or.inl ⟨rfl, rfl⟩⟩
  · rw [Schedule.head, hhead] at hwrite
    obtain ⟨rfl, rfl⟩ := Prod.mk.inj hwrite
    have hcount : min (count + 1) bytes.length = min (count + 1) bytes.length - 1 + 1 := by omega
    refine ⟨hclean.tail, rfl, rfl, Or.inr ⟨min (count + 1) bytes.length - 1, ?_, ?_⟩⟩
    · rw [← hcount]
    · rw [← hcount]

/-- Whatever the sizes of the single reads and however often they are interrupted, `read_all` takes
the next `size` bytes of the stream, and fails exactly when there are fewer. -/
theorem readAll_clean (fd : Descriptor) (size : ℕ) (hclean : fd.reads.Clean) :
    (readAll fd size).1 =
        (if size ≤ fd.incoming.length then some (fd.incoming.take size) else none) ∧
      (readAll fd size).2.incoming = fd.incoming.drop size ∧
      (readAll fd size).2.sent = fd.sent ∧ (readAll fd size).2.writes = fd.writes ∧
      (readAll fd size).2.reads.Clean := by
  induction fd, size using readAll.induct with
  | case1 fd => simp [readAll, hclean]
  | case2 fd size hsize after hread ih =>
    obtain ⟨hafter, hsent, hwrites, hinterrupted | ⟨_, hnever, _⟩⟩ :=
      Descriptor.read_clean hclean (Nat.pos_of_ne_zero hsize) hread
    · rw [readAll_interrupted hsize hread]
      obtain ⟨hresult, hin, hout, hsame, hreads⟩ := ih hafter
      rw [hinterrupted.2] at hresult hin
      exact ⟨hresult, hin, hout.trans hsent, hsame.trans hwrites, hreads⟩
    · exact absurd hnever (by simp)
  | case3 fd size hsize after hread =>
    obtain ⟨_, _, _, ⟨hnever, _⟩ | ⟨_, hnever, _⟩⟩ :=
      Descriptor.read_clean hclean (Nat.pos_of_ne_zero hsize) hread <;> simp at hnever
  | case4 fd size hsize after hread =>
    obtain ⟨hafter, hsent, hwrites, ⟨hnever, _⟩ | ⟨bytes, hbytes, _, hsplit, hempty⟩⟩ :=
      Descriptor.read_clean hclean (Nat.pos_of_ne_zero hsize) hread
    · simp at hnever
    · obtain rfl := (ReadResult.received.inj hbytes).symm
      have hend := hempty rfl
      have hin : after.incoming = [] := by simpa [hend] using hsplit.symm
      rw [readAll_ended hsize hread]
      simp [hend, hin, hsent, hwrites, hafter, hsize]
  | case5 fd size hsize byte bytes after hread ih =>
    obtain ⟨hafter, hsent, hwrites, ⟨hnever, _⟩ | ⟨_, hbytes, hfits, hsplit, _⟩⟩ :=
      Descriptor.read_clean hclean (Nat.pos_of_ne_zero hsize) hread
    · simp at hnever
    · obtain rfl := (ReadResult.received.inj hbytes).symm
      obtain ⟨hresult, hin, hout, hsame, hreads⟩ := ih hafter
      rw [readAll_received hsize (List.cons_ne_nil byte bytes) hread]
      refine ⟨?_, ?_, hout.trans hsent, hsame.trans hwrites, hreads⟩
      · rw [hresult, hsplit, List.length_append, List.take_append,
          List.take_of_length_le hfits]
        by_cases henough : size - (byte :: bytes).length ≤ after.incoming.length
        · rw [if_pos henough, if_pos (by omega), Option.map_some]
        · rw [if_neg henough, if_neg (by omega), Option.map_none]
      · rw [hin, hsplit, List.drop_append, List.drop_of_length_le hfits, List.nil_append]

/-- Whatever the sizes of the single writes and however often they are interrupted, `write_all`
writes its whole buffer and succeeds. -/
theorem writeAll_clean (fd : Descriptor) (bytes : Bytes) (hclean : fd.writes.Clean) :
    (writeAll fd bytes).1 = true ∧ (writeAll fd bytes).2.sent = fd.sent ++ bytes ∧
      (writeAll fd bytes).2.incoming = fd.incoming ∧ (writeAll fd bytes).2.reads = fd.reads ∧
      (writeAll fd bytes).2.writes.Clean := by
  induction fd, bytes using writeAll.induct with
  | case1 fd bytes hbytes =>
    have hnil := List.length_eq_zero_iff.mp hbytes
    subst hnil
    simp [writeAll, hclean]
  | case2 fd bytes hbytes after hwrite ih =>
    obtain ⟨hafter, hin, hreads, ⟨_, hsent⟩ | ⟨_, hnever, _⟩⟩ :=
      Descriptor.write_clean hclean hbytes hwrite
    · rw [writeAll_interrupted hbytes hwrite]
      obtain ⟨hresult, hout, hincoming, hsame, hwrites⟩ := ih hafter
      rw [hsent] at hout
      exact ⟨hresult, hout, hincoming.trans hin, hsame.trans hreads, hwrites⟩
    · exact absurd hnever (by simp)
  | case3 fd bytes hbytes after hwrite =>
    obtain ⟨_, _, _, ⟨hnever, _⟩ | ⟨_, hnever, _⟩⟩ :=
      Descriptor.write_clean hclean hbytes hwrite <;> simp at hnever
  | case4 fd bytes hbytes after hwrite =>
    obtain ⟨_, _, _, ⟨hnever, _⟩ | ⟨_, hnever, _⟩⟩ :=
      Descriptor.write_clean hclean hbytes hwrite <;> simp at hnever
  | case5 fd bytes hbytes count after hwrite ih =>
    obtain ⟨hafter, hin, hreads, ⟨hnever, _⟩ | ⟨_, hcount, hsent⟩⟩ :=
      Descriptor.write_clean hclean hbytes hwrite
    · simp at hnever
    · obtain rfl := Nat.succ.inj (WriteResult.written.inj hcount)
      obtain ⟨hresult, hout, hincoming, hsame, hwrites⟩ := ih hafter
      rw [writeAll_written hbytes hwrite]
      rw [hsent, List.append_assoc, List.take_append_drop] at hout
      exact ⟨hresult, hout, hincoming.trans hin, hsame.trans hreads, hwrites⟩

/-! Whatever the system calls do, what `read_all` returns was there, and `write_all` leaves what
arrives alone. -/

/-- One read that returned bytes took them off the front of the stream. -/
theorem Descriptor.read_received {fd after : Descriptor} {size : ℕ} {bytes : Bytes}
    (hread : fd.read size = (.received bytes, after)) :
    fd.incoming = bytes ++ after.incoming ∧ bytes.length ≤ size := by
  unfold Descriptor.read at hread
  split at hread
  · cases hread
  · cases hread
  · cases hread
    exact ⟨rfl, Nat.zero_le size⟩
  · cases hread
    refine ⟨(List.take_append_drop _ _).symm, ?_⟩
    exact Nat.le_trans (List.length_take_le _ _) (Nat.min_le_right _ _)

theorem Descriptor.read_interrupted {fd after : Descriptor} {size : ℕ}
    (hread : fd.read size = (.interrupted, after)) : after.incoming = fd.incoming := by
  unfold Descriptor.read at hread
  split at hread <;> cases hread
  rfl

theorem Descriptor.read_failed {fd after : Descriptor} {size : ℕ}
    (hread : fd.read size = (.failed, after)) : after.incoming = fd.incoming := by
  unfold Descriptor.read at hread
  split at hread <;> cases hread
  rfl

/-- A buffer that `read_all` has filled came off the front of the stream. -/
theorem readAll_some (fd : Descriptor) (size : ℕ) {bytes : Bytes}
    (hsome : (readAll fd size).1 = some bytes) :
    fd.incoming = bytes ++ (readAll fd size).2.incoming ∧ bytes.length = size := by
  induction fd, size using readAll.induct generalizing bytes with
  | case1 fd =>
    rw [readAll, dif_pos rfl] at hsome ⊢
    cases hsome
    exact ⟨rfl, rfl⟩
  | case2 fd size hsize after hread ih =>
    rw [readAll_interrupted hsize hread] at hsome ⊢
    rw [← Descriptor.read_interrupted hread]
    exact ih hsome
  | case3 fd size hsize after hread =>
    rw [readAll_failed hsize hread] at hsome
    cases hsome
  | case4 fd size hsize after hread =>
    rw [readAll_ended hsize hread] at hsome
    cases hsome
  | case5 fd size hsize byte first after hread ih =>
    rw [readAll_received hsize (List.cons_ne_nil byte first) hread] at hsome ⊢
    obtain ⟨more, hmore, rfl⟩ := Option.map_eq_some_iff.mp hsome
    obtain ⟨hincoming, hfits⟩ := Descriptor.read_received hread
    obtain ⟨hrest, hlength⟩ := ih hmore
    constructor
    · rw [hincoming, hrest, List.append_assoc]
    · rw [List.length_append, hlength]
      omega

theorem Descriptor.read_suffix {fd after : Descriptor} {size : ℕ} {result : ReadResult}
    (hread : fd.read size = (result, after)) : after.incoming <:+ fd.incoming := by
  unfold Descriptor.read at hread
  split at hread <;> obtain ⟨-, rfl⟩ := Prod.mk.inj hread
  · exact List.suffix_rfl
  · exact List.suffix_rfl
  · exact List.suffix_rfl
  · exact List.drop_suffix _ _

theorem readAll_suffix (fd : Descriptor) (size : ℕ) :
    (readAll fd size).2.incoming <:+ fd.incoming := by
  induction fd, size using readAll.induct with
  | case1 fd =>
    rw [readAll, dif_pos rfl]
  | case2 fd size hsize after hread ih =>
    rw [readAll_interrupted hsize hread]
    exact ih.trans (Descriptor.read_suffix hread)
  | case3 fd size hsize after hread =>
    rw [readAll_failed hsize hread]
    exact Descriptor.read_suffix hread
  | case4 fd size hsize after hread =>
    rw [readAll_ended hsize hread]
    exact Descriptor.read_suffix hread
  | case5 fd size hsize byte first after hread ih =>
    rw [readAll_received hsize (List.cons_ne_nil byte first) hread]
    exact ih.trans (Descriptor.read_suffix hread)

theorem Descriptor.write_incoming (fd : Descriptor) (bytes : Bytes) :
    (fd.write bytes).2.incoming = fd.incoming := by
  unfold Descriptor.write
  split <;> rfl

theorem writeAll_incoming (fd : Descriptor) (bytes : Bytes) :
    (writeAll fd bytes).2.incoming = fd.incoming := by
  induction fd, bytes using writeAll.induct with
  | case1 fd bytes hbytes => rw [writeAll, dif_pos hbytes]
  | case2 fd bytes hbytes after hwrite ih =>
    rw [writeAll_interrupted hbytes hwrite, ih, ← Descriptor.write_incoming fd bytes, hwrite]
  | case3 fd bytes hbytes after hwrite =>
    rw [writeAll_failed hbytes hwrite, ← Descriptor.write_incoming fd bytes, hwrite]
  | case4 fd bytes hbytes after hwrite =>
    rw [writeAll_ended hbytes hwrite, ← Descriptor.write_incoming fd bytes, hwrite]
  | case5 fd bytes hbytes count after hwrite ih =>
    rw [writeAll_written hbytes hwrite, ih, ← Descriptor.write_incoming fd bytes, hwrite]

/-! ### Running a program on a descriptor -/

section Execute

variable {σ ε α : Type}

/-- What a program leaves behind when it has run on a descriptor. -/
structure Executed (σ ε α : Type) where
  value : α
  state : σ
  marks : List ε
  fd : Descriptor

/-- Run a program on a descriptor, with `read_all` and `write_all` at its nodes. -/
def execute : Prog σ ε α → σ → Descriptor → Executed σ ε α
  | .done value, state, fd => ⟨value, state, [], fd⟩
  | .recv size next, state, fd =>
    execute (next (readAll fd size).1) state (readAll fd size).2
  | .send bytes next, state, fd =>
    execute (next (writeAll fd bytes).1) state (writeAll fd bytes).2
  | .query update next, state, fd => execute (next state) (update state) fd
  | .note mark next, state, fd =>
    { execute next state fd with marks := mark :: (execute next state fd).marks }

/-- Run a program that may start over on a descriptor, for at most `rounds` rounds; `none` when it
would go on. -/
def executeLoop (restart : α → Option (Prog σ ε α)) :
    ℕ → Prog σ ε α → σ → Descriptor → Option (Executed σ ε α)
  | 0, _, _, _ => none
  | rounds + 1, program, state, fd =>
    match restart (execute program state fd).value with
    | none => some (execute program state fd)
    | some following =>
      (executeLoop restart rounds following (execute program state fd).state
          (execute program state fd).fd).map fun later ↦
        { later with marks := (execute program state fd).marks ++ later.marks }

/-- What is left behind, preceded by earlier marks. -/
def Executed.after (executed : Executed σ ε α) (marks : List ε) : Executed σ ε α :=
  { executed with marks := marks ++ executed.marks }

@[simp] theorem Executed.after_value (executed : Executed σ ε α) (marks : List ε) :
    (executed.after marks).value = executed.value := rfl

@[simp] theorem Executed.after_state (executed : Executed σ ε α) (marks : List ε) :
    (executed.after marks).state = executed.state := rfl

@[simp] theorem Executed.after_marks (executed : Executed σ ε α) (marks : List ε) :
    (executed.after marks).marks = marks ++ executed.marks := rfl

@[simp] theorem Executed.after_fd (executed : Executed σ ε α) (marks : List ε) :
    (executed.after marks).fd = executed.fd := rfl

/-- Programs run one after the other on the same descriptor. -/
theorem execute_bind {β : Type} (program : Prog σ ε α) (next : α → Prog σ ε β) (state : σ)
    (fd : Descriptor) :
    execute (program.bind next) state fd =
      (execute (next (execute program state fd).value) (execute program state fd).state
        (execute program state fd).fd).after (execute program state fd).marks := by
  induction program generalizing state fd with
  | done value => rfl
  | recv size rest ih => exact ih _ _ _
  | send bytes rest ih => exact ih _ _ _
  | query update rest ih => exact ih _ _ _
  | note mark rest ih =>
    simp only [Prog.bind, execute, ih]
    rfl

/-- A program takes what it reads off the front of the stream. -/
theorem execute_incoming_suffix (program : Prog σ ε α) (state : σ) (fd : Descriptor) :
    (execute program state fd).fd.incoming <:+ fd.incoming := by
  induction program generalizing state fd with
  | done value => exact List.suffix_rfl
  | recv size next ih => exact (ih _ _ _).trans (readAll_suffix fd size)
  | send bytes next ih => exact (ih _ _ _).trans (writeAll_incoming fd bytes ▸ List.suffix_rfl)
  | query update next ih => exact ih _ _ _
  | note mark next ih => exact ih _ _

/-- A descriptor on which no system call fails. -/
def Descriptor.Clean (fd : Descriptor) : Prop := fd.reads.Clean ∧ fd.writes.Clean

/-- On a clean descriptor a program does what it does on the bytes the descriptor holds, whatever
the sizes of the single reads and writes. -/
theorem execute_clean (program : Prog σ ε α) (state : σ) (fd : Descriptor) (hclean : fd.Clean) :
    ∃ value rest after,
      (behave true program state fd.incoming).ending = .finished value rest ∧
      execute program state fd = ⟨value, (behave true program state fd.incoming).state,
        (behave true program state fd.incoming).marks, after⟩ ∧
      after.incoming = rest ∧
      after.sent = fd.sent ++ (behave true program state fd.incoming).output ∧ after.Clean := by
  induction program generalizing state fd with
  | done value => exact ⟨value, fd.incoming, fd, rfl, rfl, rfl, by simp, hclean⟩
  | recv size next ih =>
    obtain ⟨hresult, hin, hout, hwrites, hreads⟩ := readAll_clean fd size hclean.1
    obtain ⟨value, rest, after, hending, hexecute, hrest, hsent, hafter⟩ :=
      ih (readAll fd size).1 state (readAll fd size).2 ⟨hreads, hwrites ▸ hclean.2⟩
    have hbehave : behave true (.recv size next) state fd.incoming =
        (behave true (next (readAll fd size).1) state (readAll fd size).2.incoming).after
          [] [] 1 := by
      rw [hresult, hin]
      by_cases henough : size ≤ fd.incoming.length
      · simp only [behave, if_pos henough]
      · have hnil : fd.incoming.drop size = [] := List.drop_of_length_le (by omega)
        rw [behave_recv_eof state next (by omega), if_neg henough, hnil]
    rw [hbehave]
    exact ⟨value, rest, after, hending, hexecute, hrest, by rw [hsent, hout]; rfl, hafter⟩
  | send bytes next ih =>
    obtain ⟨hresult, hout, hin, hreads, hwrites⟩ := writeAll_clean fd bytes hclean.2
    obtain ⟨value, rest, after, hending, hexecute, hrest, hsent, hafter⟩ :=
      ih (writeAll fd bytes).1 state (writeAll fd bytes).2 ⟨hreads ▸ hclean.1, hwrites⟩
    rw [hresult, hin] at hending hexecute hsent
    refine ⟨value, rest, after, hending, ?_, hrest, ?_, hafter⟩
    · rw [execute, hresult]
      exact hexecute
    · rw [hsent, hout, behave_send, Behaviour.after_output, List.append_assoc]
  | query update next ih =>
    obtain ⟨value, rest, after, hending, hexecute, hrest, hsent, hafter⟩ :=
      ih state (update state) fd hclean
    exact ⟨value, rest, after, hending, hexecute, hrest, hsent, hafter⟩
  | note mark next ih =>
    obtain ⟨value, rest, after, hending, hexecute, hrest, hsent, hafter⟩ := ih state fd hclean
    refine ⟨value, rest, after, hending, ?_, hrest, hsent, hafter⟩
    rw [execute, hexecute]
    rfl

/-- On a clean descriptor a program that may start over does what it does on the bytes the
descriptor holds, given enough rounds. -/
theorem executeLoop_clean {restart : α → Option (Prog σ ε α)} {program : Prog σ ε α} {state : σ}
    {input : Bytes} {behaviour : Behaviour σ ε α}
    (hreacts : Reacts true restart program state input behaviour) (fd : Descriptor)
    (hclean : fd.Clean) (hinput : fd.incoming = input) :
    ∃ enough value rest after,
      (∀ rounds, enough ≤ rounds → executeLoop restart rounds program state fd =
        some ⟨value, behaviour.state, behaviour.marks, after⟩) ∧
      behaviour.ending = .finished value rest ∧ after.incoming = rest ∧
      after.sent = fd.sent ++ behaviour.output := by
  induction hreacts generalizing fd with
  | @blocked program state input hblocked =>
    obtain ⟨value, rest, after, hending, _⟩ := execute_clean program state fd hclean
    rw [hinput, hblocked] at hending
    simp at hending
  | @stopped program state input value rest hfinished hrestart =>
    obtain ⟨value', rest', after, hending, hexecute, hrest, hsent, _⟩ :=
      execute_clean program state fd hclean
    rw [hinput] at hending hexecute hsent
    rw [hfinished] at hending
    obtain ⟨rfl, rfl⟩ := Ending.finished.inj hending
    refine ⟨1, value, rest, after, fun rounds hrounds ↦ ?_, hfinished, hrest, hsent⟩
    obtain ⟨others, rfl⟩ : ∃ others, rounds = others + 1 := ⟨rounds - 1, by omega⟩
    simp only [executeLoop, hexecute, hrestart]
  | @again program following state input value rest later hfinished hrestart _ ih =>
    obtain ⟨value', rest', after, hending, hexecute, hrest, hsent, hafter⟩ :=
      execute_clean program state fd hclean
    rw [hinput] at hending hexecute hsent
    rw [hfinished] at hending
    obtain ⟨rfl, rfl⟩ := Ending.finished.inj hending
    obtain ⟨enough, last, left, final, hloop, hlast, hleft, hall⟩ := ih after hafter hrest
    refine ⟨enough + 1, last, left, final, fun rounds hrounds ↦ ?_, hlast, hleft, ?_⟩
    · obtain ⟨others, rfl⟩ : ∃ others, rounds = others + 1 := ⟨rounds - 1, by omega⟩
      simp only [executeLoop, hexecute, hrestart]
      rw [hloop others (by omega)]
      rfl
    · rw [hall, hsent, Behaviour.after_output, List.append_assoc]

end Execute

end ZigbeeRemote.Rpc
