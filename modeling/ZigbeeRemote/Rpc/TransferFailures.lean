import ZigbeeRemote.Rpc.Engine
import ZigbeeRemote.Rpc.Transfer
import Mathlib.Algebra.GroupWithZero.Nat

/-!
# The transfer loops on any sequence of results

What `read_all`, `discard_payload` and `write_all` do when system calls fail, for every sequence of
their results. A loop that reads is a `Reader`: it has taken some bytes and asks for some more, so
many as its rule `ask` says. `Reader.result` is the result of its next call and `Reader.after` the
reader after so many calls, with no regard to whether the loop would still make them; a result that
is an interruption or a positive count lets the loop go on.

`read_all` asks for all that is missing, `discard_payload` for what is missing of its next 32 bytes.
`transfers_exact` says of both that they succeed exactly when such results bring the whole size, and
that they take no byte beyond it.
-/

set_option autoImplicit false
set_option relaxedAutoImplicit false

namespace ZigbeeRemote.Rpc

open Foundation

/-! ### Sequences of results -/

/-- The bytes a call has brought. -/
def ReadResult.bytes : ReadResult → Bytes
  | .interrupted => []
  | .failed => []
  | .received bytes => bytes

/-- An interruption or a positive count. -/
def ReadResult.Proceeds : ReadResult → Prop
  | .interrupted => True
  | .failed => False
  | .received bytes => bytes ≠ []

/-- A loop that reads: its descriptor and the bytes it has taken so far. -/
structure Reader where
  fd : Descriptor
  taken : Bytes

namespace Reader

section Calls

variable (ask : ℕ → ℕ)

/-- The result of the next call. -/
def result (reader : Reader) : ReadResult := (reader.fd.read (ask reader.taken.length)).1

/-- The reader after the next call. -/
def next (reader : Reader) : Reader :=
  ⟨(reader.fd.read (ask reader.taken.length)).2, reader.taken ++ (reader.result ask).bytes⟩

/-- The reader after so many calls. -/
def after : ℕ → Reader → Reader
  | 0, reader => reader
  | calls + 1, reader => after calls (reader.next ask)

/-- So many calls let the loop go on. -/
def Proceeds (calls : ℕ) (reader : Reader) : Prop :=
  ∀ earlier < calls, ((reader.after ask earlier).result ask).Proceeds

/-- The sum of the counts of so many calls. -/
def sumOfCounts (calls : ℕ) (reader : Reader) : ℕ :=
  ((List.range calls).map fun earlier ↦ ((reader.after ask earlier).result ask).bytes.length).sum

variable {ask} {reader last : Reader} {calls : ℕ}

theorem proceeds_succ : reader.Proceeds ask (calls + 1) ↔
    (reader.result ask).Proceeds ∧ (reader.next ask).Proceeds ask calls := by
  constructor
  · intro hall
    exact ⟨hall 0 (Nat.succ_pos calls), fun earlier hearlier ↦
      hall (earlier + 1) (Nat.succ_lt_succ hearlier)⟩
  · rintro ⟨hfirst, hrest⟩ earlier hearlier
    cases earlier with
    | zero => exact hfirst
    | succ earlier => exact hrest earlier (Nat.lt_of_succ_lt_succ hearlier)

theorem after_add (more : ℕ) :
    reader.after ask (calls + more) = (reader.after ask calls).after ask more := by
  induction calls generalizing reader with
  | zero => rw [Nat.zero_add, after]
  | succ calls ih => rw [Nat.succ_add, after, after, ih]

theorem proceeds_add {more : ℕ} (hfirst : reader.Proceeds ask calls)
    (hmore : (reader.after ask calls).Proceeds ask more) : reader.Proceeds ask (calls + more) := by
  induction calls generalizing reader with
  | zero => rwa [Nat.zero_add]
  | succ calls ih =>
    rw [proceeds_succ] at hfirst
    rw [Nat.succ_add, proceeds_succ]
    exact ⟨hfirst.1, ih hfirst.2 hmore⟩

variable (ask) in
/-- The counts add up to what is taken. -/
theorem length_taken_after (calls : ℕ) (reader : Reader) : (reader.after ask calls).taken.length =
    reader.taken.length + reader.sumOfCounts ask calls := by
  induction calls generalizing reader with
  | zero => simp [after, sumOfCounts]
  | succ calls ih =>
    have hsum : reader.sumOfCounts ask (calls + 1) =
        (reader.result ask).bytes.length + (reader.next ask).sumOfCounts ask calls := by
      rw [sumOfCounts, List.range_succ_eq_map, List.map_cons, List.sum_cons, List.map_map]
      rfl
    rw [after, ih, hsum, next, List.length_append, Nat.add_assoc]

variable (ask) in
/-- What is taken comes off the front of the stream. -/
theorem taken_next (reader : Reader) : (reader.next ask).taken ++ (reader.next ask).fd.incoming =
    reader.taken ++ reader.fd.incoming := by
  rw [next, List.append_assoc]
  congr 1
  cases hread : reader.fd.read (ask reader.taken.length) with
  | mk outcome later =>
    rw [result, hread]
    cases outcome with
    | interrupted => exact Descriptor.read_interrupted hread
    | failed => exact Descriptor.read_failed hread
    | received bytes => exact (Descriptor.read_received hread).1.symm

variable (ask) in
theorem taken_after (calls : ℕ) (reader : Reader) : (reader.after ask calls).taken ++ (reader.after ask calls).fd.incoming =
    reader.taken ++ reader.fd.incoming := by
  induction calls generalizing reader with
  | zero => rfl
  | succ calls ih => rw [after, ih, taken_next]

end Calls

/-! ### How a loop ends -/

/-- A loop that wants so many bytes has ended after some calls: it has them, or the next call does
not let it go on. `succeeded` and `fd` are what the loop returned and left. -/
structure Ended (ask : ℕ → ℕ) (goal : ℕ) (reader : Reader) (calls : ℕ) (succeeded : Bool)
    (fd : Descriptor) : Prop where
  proceeds : reader.Proceeds ask calls
  calls_le : calls + (reader.after ask calls).fd.reads.calm +
    (goal - (reader.after ask calls).taken.length) ≤
      reader.fd.reads.calm + (goal - reader.taken.length)
  of_true : succeeded = true →
    (reader.after ask calls).taken.length = goal ∧ (reader.after ask calls).fd = fd
  of_false : succeeded = false → (reader.after ask calls).taken.length < goal ∧
    ¬ ((reader.after ask calls).result ask).Proceeds ∧ ((reader.after ask calls).next ask).fd = fd

section Ended

variable {ask : ℕ → ℕ} {goal calls : ℕ} {reader : Reader} {succeeded : Bool} {fd : Descriptor}

/-- A call that lets the loop go on, before the others. -/
theorem Ended.cons (hfirst : (reader.result ask).Proceeds)
    (hless : (reader.next ask).fd.reads.calm + (goal - (reader.next ask).taken.length) <
      reader.fd.reads.calm + (goal - reader.taken.length))
    (hended : Ended ask goal (reader.next ask) calls succeeded fd) :
    Ended ask goal reader (calls + 1) succeeded fd where
  proceeds := proceeds_succ.mpr ⟨hfirst, hended.proceeds⟩
  calls_le := by
    have hcalls := hended.calls_le
    rw [after]
    omega
  of_true := hended.of_true
  of_false := hended.of_false

/-- A loop has succeeded exactly when the calls that let it go on bring all it wants. -/
theorem Ended.succeeded_iff (hended : Ended ask goal reader calls succeeded fd)
    (hstart : reader.taken = []) :
    succeeded = true ↔
      ∃ count, reader.Proceeds ask count ∧ reader.sumOfCounts ask count = goal := by
  have htaken (count : ℕ) :
      (reader.after ask count).taken.length = reader.sumOfCounts ask count := by
    rw [length_taken_after, hstart, List.length_nil, Nat.zero_add]
  constructor
  · intro htrue
    exact ⟨calls, hended.proceeds, (htaken calls).symm.trans (hended.of_true htrue).1⟩
  · rintro ⟨count, hproceeds, hsum⟩
    by_contra hnot
    obtain ⟨hshort, hstops, -⟩ := hended.of_false (Bool.eq_false_iff.mpr hnot)
    -- The sequence has not gone past the call that stopped the loop.
    have hle : count ≤ calls := by
      by_contra hlonger
      exact hstops (hproceeds calls (by omega))
    obtain ⟨more, rfl⟩ := Nat.exists_eq_add_of_le hle
    rw [after_add, length_taken_after, htaken, hsum] at hshort
    omega

/-- What a loop has taken when it ends. -/
theorem Ended.incoming (hended : Ended ask goal reader calls succeeded fd)
    (hstart : reader.taken = []) :
    ∃ count, count ≤ goal ∧ fd.incoming = reader.fd.incoming.drop count ∧
      (count = goal ↔ succeeded = true) := by
  have hsplit := taken_after ask calls reader
  rw [hstart, List.nil_append] at hsplit
  have hdrop : reader.fd.incoming.drop (reader.after ask calls).taken.length =
      (reader.after ask calls).fd.incoming := by
    rw [← hsplit, List.drop_left]
  cases hresult : succeeded with
  | true =>
    obtain ⟨hgoal, hfd⟩ := hended.of_true hresult
    refine ⟨goal, Nat.le_refl goal, ?_, by simp⟩
    rw [← hgoal, hdrop, hfd]
  | false =>
    obtain ⟨hshort, hstops, hfd⟩ := hended.of_false hresult
    refine ⟨(reader.after ask calls).taken.length, Nat.le_of_lt hshort, ?_, by simp; omega⟩
    rw [hdrop, ← hfd]
    have hnext := taken_next ask (reader.after ask calls)
    have hnone : ((reader.after ask calls).result ask).bytes = [] := by
      cases hcall : (reader.after ask calls).result ask with
      | interrupted => rfl
      | failed => rfl
      | received bytes =>
        rw [hcall] at hstops
        exact not_not.mp hstops
    have htaken : ((reader.after ask calls).next ask).taken = (reader.after ask calls).taken := by
      rw [next, hnone, List.append_nil]
    rw [htaken] at hnext
    exact List.append_cancel_left hnext

end Ended

/-- A call that stops a loop. -/
theorem Ended.stop {ask : ℕ → ℕ} {goal : ℕ} {reader : Reader} {fd : Descriptor}
    (hshort : reader.taken.length < goal) (hstops : ¬ (reader.result ask).Proceeds)
    (hfd : (reader.next ask).fd = fd) : Ended ask goal reader 0 false fd where
  proceeds := fun _ h ↦ absurd h (Nat.not_lt_zero _)
  calls_le := by rw [after, Nat.zero_add]
  of_true := by simp
  of_false := fun _ ↦ ⟨hshort, hstops, hfd⟩

/-- A loop that has all it wants. -/
theorem Ended.done {ask : ℕ → ℕ} {goal : ℕ} {reader : Reader} (hgoal : reader.taken.length = goal) :
    Ended ask goal reader 0 true reader.fd where
  proceeds := fun _ h ↦ absurd h (Nat.not_lt_zero _)
  calls_le := by rw [after, Nat.zero_add]
  of_true := fun _ ↦ ⟨hgoal, rfl⟩
  of_false := by simp

section FirstCall

variable {ask : ℕ → ℕ} {fd later : Descriptor} {size : ℕ} {taken : Bytes} {outcome : ReadResult}

/-- The first call of a loop that asks for all that is missing. -/
theorem first_call
    (hask : ∀ count, taken.length ≤ count → count < taken.length + size →
      ask count = taken.length + size - count) (hsize : size ≠ 0)
    (hread : fd.read size = (outcome, later)) :
    (⟨fd, taken⟩ : Reader).result ask = outcome ∧
      (⟨fd, taken⟩ : Reader).next ask = ⟨later, taken ++ outcome.bytes⟩ := by
  have hall : ask taken.length = size := by
    rw [hask _ (Nat.le_refl _) (by omega)]
    omega
  have hresult : (⟨fd, taken⟩ : Reader).result ask = outcome := by
    rw [result, hall, hread]
  refine ⟨hresult, ?_⟩
  rw [next, hresult, hall, hread]

/-- The loop ends with its first call. -/
theorem Ended.stop_first
    (hask : ∀ count, taken.length ≤ count → count < taken.length + size →
      ask count = taken.length + size - count) (hsize : size ≠ 0)
    (hread : fd.read size = (outcome, later)) (hstops : ¬ outcome.Proceeds) :
    Ended ask (taken.length + size) ⟨fd, taken⟩ 0 false later := by
  obtain ⟨hresult, hnext⟩ := first_call hask hsize hread
  refine .stop (Nat.lt_add_of_pos_right (Nat.pos_of_ne_zero hsize)) ?_ (by rw [hnext])
  rw [hresult]
  exact hstops

end FirstCall

/-- `read_all` is a reader that asks for all that is missing. -/
theorem ended_readAll {ask : ℕ → ℕ} (fd : Descriptor) (size : ℕ) (taken : Bytes)
    (hask : ∀ count, taken.length ≤ count → count < taken.length + size →
      ask count = taken.length + size - count) :
    ∃ calls, Ended ask (taken.length + size) ⟨fd, taken⟩ calls (readAll fd size).1.isSome
        (readAll fd size).2 ∧
      ∀ bytes ∈ (readAll fd size).1, ((⟨fd, taken⟩ : Reader).after ask calls).taken =
        taken ++ bytes := by
  induction fd, size using readAll.induct generalizing taken with
  | case1 fd =>
    rw [readAll, dif_pos rfl]
    refine ⟨0, .done rfl, fun bytes hbytes ↦ ?_⟩
    obtain rfl := Option.some.inj hbytes
    simp [after]
  | case2 fd size hsize later hread ih =>
    obtain ⟨hresult, hnext⟩ := first_call hask hsize hread
    rw [ReadResult.bytes, List.append_nil] at hnext
    obtain ⟨calls, hended, hbytes⟩ := ih taken hask
    rw [readAll_interrupted hsize hread]
    refine ⟨calls + 1, .cons ?_ ?_ (hnext ▸ hended), ?_⟩
    · rw [hresult]
      trivial
    · have hpos := Descriptor.calm_pos_of_read hread
      rw [hnext, Descriptor.read_calm hread]
      exact Nat.add_lt_add_right (Nat.sub_lt hpos Nat.one_pos) _
    · rw [after, hnext]
      exact hbytes
  | case3 fd size hsize later hread =>
    rw [readAll_failed hsize hread]
    exact ⟨0, .stop_first hask hsize hread not_false, by simp⟩
  | case4 fd size hsize later hread =>
    rw [readAll_ended hsize hread]
    exact ⟨0, .stop_first hask hsize hread fun hpositive ↦ hpositive rfl, by simp⟩
  | case5 fd size hsize byte bytes later hread ih =>
    obtain ⟨hresult, hnext⟩ := first_call hask hsize hread
    rw [ReadResult.bytes] at hnext
    have hfits := (Descriptor.read_received hread).2
    rw [readAll_received hsize (List.cons_ne_nil byte bytes) hread, Option.isSome_map]
    generalize hfirst : byte :: bytes = first at *
    have hpositive : 0 < first.length := by rw [← hfirst]; exact Nat.succ_pos _
    have hgoal : (taken ++ first).length + (size - first.length) = taken.length + size := by
      rw [List.length_append]
      omega
    obtain ⟨calls, hended, hbytes⟩ := ih (taken ++ first) fun count hfrom hto ↦ by
      rw [hgoal] at hto ⊢
      rw [List.length_append] at hfrom
      exact hask count (by omega) hto
    rw [hgoal] at hended
    refine ⟨calls + 1, .cons ?_ ?_ (hnext ▸ hended), ?_⟩
    · rw [hresult, ← hfirst]
      exact List.cons_ne_nil byte bytes
    · rw [hnext, Descriptor.read_calm hread]
      dsimp only
      rw [List.length_append]
      omega
    · intro all hall
      obtain ⟨more, hmore, rfl⟩ := Option.map_eq_some_iff.mp hall
      rw [after, hnext, hbytes more hmore, List.append_assoc]

/-- A part of a loop that has succeeded, before the rest. -/
theorem Ended.append {ask : ℕ → ℕ} {part goal first calls : ℕ} {reader : Reader} {succeeded : Bool}
    {middle fd : Descriptor} (hpart : Ended ask part reader first true middle) (hgoal : part ≤ goal)
    (hrest : Ended ask goal (reader.after ask first) calls succeeded fd) :
    Ended ask goal reader (first + calls) succeeded fd where
  proceeds := proceeds_add hpart.proceeds hrest.proceeds
  calls_le := by
    have hfirst := hpart.calls_le
    have hcalls := hrest.calls_le
    have htaken := length_taken_after ask first reader
    rw [(hpart.of_true rfl).1] at hfirst hcalls htaken
    rw [after_add]
    omega
  of_true := by
    rw [after_add]
    exact hrest.of_true
  of_false := by
    rw [after_add]
    exact hrest.of_false

/-- A part of a loop that has failed is the end of the loop. -/
theorem Ended.widen {ask : ℕ → ℕ} {part goal calls : ℕ} {reader : Reader} {fd : Descriptor}
    (hpart : Ended ask part reader calls false fd) (hgoal : part ≤ goal) :
    Ended ask goal reader calls false fd where
  proceeds := hpart.proceeds
  calls_le := by
    have hcalls := hpart.calls_le
    have hshort := (hpart.of_false rfl).1
    have htaken := length_taken_after ask calls reader
    omega
  of_true := by simp
  of_false := fun _ ↦ by
    obtain ⟨hshort, hstops, hfd⟩ := hpart.of_false rfl
    exact ⟨by omega, hstops, hfd⟩

/-- The rule by which `discard_payload` asks: for what is missing of its next 32 bytes. -/
def askDiscard (size count : ℕ) : ℕ := min (32 - count % 32) (size - count)

/-- Inside a chunk that begins at a multiple of 32. -/
theorem askDiscard_chunk {goal start count : ℕ} {size : UInt32} (hgoal : goal = start + size.toNat)
    (haligned : start % 32 = 0) (hfrom : start ≤ count)
    (hto : count < start + (discardChunk size).toNat) :
    askDiscard goal count = start + (discardChunk size).toNat - count := by
  have hchunk : (discardChunk size).toNat = min size.toNat 32 := by
    unfold discardChunk
    split_ifs with hsmall
    · have hlt := UInt32.lt_iff_toNat_lt.mp hsmall
      exact (Nat.min_eq_left (Nat.le_of_lt hlt)).symm
    · have hle := UInt32.le_iff_toNat_le.mp (UInt32.not_lt.mp hsmall)
      exact (Nat.min_eq_right hle).symm
  rw [askDiscard]
  omega

/-- `discard_payload` is a reader that asks for what is missing of its next 32 bytes. -/
theorem ended_discardPayload {σ ε : Type} (state : σ) (goal : ℕ) (size : UInt32) (fd : Descriptor)
    (taken : Bytes) (hgoal : goal = taken.length + size.toNat)
    (haligned : size ≠ 0 → taken.length % 32 = 0) :
    ∃ calls, Ended (askDiscard goal) goal ⟨fd, taken⟩ calls
      (execute (discardPayload size : Prog σ ε Bool) state fd).value
      (execute (discardPayload size : Prog σ ε Bool) state fd).fd := by
  induction size using discardPayload.induct generalizing fd taken with
  | case1 =>
    rw [discardPayload, dif_pos rfl]
    exact ⟨0, .done (by rw [hgoal]; rfl)⟩
  | case2 size hsize ih =>
    have hle := UInt32.le_iff_toNat_le.mp (discardChunk_le size)
    have hpart : taken.length + (discardChunk size).toNat ≤ goal := by omega
    rw [discardPayload, dif_neg hsize, execute]
    obtain ⟨first, hended, hbytes⟩ := ended_readAll fd (discardChunk size).toNat taken
      fun count hfrom hto ↦ askDiscard_chunk hgoal (haligned hsize) hfrom hto
    cases hread : (readAll fd (discardChunk size).toNat).1 with
    | none =>
      rw [hread] at hended
      exact ⟨first, hended.widen hpart⟩
    | some bytes =>
      rw [hread] at hended
      obtain ⟨hlength, hmiddle⟩ := hended.of_true rfl
      have hnow := hbytes bytes hread
      rw [hnow] at hlength
      obtain ⟨calls, hrest⟩ := ih (readAll fd (discardChunk size).toNat).2 (taken ++ bytes)
        (by rw [hlength, toNat_sub_discardChunk]; omega) fun hmore ↦ by
          -- More is to come, so the chunk was a whole one.
          have hwhole : discardChunk size = 32 := by
            by_contra hlast
            unfold discardChunk at hlast hmore
            split_ifs at hlast hmore with hsmall
            · exact hmore (UInt32.sub_self size)
            · exact hlast rfl
          rw [hlength, hwhole]
          have hstart := haligned hsize
          show (taken.length + 32) % 32 = 0
          omega
      have hreader : (⟨fd, taken⟩ : Reader).after (askDiscard goal) first =
          ⟨(readAll fd (discardChunk size).toNat).2, taken ++ bytes⟩ := by
        rw [← hmiddle, ← hnow]
      exact ⟨first + calls, hended.append hpart (hreader ▸ hrest)⟩

end Reader

/-! ### `write_all` -/

/-- One write that wrote something wrote a part of the buffer. -/
theorem Descriptor.write_written {fd after : Descriptor} {bytes : Bytes} {count : ℕ}
    (hwrite : fd.write bytes = (.written (count + 1), after)) :
    after.sent = fd.sent ++ bytes.take (count + 1) ∧ count + 1 ≤ bytes.length := by
  unfold Descriptor.write at hwrite
  split at hwrite
  · cases hwrite
  · cases hwrite
  · cases hwrite
  · obtain ⟨hcount, rfl⟩ := Prod.mk.inj hwrite
    rw [← WriteResult.written.inj hcount]
    exact ⟨rfl, Nat.min_le_right _ _⟩

/-- One write that wrote nothing. -/
theorem Descriptor.write_nothing {fd after : Descriptor} {bytes : Bytes} {result : WriteResult}
    (hbytes : bytes.length ≠ 0) (hwrite : fd.write bytes = (result, after))
    (hnothing : ∀ count, result ≠ .written (count + 1)) : after.sent = fd.sent := by
  unfold Descriptor.write at hwrite
  split at hwrite
  · exact (Prod.mk.inj hwrite).2 ▸ rfl
  · exact (Prod.mk.inj hwrite).2 ▸ rfl
  · exact (Prod.mk.inj hwrite).2 ▸ rfl
  · rename_i count _
    have hpositive : min (count + 1) bytes.length = min (count + 1) bytes.length - 1 + 1 := by omega
    exact absurd ((Prod.mk.inj hwrite).1.symm.trans (congrArg _ hpositive)) (hnothing _)

/-- `write_all` writes a part of its buffer from the front, and the whole of it exactly when it
succeeds. -/
theorem writeAll_prefix (fd : Descriptor) (bytes : Bytes) :
    ∃ count, count ≤ bytes.length ∧
      (writeAll fd bytes).2.sent = fd.sent ++ bytes.take count ∧
      (count = bytes.length ↔ (writeAll fd bytes).1 = true) := by
  induction fd, bytes using writeAll.induct with
  | case1 fd bytes hbytes =>
    rw [writeAll, dif_pos hbytes]
    exact ⟨0, Nat.zero_le _, by simp, by simp [hbytes]⟩
  | case2 fd bytes hbytes after hwrite ih =>
    rw [writeAll_interrupted hbytes hwrite]
    rw [Descriptor.write_nothing hbytes hwrite (by simp)] at ih
    exact ih
  | case3 fd bytes hbytes after hwrite =>
    rw [writeAll_failed hbytes hwrite, Descriptor.write_nothing hbytes hwrite (by simp)]
    exact ⟨0, Nat.zero_le _, by simp, by simp; omega⟩
  | case4 fd bytes hbytes after hwrite =>
    rw [writeAll_ended hbytes hwrite, Descriptor.write_nothing hbytes hwrite (by simp)]
    exact ⟨0, Nat.zero_le _, by simp, by simp; omega⟩
  | case5 fd bytes hbytes count after hwrite ih =>
    obtain ⟨hsent, hfits⟩ := Descriptor.write_written hwrite
    obtain ⟨more, hmore, hall, hwhole⟩ := ih
    rw [writeAll_written hbytes hwrite]
    rw [List.length_drop] at hmore hwhole
    refine ⟨count + 1 + more, by omega, ?_, ?_⟩
    · rw [hall, hsent, List.append_assoc, ← List.take_add]
    · rw [← hwhole]
      omega

/-! ### All three loops -/

/-- Calls let a loop go on until they have brought the whole size. -/
def Brings (ask : ℕ → ℕ) (fd : Descriptor) (size : ℕ) : Prop :=
  ∃ calls, Reader.Proceeds ask calls ⟨fd, []⟩ ∧ Reader.sumOfCounts ask calls ⟨fd, []⟩ = size

/-- A loop ends: after so many calls that let it go on, it has its size or the next call stops it. -/
def Stops (ask : ℕ → ℕ) (fd : Descriptor) (size : ℕ) : Prop :=
  ∃ calls, calls ≤ fd.reads.calm + size ∧ Reader.Proceeds ask calls ⟨fd, []⟩ ∧
    (Reader.sumOfCounts ask calls ⟨fd, []⟩ = size ∨
      ¬ ((Reader.after ask calls ⟨fd, []⟩).result ask).Proceeds)

/-- What a loop that has ended has done. -/
theorem Reader.Ended.exact {ask : ℕ → ℕ} {size calls : ℕ} {fd after : Descriptor} {succeeded : Bool}
    (hended : Reader.Ended ask size ⟨fd, []⟩ calls succeeded after) :
    (succeeded = true ↔ Brings ask fd size) ∧ Stops ask fd size ∧
      ∃ count, count ≤ size ∧ after.incoming = fd.incoming.drop count ∧
        (count = size ↔ succeeded = true) := by
  refine ⟨hended.succeeded_iff rfl, ⟨calls, ?_, hended.proceeds, ?_⟩, hended.incoming rfl⟩
  · have hcalls := hended.calls_le
    simp only [List.length_nil, Nat.sub_zero] at hcalls
    omega
  · cases succeeded with
    | false => exact Or.inr (hended.of_false rfl).2.1
    | true =>
      have htaken := Reader.length_taken_after ask calls ⟨fd, []⟩
      rw [(hended.of_true rfl).1] at htaken
      exact Or.inl (by simpa using htaken.symm)

/-- The transfer loops are exact on every sequence of results. `read_all` succeeds exactly when calls
that are interrupted or bring bytes bring the whole size before the first other result; what it has
stored is then the next `size` bytes of the stream, and it never takes a byte beyond them.
`discard_payload` does the same for every size of 32 bits. `write_all` writes its buffer from the
front, and the whole of it exactly when it succeeds. The loops end on every sequence that has
finitely many interruptions, which is part of every descriptor here; those that read end after as
many calls as there are interruptions and bytes. -/
theorem transfers_exact {σ ε : Type} (state : σ) (fd : Descriptor) (size : ℕ) (payload : UInt32)
    (bytes : Bytes) :
    (((readAll fd size).1.isSome = true ↔ Brings (size - ·) fd size) ∧
      Stops (size - ·) fd size ∧
      (∀ stored ∈ (readAll fd size).1, stored = fd.incoming.take size ∧ stored.length = size) ∧
      ∃ count, count ≤ size ∧ (readAll fd size).2.incoming = fd.incoming.drop count ∧
        (count = size ↔ (readAll fd size).1.isSome = true)) ∧
    (((execute (discardPayload payload : Prog σ ε Bool) state fd).value = true ↔
        Brings (Reader.askDiscard payload.toNat) fd payload.toNat) ∧
      Stops (Reader.askDiscard payload.toNat) fd payload.toNat ∧
      ∃ count, count ≤ payload.toNat ∧
        (execute (discardPayload payload : Prog σ ε Bool) state fd).fd.incoming =
          fd.incoming.drop count ∧
        (count = payload.toNat ↔
          (execute (discardPayload payload : Prog σ ε Bool) state fd).value = true)) ∧
    ∃ count, count ≤ bytes.length ∧
      (writeAll fd bytes).2.sent = fd.sent ++ bytes.take count ∧
      (count = bytes.length ↔ (writeAll fd bytes).1 = true) := by
  refine ⟨?_, ?_, writeAll_prefix fd bytes⟩
  · obtain ⟨calls, hended, -⟩ := Reader.ended_readAll fd size [] fun count _ _ ↦ rfl
    rw [List.length_nil, Nat.zero_add] at hended
    obtain ⟨hbrings, hstops, htaken⟩ := hended.exact
    refine ⟨by simpa using hbrings, hstops, fun stored hstored ↦ ?_, by simpa using htaken⟩
    obtain ⟨hincoming, hlength⟩ := readAll_some fd size hstored
    exact ⟨by rw [hincoming, ← hlength, List.take_left], hlength⟩
  · obtain ⟨calls, hended⟩ := Reader.ended_discardPayload (ε := ε) state payload.toNat payload fd []
      (by simp) fun _ ↦ rfl
    exact hended.exact

end ZigbeeRemote.Rpc
