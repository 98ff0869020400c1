import Mathlib.Data.List.Basic
import Mathlib.Logic.Function.Basic

/-!
# Writes to a buffer

A program that fills a buffer writes cells at offsets from its start. `Store` is one such write,
`storeAt` a whole block of them, and `written` the memory they leave behind. The offsets have no
bound: memory goes on behind the buffer, and a write there is a write outside of it. `Within` says
that there is none, and `window` is what the buffer holds.

`window_written_storeAt` is the rule for a block: it replaces the part of the window it covers.
-/

set_option autoImplicit false
set_option relaxedAutoImplicit false

namespace ZigbeeRemote.Foundation

section BufferWrites

variable {α : Type}

/-- A write of one cell, at an offset from the start of a buffer. -/
structure Store (α : Type) where
  offset : ℕ
  value : α
  deriving DecidableEq

/-- The writes of a block, from an offset on. -/
def storeAt : ℕ → List α → List (Store α)
  | _, [] => []
  | offset, value :: values => ⟨offset, value⟩ :: storeAt (offset + 1) values

/-- Memory after writes. -/
def written (cells : ℕ → α) : List (Store α) → ℕ → α
  | [] => cells
  | store :: stores => written (Function.update cells store.offset store.value) stores

/-- The first cells of a buffer. -/
def window (cells : ℕ → α) (size : ℕ) : List α := (List.range size).map cells

/-- No write is outside the first cells of a buffer. -/
def Within (size : ℕ) (stores : List (Store α)) : Prop := ∀ store ∈ stores, store.offset < size

instance (size : ℕ) (stores : List (Store α)) : Decidable (Within size stores) :=
  inferInstanceAs (Decidable (∀ store ∈ stores, store.offset < size))

variable {cells : ℕ → α} {size offset : ℕ} {values : List α} {first second : List (Store α)}

@[simp] theorem length_window : (window cells size).length = size := by simp [window]

theorem written_append : written cells (first ++ second) = written (written cells first) second := by
  induction first generalizing cells with
  | nil => rfl
  | cons store stores ih => exact ih

theorem within_append : Within size (first ++ second) ↔ Within size first ∧ Within size second := by
  simp only [Within, List.mem_append, or_imp, forall_and]

/-- A block is inside a buffer if its end is. -/
theorem within_storeAt (hend : offset + values.length ≤ size) : Within size (storeAt offset values) := by
  induction values generalizing offset with
  | nil => simp [storeAt, Within]
  | cons value values ih =>
    rw [List.length_cons] at hend
    intro store hstore
    rcases List.mem_cons.mp hstore with rfl | hlater
    · show offset < size
      omega
    · exact ih (by omega) store hlater

/-- A cell after the writes of a block. -/
theorem written_storeAt (i : ℕ) :
    written cells (storeAt offset values) i =
      if offset ≤ i then (values[i - offset]?).getD (cells i) else cells i := by
  induction values generalizing cells offset with
  | nil => simp [storeAt, written]
  | cons value values ih =>
    rw [storeAt, written, ih]
    rcases Nat.lt_trichotomy i offset with hbefore | rfl | hafter
    · rw [if_neg (by omega), if_neg (by omega), Function.update_of_ne (Nat.ne_of_lt hbefore)]
    · rw [if_neg (by omega), if_pos (Nat.le_refl i), Function.update_self, Nat.sub_self]
      rfl
    · have hindex : i - offset = (i - (offset + 1)) + 1 := by omega
      rw [if_pos (by omega), if_pos (by omega), Function.update_of_ne (Nat.ne_of_gt hafter), hindex,
        List.getElem?_cons_succ]

/-- A block replaces the part of the buffer that it covers. -/
theorem window_written_storeAt (hend : offset + values.length ≤ size) :
    window (written cells (storeAt offset values)) size =
      (window cells size).take offset ++ values ++
        (window cells size).drop (offset + values.length) := by
  apply List.ext_getElem?
  intro i
  simp only [window, List.getElem?_append, List.getElem?_take, List.getElem?_drop, List.getElem?_map,
    List.length_append, List.length_take, List.length_map, List.length_range]
  have hstart : min offset size = offset := by omega
  rw [hstart]
  rcases Nat.lt_or_ge i offset with hbefore | hafter
  · have hi : i < size := by omega
    rw [if_pos (by omega), if_pos hbefore, if_pos hbefore, List.getElem?_range hi]
    simp [written_storeAt, Nat.not_le.mpr hbefore]
  rcases Nat.lt_or_ge i (offset + values.length) with hcovered | hrest
  · have hi : i < size := by omega
    have hindex : i - offset < values.length := by omega
    rw [if_pos hcovered, if_neg (by omega), List.getElem?_range hi,
      List.getElem?_eq_getElem hindex]
    simp [written_storeAt, hafter, List.getElem?_eq_getElem hindex]
  · have hnone : values[i - offset]? = none := List.getElem?_eq_none (by omega)
    have hindex : offset + values.length + (i - (offset + values.length)) = i := by omega
    rw [if_neg (by omega), hindex]
    cases hi : (List.range size)[i]? with
    | none => rfl
    | some j =>
      obtain ⟨hsize, hj⟩ := List.getElem?_eq_some_iff.mp hi
      rw [List.getElem_range] at hj
      simp [written_storeAt, ← hj, hnone]

/-- A block at the end of a buffer of which only the first part counts. -/
theorem window_written_storeAt_end :
    window (written cells (storeAt offset values)) (offset + values.length) =
      window cells offset ++ values := by
  rw [window_written_storeAt (Nat.le_refl _), List.drop_of_length_le (by simp), List.append_nil]
  congr 1
  simp [window, ← List.map_take, List.take_range]

end BufferWrites

end ZigbeeRemote.Foundation
