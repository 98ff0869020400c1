import ZigbeeRemote.Foundation.BufferWrites
import ZigbeeRemote.Rpc.WireSafe
import Mathlib.Data.List.OfFn

/-!
# The log of a frame

`dump` of `zb_rpc_shared/include/zb_rpc/reflection.hpp` prints every frame that is sent or received.
`dump_value` and `dump_array` walk over the type of the object and format it piece by piece into a
`DumpBuffer` of 384 bytes on the stack. `DumpBuffer::append` hands each piece to `snprintf` with the
room that is left.

`textOf` is what an object reads as when there is room for all of it. `dump_buffer_exact`: after any
pieces the buffer holds the beginning of their concatenation, as much of it as there is room for
before a final NUL, and nothing was written behind it; and the walk over an object of any type is a
sequence of pieces whose concatenation is `textOf` the object.
-/

set_option autoImplicit false
set_option relaxedAutoImplicit false

namespace ZigbeeRemote.Rpc.WireSafe

open Foundation

/-! ### The buffer -/

/-- A `DumpBuffer`: what was written to `data`, and `size`. -/
structure DumpBuffer where
  stores : List (Store UInt8) := []
  size : ℕ := 0

/-- `data`, which is all zero in the beginning. -/
def DumpBuffer.data (buffer : DumpBuffer) : Bytes := window (written (fun _ ↦ 0) buffer.stores) 384

/-- `snprintf` of a formatted text to an offset, with a number of bytes that it may use: what it
returns, and what it writes. -/
def snprintf (offset room : ℕ) (text : Bytes) : ℤ × List (Store UInt8) :=
  (text.length, if room = 0 then [] else storeAt offset (text.take (room - 1) ++ [0]))

/-- `DumpBuffer::append` of a format and values that are formatted to `piece`. -/
def DumpBuffer.append (buffer : DumpBuffer) (piece : Bytes) : DumpBuffer :=
  if buffer.size ≥ 384 - 1 then buffer
  else
    let result := snprintf buffer.size (384 - buffer.size) piece
    if result.1 > 0 then
      let size := buffer.size + result.1.toNat
      { stores := buffer.stores ++ result.2, size := if size ≥ 384 then 384 - 1 else size }
    else { buffer with stores := buffer.stores ++ result.2 }

/-- A sequence of `append` calls. -/
def DumpBuffer.appendAll (buffer : DumpBuffer) (pieces : List Bytes) : DumpBuffer :=
  pieces.foldl DumpBuffer.append buffer

/-- The buffer holds what there is room for of a text. -/
structure DumpBuffer.Holds (buffer : DumpBuffer) (text : Bytes) : Prop where
  size_eq : buffer.size = min text.length 383
  size_le : buffer.size ≤ 383
  content : buffer.data.take (buffer.size + 1) = text.take 383 ++ [0]
  within : Within 384 buffer.stores

/-- What `append` keeps: behind the text everything is still zero. -/
structure DumpBuffer.Filled (buffer : DumpBuffer) (text : Bytes) : Prop where
  size_eq : buffer.size = min text.length 383
  data_eq : buffer.data = text.take 383 ++ List.replicate (384 - buffer.size) 0
  within : Within 384 buffer.stores

theorem DumpBuffer.Filled.holds {buffer : DumpBuffer} {text : Bytes} (hfilled : buffer.Filled text) :
    buffer.Holds text := by
  have hsize := hfilled.size_eq
  have hlength : (text.take 383).length = buffer.size := by
    rw [List.length_take, hsize, Nat.min_comm]
  refine ⟨hsize, by omega, ?_, hfilled.within⟩
  rw [hfilled.data_eq, ← hlength, List.take_length_add_append, List.take_replicate, hlength]
  have hone : min 1 (384 - buffer.size) = 1 := by omega
  rw [hone]
  rfl

theorem DumpBuffer.filled_empty : DumpBuffer.Filled {} [] :=
  ⟨rfl, by decide +kernel, by simp [Within]⟩

/-- `append` while there is room. -/
theorem DumpBuffer.append_eq {buffer : DumpBuffer} (hroom : buffer.size < 383) (piece : Bytes) :
    buffer.append piece =
      { stores := buffer.stores ++ storeAt buffer.size (piece.take (383 - buffer.size) ++ [0])
        size := min (buffer.size + piece.length) 383 } := by
  have hnotFull : ¬ buffer.size ≥ 384 - 1 := by omega
  have hsome : ¬ 384 - buffer.size = 0 := by omega
  have hleft : 384 - buffer.size - 1 = 383 - buffer.size := by omega
  simp only [DumpBuffer.append, snprintf, if_neg hnotFull, if_neg hsome, hleft, Int.toNat_natCast]
  by_cases hpiece : piece.length = 0
  · have hzero : ¬ (piece.length : ℤ) > 0 := by omega
    rw [if_neg hzero, hpiece]
    congr 1
    omega
  · have hpositive : (piece.length : ℤ) > 0 := by omega
    rw [if_pos hpositive]
    congr 1
    split <;> omega

/-- One `append`. -/
theorem DumpBuffer.Filled.append {buffer : DumpBuffer} {text : Bytes} (hfilled : buffer.Filled text)
    (piece : Bytes) : (buffer.append piece).Filled (text ++ piece) := by
  have hsize := hfilled.size_eq
  by_cases hfull : buffer.size ≥ 384 - 1
  · have hlong : 383 ≤ text.length := by omega
    rw [DumpBuffer.append, if_pos hfull]
    refine ⟨?_, ?_, hfilled.within⟩
    · rw [List.length_append]
      omega
    · rw [List.take_append_of_le_length hlong]
      exact hfilled.data_eq
  have hroom : buffer.size < 383 := by omega
  have hshort : text.length = buffer.size := by omega
  rw [DumpBuffer.append_eq hroom]
  have hvalues : (piece.take (383 - buffer.size) ++ [(0 : UInt8)]).length =
      min (383 - buffer.size) piece.length + 1 := by
    rw [List.length_append, List.length_take, List.length_singleton]
  have hend : buffer.size + (piece.take (383 - buffer.size) ++ [(0 : UInt8)]).length ≤ 384 := by
    omega
  refine ⟨?_, ?_, within_append.mpr ⟨hfilled.within, within_storeAt hend⟩⟩
  · rw [List.length_append, hshort]
  · have hdata := hfilled.data_eq
    have htext : text.take 383 = text := List.take_of_length_le (by omega)
    rw [DumpBuffer.data, htext] at hdata
    rw [DumpBuffer.data, written_append, window_written_storeAt hend, hdata, hvalues]
    have hboth : (text ++ piece).take 383 = text ++ piece.take (383 - buffer.size) := by
      rw [List.take_append, htext, hshort]
    have hrest : (text ++ List.replicate (384 - buffer.size) (0 : UInt8)).drop
        (buffer.size + (min (383 - buffer.size) piece.length + 1)) =
          List.replicate (384 - min (buffer.size + piece.length) 383 - 1) 0 := by
      rw [← hshort, List.drop_append, List.drop_replicate,
        List.drop_of_length_le (by omega), List.nil_append]
      congr 1
      omega
    rw [hrest, hboth, ← hshort, List.take_left, hshort]
    have hzeros : List.replicate (384 - min (buffer.size + piece.length) 383) (0 : UInt8) =
        [0] ++ List.replicate (384 - min (buffer.size + piece.length) 383 - 1) 0 := by
      rw [List.singleton_append, ← List.replicate_succ]
      congr 1
      omega
    simp only [hzeros, List.append_assoc]

/-- A sequence of `append` calls. -/
theorem DumpBuffer.Filled.appendAll {buffer : DumpBuffer} {text : Bytes}
    (hfilled : buffer.Filled text) (pieces : List Bytes) :
    (buffer.appendAll pieces).Filled (text ++ pieces.flatten) := by
  induction pieces generalizing buffer text with
  | nil =>
    rw [List.flatten_nil, List.append_nil]
    exact hfilled
  | cons piece pieces ih =>
    rw [List.flatten_cons, ← List.append_assoc]
    exact ih (hfilled.append piece)

/-! ### Formats -/

/-- Plain characters of a format. -/
def literal (text : String) : Bytes := text.toList.map Char.toUInt8

/-- `%c`. -/
def formatChar (value : UInt8) : Bytes := [value]

/-- `%s`. -/
def formatString (text : Bytes) : Bytes := text.takeWhile (· ≠ 0)

/-- `%u`. -/
def formatUnsigned (value : ℕ) : Bytes := (Nat.toDigits 10 value).map Char.toUInt8

/-- `%04x` and `%08lx`, for the given width. -/
def formatHex (width value : ℕ) : Bytes :=
  let digits := (Nat.toDigits 16 value).map Char.toUInt8
  List.replicate (width - digits.length) '0'.toUInt8 ++ digits

/-! ### The walk over an object -/

mutual

/-- The values of a type. -/
def Object : CppType → Type
  | .leaf .uint8 => UInt8
  | .leaf .char => UInt8
  | .leaf .le16 => Le16
  | .leaf .le32 => Le32
  | .arrayType element extent => Fin extent → Object element
  | .classType _ parts => PartObjects parts
  | _ => Unit

def PartObjects : Parts → Type
  | .nil => Unit
  | .cons _ type rest => Object type × PartObjects rest

end

mutual

/-- What `std::meta::identifier_of` knows of a type: the names of its classes and of their parts. -/
def Identifiers : CppType → Type
  | .arrayType element _ => Identifiers element
  | .classType _ parts => Bytes × PartIdentifiers parts
  | _ => Unit

def PartIdentifiers : Parts → Type
  | .nil => Unit
  | .cons _ type rest => Bytes × Identifiers type × PartIdentifiers rest

end

/-- The elements of an array, if they are of type `char`. -/
def chars? : (element : CppType) → List (Object element) → Option Bytes
  | .leaf .char, values => some values
  | _, _ => none

/-- The loop of `dump_array` over a `char` array, up to the first NUL. -/
def dumpChars : Bytes → DumpBuffer → DumpBuffer
  | [], buffer => buffer
  | value :: values, buffer =>
    if value ≠ 0 then dumpChars values (buffer.append (formatChar value)) else buffer

/-- The loop of `dump_array` over another array, from element `i` on. -/
def dumpElements {α : Type} (dumpValue : α → DumpBuffer → DumpBuffer) :
    ℕ → List α → DumpBuffer → DumpBuffer
  | _, [], buffer => buffer
  | i, value :: values, buffer =>
    let buffer := if i ≠ 0 then buffer.append (literal ", ") else buffer
    dumpElements dumpValue (i + 1) values (dumpValue value buffer)

/-- `dump_array`. -/
def dumpArray (element : CppType) (dumpValue : Object element → DumpBuffer → DumpBuffer)
    (values : List (Object element)) (buffer : DumpBuffer) : DumpBuffer :=
  match chars? element values with
  | some values => (dumpChars values (buffer.append (literal "\""))).append (literal "\"")
  | none => (dumpElements dumpValue 0 values (buffer.append (literal "["))).append (literal "]")

mutual

/-- `dump_value`. -/
def dumpValue : (type : CppType) → Identifiers type → Object type → DumpBuffer → DumpBuffer
  | .emptyReq, _, _, buffer => buffer.append (literal "\x7b\x7d")
  | .leaf .le32, _, value, buffer =>
    buffer.append (literal "0x" ++ formatHex 8 (fromLe32 value).toNat)
  | .leaf .le16, _, value, buffer =>
    buffer.append (literal "0x" ++ formatHex 4 (fromLe16 value).toNat)
  | .leaf .uint8, _, value, buffer => buffer.append (formatUnsigned (UInt8.toNat value))
  | .leaf .char, _, value, buffer =>
    buffer.append (literal "'" ++ formatChar value ++ literal "'")
  | .arrayType element _, identifiers, values, buffer =>
    dumpArray element (dumpValue element identifiers) (List.ofFn values) buffer
  | .classType _ parts, identifiers, value, buffer =>
    let buffer := buffer.append (formatString identifiers.1 ++ literal " \x7b ")
    (dumpMembers parts identifiers.2 value true buffer).append (literal " \x7d")
  | .void, _, _, buffer => buffer
  | .host _, _, _, buffer => buffer
  | .pointer, _, _, buffer => buffer
  | .unionType _, _, _, buffer => buffer

/-- The loop of `dump_value` over the members of a class, those that the check sees. -/
def dumpMembers : (parts : Parts) → PartIdentifiers parts → PartObjects parts → Bool →
    DumpBuffer → DumpBuffer
  | .nil, _, _, _, buffer => buffer
  | .cons (.member true _) type rest, identifiers, objects, first, buffer =>
    let buffer := if !first then buffer.append (literal ", ") else buffer
    let buffer := buffer.append (formatString identifiers.1 ++ literal "=")
    dumpMembers rest identifiers.2.2 objects.2 false
      (dumpValue type identifiers.2.1 objects.1 buffer)
  | .cons (.member false _) _ rest, identifiers, objects, first, buffer =>
    dumpMembers rest identifiers.2.2 objects.2 first buffer
  | .cons .base _ rest, identifiers, objects, first, buffer =>
    dumpMembers rest identifiers.2.2 objects.2 first buffer
  | .cons (.unnamed _) _ rest, identifiers, objects, first, buffer =>
    dumpMembers rest identifiers.2.2 objects.2 first buffer

end

/-! ### What an object reads as -/

/-- Texts with commas between them. -/
def separated : List Bytes → Bytes
  | [] => []
  | text :: texts => text ++ (texts.map (literal ", " ++ ·)).flatten

/-- The text of an array, given that of its elements. -/
def textOfArray (element : CppType) (textOf : Object element → Bytes)
    (values : List (Object element)) : Bytes :=
  match chars? element values with
  | some values => literal "\"" ++ values.takeWhile (· ≠ 0) ++ literal "\""
  | none => literal "[" ++ separated (values.map textOf) ++ literal "]"

mutual

/-- The text of an object. -/
def textOf : (type : CppType) → Identifiers type → Object type → Bytes
  | .emptyReq, _, _ => literal "\x7b\x7d"
  | .leaf .le32, _, value => literal "0x" ++ formatHex 8 (fromLe32 value).toNat
  | .leaf .le16, _, value => literal "0x" ++ formatHex 4 (fromLe16 value).toNat
  | .leaf .uint8, _, value => formatUnsigned (UInt8.toNat value)
  | .leaf .char, _, value => literal "'" ++ formatChar value ++ literal "'"
  | .arrayType element _, identifiers, values =>
    textOfArray element (textOf element identifiers) (List.ofFn values)
  | .classType _ parts, identifiers, value =>
    formatString identifiers.1 ++ literal " \x7b " ++
      separated (textOfMembers parts identifiers.2 value) ++ literal " \x7d"
  | .void, _, _ => []
  | .host _, _, _ => []
  | .pointer, _, _ => []
  | .unionType _, _, _ => []

/-- The texts of the members of a class. -/
def textOfMembers : (parts : Parts) → PartIdentifiers parts → PartObjects parts → List Bytes
  | .nil, _, _ => []
  | .cons (.member true _) type rest, identifiers, objects =>
    (formatString identifiers.1 ++ literal "=" ++ textOf type identifiers.2.1 objects.1) ::
      textOfMembers rest identifiers.2.2 objects.2
  | .cons (.member false _) _ rest, identifiers, objects =>
    textOfMembers rest identifiers.2.2 objects.2
  | .cons .base _ rest, identifiers, objects => textOfMembers rest identifiers.2.2 objects.2
  | .cons (.unnamed _) _ rest, identifiers, objects =>
    textOfMembers rest identifiers.2.2 objects.2

end

/-- A function on buffers is a sequence of `append` calls, with pieces that make up a text. -/
def Appends (run : DumpBuffer → DumpBuffer) (text : Bytes) : Prop :=
  ∃ pieces : List Bytes, pieces.flatten = text ∧ ∀ buffer, run buffer = buffer.appendAll pieces

section Appends

variable {first second : DumpBuffer → DumpBuffer} {firstText secondText : Bytes}

theorem appends_none : Appends (fun buffer ↦ buffer) [] := ⟨[], rfl, fun _ ↦ rfl⟩

theorem appends_append (piece : Bytes) : Appends (fun buffer ↦ buffer.append piece) piece :=
  ⟨[piece], by simp, fun _ ↦ rfl⟩

theorem Appends.comp (hsecond : Appends second secondText) (hfirst : Appends first firstText) :
    Appends (fun buffer ↦ second (first buffer)) (firstText ++ secondText) := by
  obtain ⟨firstPieces, hfirstText, hfirstRun⟩ := hfirst
  obtain ⟨secondPieces, hsecondText, hsecondRun⟩ := hsecond
  refine ⟨firstPieces ++ secondPieces, ?_, fun buffer ↦ ?_⟩
  · rw [List.flatten_append, hfirstText, hsecondText]
  · show second (first buffer) = _
    rw [hsecondRun, hfirstRun, DumpBuffer.appendAll, DumpBuffer.appendAll, DumpBuffer.appendAll,
      List.foldl_append]

theorem appends_dumpChars (values : Bytes) :
    Appends (dumpChars values) (values.takeWhile (· ≠ 0)) := by
  induction values with
  | nil => exact appends_none
  | cons value values ih =>
    by_cases hvalue : value = 0
    · simp only [dumpChars, hvalue, ne_eq, not_true_eq_false, if_false, decide_false,
        List.takeWhile_cons_of_neg, Bool.false_eq_true, not_false_eq_true]
      exact appends_none
    · have htake : (value :: values).takeWhile (· ≠ 0) =
          formatChar value ++ values.takeWhile (· ≠ 0) := by
        rw [List.takeWhile_cons_of_pos (by simpa using hvalue)]
        rfl
      rw [htake]
      simp only [dumpChars, ne_eq, hvalue, not_false_eq_true, if_true]
      exact ih.comp (appends_append _)

/-- The loop over an array behind its first element. -/
theorem appends_dumpElements_succ {α : Type} {dump : α → DumpBuffer → DumpBuffer} {text : α → Bytes}
    (hdump : ∀ value, Appends (dump value) (text value)) (i : ℕ) (values : List α) :
    Appends (dumpElements dump (i + 1) values)
      ((values.map text).map (literal ", " ++ ·)).flatten := by
  induction values generalizing i with
  | nil => exact appends_none
  | cons value values ih =>
    have hrest := (ih (i + 1)).comp ((hdump value).comp (appends_append (literal ", ")))
    simp only [List.map_cons, List.flatten_cons, dumpElements, ne_eq, Nat.add_eq_zero_iff,
      one_ne_zero, and_false, not_false_eq_true, if_true]
    exact hrest

theorem appends_dumpElements {α : Type} {dump : α → DumpBuffer → DumpBuffer} {text : α → Bytes}
    (hdump : ∀ value, Appends (dump value) (text value)) (values : List α) :
    Appends (dumpElements dump 0 values) (separated (values.map text)) := by
  cases values with
  | nil => exact appends_none
  | cons value values => exact (appends_dumpElements_succ hdump 0 values).comp (hdump value)

theorem appends_dumpArray {element : CppType} {dump : Object element → DumpBuffer → DumpBuffer}
    {text : Object element → Bytes} (hdump : ∀ value, Appends (dump value) (text value))
    (values : List (Object element)) :
    Appends (dumpArray element dump values) (textOfArray element text values) := by
  unfold dumpArray textOfArray
  cases chars? element values with
  | some characters =>
    rw [List.append_assoc]
    exact ((appends_append _).comp (appends_dumpChars characters)).comp (appends_append _)
  | none =>
    rw [List.append_assoc]
    exact ((appends_append _).comp (appends_dumpElements hdump values)).comp (appends_append _)

end Appends

mutual

/-- `dump_value` on an object of any type. -/
theorem appends_dumpValue : ∀ (type : CppType) (identifiers : Identifiers type)
    (value : Object type), Appends (dumpValue type identifiers value) (textOf type identifiers value)
  | .emptyReq, _, _ => appends_append _
  | .leaf .le32, _, _ => appends_append _
  | .leaf .le16, _, _ => appends_append _
  | .leaf .uint8, _, _ => appends_append _
  | .leaf .char, _, _ => appends_append _
  | .arrayType element _, identifiers, values =>
    appends_dumpArray (appends_dumpValue element identifiers) (List.ofFn values)
  | .classType _ parts, identifiers, value => by
    have hmembers := appends_dumpMembers parts identifiers.2 value true
    have hall := ((appends_append (literal " \x7d")).comp hmembers).comp
      (appends_append (formatString identifiers.1 ++ literal " \x7b "))
    rw [textOf, List.append_assoc]
    exact hall
  | .void, _, _ => appends_none
  | .host _, _, _ => appends_none
  | .pointer, _, _ => appends_none
  | .unionType _, _, _ => appends_none

/-- The loop over the members, before the first one that is printed and behind it. -/
theorem appends_dumpMembers : ∀ (parts : Parts) (identifiers : PartIdentifiers parts)
    (objects : PartObjects parts) (first : Bool),
    Appends (dumpMembers parts identifiers objects first)
      (if first then separated (textOfMembers parts identifiers objects)
      else ((textOfMembers parts identifiers objects).map (literal ", " ++ ·)).flatten)
  | .nil, _, _, true => appends_none
  | .nil, _, _, false => appends_none
  | .cons (.member true _) type rest, identifiers, objects, true => by
    have hvalue := (appends_dumpValue type identifiers.2.1 objects.1).comp
      (appends_append (formatString identifiers.1 ++ literal "="))
    exact (appends_dumpMembers rest identifiers.2.2 objects.2 false).comp hvalue
  | .cons (.member true _) type rest, identifiers, objects, false => by
    have hvalue := (appends_dumpValue type identifiers.2.1 objects.1).comp
      (appends_append (formatString identifiers.1 ++ literal "="))
    have hcomma := hvalue.comp (appends_append (literal ", "))
    exact (appends_dumpMembers rest identifiers.2.2 objects.2 false).comp hcomma
  | .cons (.member false _) _ rest, identifiers, objects, first =>
    appends_dumpMembers rest identifiers.2.2 objects.2 first
  | .cons .base _ rest, identifiers, objects, first =>
    appends_dumpMembers rest identifiers.2.2 objects.2 first
  | .cons (.unnamed _) _ rest, identifiers, objects, first =>
    appends_dumpMembers rest identifiers.2.2 objects.2 first

end

/-- The log buffer holds the truncated text. After any sequence of `append` calls it holds the first
383 characters of all pieces together, or all of them, and a NUL behind them; nothing is written
outside its 384 bytes. What `dump_value` does with an object of any type is such a sequence, at
whatever point of one it begins, and its pieces together are the text of the object. -/
theorem dump_buffer_exact :
    (∀ pieces : List Bytes, (DumpBuffer.appendAll {} pieces).Holds pieces.flatten) ∧
      ∀ (type : CppType) (identifiers : Identifiers type) (value : Object type),
        ∃ dumped : List Bytes, dumped.flatten = textOf type identifiers value ∧
          ∀ pieces : List Bytes,
            dumpValue type identifiers value (DumpBuffer.appendAll {} pieces) =
              DumpBuffer.appendAll {} (pieces ++ dumped) := by
  constructor
  · intro pieces
    exact (DumpBuffer.filled_empty.appendAll pieces).holds
  · intro type identifiers value
    obtain ⟨dumped, htext, hrun⟩ := appends_dumpValue type identifiers value
    refine ⟨dumped, htext, fun pieces ↦ ?_⟩
    rw [hrun, DumpBuffer.appendAll, DumpBuffer.appendAll, DumpBuffer.appendAll, List.foldl_append]

end ZigbeeRemote.Rpc.WireSafe
