import Mathlib.Data.List.TakeWhile

/-!
# Texts of the amalgamation script

`zb_rpc_client/generate_single_file.py` reads source files, renames a few identifiers, replaces a
`#pragma once` by an include guard and looks for include lines. This module has what it does to one
text: the regular expressions, `str.splitlines` and the way Python reads a file; and what makes a line
of a C++ source, which is not quite what `str.splitlines` takes for one.

A text is a list of code points. Bytes that are not UTF-8 are read as lone surrogates, which cannot
be written again: `isEncodable`.
-/

set_option autoImplicit false
set_option relaxedAutoImplicit false

namespace ZigbeeRemote.Client.SingleFile

/-- A Unicode code point, by its number. -/
abbrev CodePoint := ℕ

/-- A Python `str`. -/
abbrev Text := List CodePoint

/-- A string literal. -/
def str (literal : String) : Text := literal.toList.map Char.toNat

def newline : CodePoint := 0x0A

/-- `write_text` can encode the text: there is no surrogate in it. -/
def isEncodable (text : Text) : Bool := text.all fun c ↦ c < 0xD800 || 0xDFFF < c

/-! ### Lines -/

/-- Universal newlines, as `read_text` translates them. The flag says that the last character was a
carriage return. -/
def universalNewlines : Bool → Text → Text
  | _, [] => []
  | afterReturn, c :: rest =>
    if c = 0x0D then newline :: universalNewlines true rest
    else if afterReturn && c = newline then universalNewlines false rest
    else c :: universalNewlines false rest

/-- The characters that end a line for `str.splitlines`. -/
def isLineBreak (c : CodePoint) : Bool :=
  c ∈ ([0x0A, 0x0B, 0x0C, 0x0D, 0x1C, 0x1D, 0x1E, 0x85, 0x2028, 0x2029] : List CodePoint)

/-- `splitlines(keepends=True)`, for a text without carriage returns. -/
def splitLines : Text → List Text
  | [] => []
  | c :: rest =>
    if isLineBreak c then [c] :: splitLines rest
    else
      match splitLines rest with
      | [] => [[c]]
      | line :: lines => (c :: line) :: lines

/-- A line without its line break. -/
def bare (line : Text) : Text := line.takeWhile (!isLineBreak ·)

/-! ### Regular expressions -/

/-- `[ \t]`. -/
def isBlank (c : CodePoint) : Bool := c = 0x20 || c = 0x09

/-- The rest of a text that starts with a literal. -/
def afterLiteral (literal text : Text) : Option Text :=
  if literal.isPrefixOf text then some (text.drop literal.length) else none

/-- `INCLUDE_RE.match(line)`: the name in the include line. -/
def includeRe (line : Text) : Option Text :=
  (afterLiteral (str "#") (line.dropWhile isBlank)).bind fun rest ↦
    (afterLiteral (str "include") (rest.dropWhile isBlank)).bind fun rest ↦
      match rest.dropWhile isBlank with
      | [] => none
      | opening :: rest =>
        let name := rest.takeWhile fun c ↦ !(str ">\"").contains c
        if (str "<\"").contains opening && name ≠ [] && rest.drop name.length ≠ [] then some name
        else none

/-- `PRAGMA_ONCE_RE` on what is between two newlines, which is where its `^` and `$` match. -/
def isPragmaOnce (line : Text) : Bool :=
  ((afterLiteral (str "#") (line.dropWhile isBlank)).bind fun rest ↦
    (afterLiteral (str "pragma") (rest.dropWhile isBlank)).bind fun rest ↦
      if rest.head?.any isBlank then afterLiteral (str "once") (rest.dropWhile isBlank)
      else none).any fun rest ↦ rest.all isBlank

/-- `PRAGMA_ONCE_RE.search(text)`: what is between newlines before the first match and behind it. -/
def splitAtOnce (text : Text) : Option (List Text × List Text) :=
  let parts := text.splitOn newline
  match parts.dropWhile (!isPragmaOnce ·) with
  | [] => none
  | _ :: after => some (parts.takeWhile (!isPragmaOnce ·), after)

/-- The text between newlines, put together again. -/
def joinNewlines (parts : List Text) : Text := List.intercalate [newline] parts

/-- `re.sub(r"\b" + re.escape(old) + r"\b", new, text)` for a word `old`. The first argument is how
many characters of a match are still to be skipped, the second whether the character before is part
of a word. -/
def replaceWord (isWord : CodePoint → Bool) (old new : Text) : ℕ → Bool → Text → Text
  | _, _, [] => []
  | skip + 1, _, c :: rest => replaceWord isWord old new skip (isWord c) rest
  | 0, inWord, c :: rest =>
    if !inWord && old.isPrefixOf (c :: rest) && !((c :: rest).drop old.length).head?.any isWord then
      new ++ replaceWord isWord old new (old.length - 1) (isWord c) rest
    else c :: replaceWord isWord old new 0 (isWord c) rest

/-! ### Lines of a C++ source -/

def backslash : CodePoint := 0x5C

def endsNewline (text : Text) : Bool := text.getLast? = some newline

def startsWithNewline (text : Text) : Bool := text.head? = some newline

/-- A line without its newline. -/
def unended (line : Text) : Text := if endsNewline line then line.dropLast else line

/-- White space inside a line. -/
def isSpace (c : CodePoint) : Bool := c ∈ ([0x09, 0x0B, 0x0C, 0x20] : List CodePoint)

/-- There is a backslash before the newline at the end, with white space between them at most: the
newline is spliced away. The backslash may also wait for a newline that is still to come. -/
def backslashed (line : Text) : Bool :=
  ((unended line).reverse.dropWhile isSpace).head? = some backslash

/-- The text ends a line of the source, and its newline is not spliced away. -/
def closes (text : Text) : Bool := endsNewline text && !backslashed text

/-- The text ends in a backslash, and has no newline behind it. -/
def dangling (text : Text) : Bool := !endsNewline text && backslashed text

/-! ### Lines of texts -/

/-- What comes behind the text starts a line. -/
def endsLine (text : Text) : Bool := text.getLast?.all isLineBreak

section SplitLines

variable {text rest line : Text} {c : CodePoint}

theorem splitLines_cons_of_break (hc : isLineBreak c = true) :
    splitLines (c :: text) = [c] :: splitLines text := by
  rw [splitLines, if_pos hc]

theorem splitLines_ne_nil (htext : text ≠ []) : splitLines text ≠ [] := by
  cases text with
  | nil => exact absurd rfl htext
  | cons c text =>
    rw [splitLines]
    split
    · simp
    · split <;> simp

/-- A character that does not end a line is part of the next line. -/
theorem splitLines_cons_of_not_break (hc : isLineBreak c = false) :
    splitLines (c :: text) =
      (c :: (splitLines text).headD []) :: (splitLines text).tail := by
  rw [splitLines, hc]
  cases splitLines text with
  | nil => rfl
  | cons line lines => rfl

theorem endsLine_cons (htext : text ≠ []) : endsLine (c :: text) = endsLine text := by
  obtain ⟨d, text, rfl⟩ := List.exists_cons_of_ne_nil htext
  rw [endsLine, endsLine, List.getLast?_cons_cons]

/-- A text whose last line has ended, and what comes behind it. -/
theorem splitLines_append (htext : endsLine text = true) :
    splitLines (text ++ rest) = splitLines text ++ splitLines rest := by
  induction text with
  | nil => rfl
  | cons c text ih =>
    by_cases hnil : text = []
    · subst hnil
      have hc : isLineBreak c = true := by simpa [endsLine] using htext
      rw [List.singleton_append, splitLines_cons_of_break hc, splitLines_cons_of_break hc]
      rfl
    rw [endsLine_cons hnil] at htext
    rw [List.cons_append]
    by_cases hc : isLineBreak c = true
    · rw [splitLines_cons_of_break hc, splitLines_cons_of_break hc, ih htext, List.cons_append]
    · have hc' := Bool.not_eq_true _ ▸ hc
      obtain ⟨line, lines, hlines⟩ := List.exists_cons_of_ne_nil (splitLines_ne_nil hnil)
      rw [splitLines_cons_of_not_break hc', splitLines_cons_of_not_break hc', ih htext, hlines]
      rfl

/-- A text whose last line has not ended, and the end of that line. -/
theorem splitLines_concat (htext : endsLine text = false) (hc : isLineBreak c = true) :
    ∃ lines last, splitLines text = lines ++ [last] ∧ (∀ d ∈ last, isLineBreak d = false) ∧
      splitLines (text ++ [c]) = lines ++ [last ++ [c]] := by
  induction text with
  | nil => simp [endsLine] at htext
  | cons d text ih =>
    by_cases hnil : text = []
    · subst hnil
      have hd : isLineBreak d = false := by simpa [endsLine] using htext
      refine ⟨[], [d], ?_, by simpa using hd, ?_⟩
      · rw [splitLines_cons_of_not_break hd]
        rfl
      · rw [List.singleton_append, splitLines_cons_of_not_break hd, splitLines_cons_of_break hc]
        rfl
    rw [endsLine_cons hnil] at htext
    obtain ⟨lines, last, hlines, hlast, hmore⟩ := ih htext
    rw [List.cons_append]
    by_cases hd : isLineBreak d = true
    · refine ⟨[d] :: lines, last, ?_, hlast, ?_⟩
      · rw [splitLines_cons_of_break hd, hlines, List.cons_append]
      · rw [splitLines_cons_of_break hd, hmore, List.cons_append]
    · have hd' := Bool.not_eq_true _ ▸ hd
      cases lines with
      | nil =>
        refine ⟨[], d :: last, ?_, List.forall_mem_cons.mpr ⟨hd', hlast⟩, ?_⟩
        · rw [splitLines_cons_of_not_break hd', hlines]
          rfl
        · rw [splitLines_cons_of_not_break hd', hmore]
          rfl
      | cons line lines =>
        refine ⟨(d :: line) :: lines, last, ?_, hlast, ?_⟩
        · rw [splitLines_cons_of_not_break hd', hlines]
          rfl
        · rw [splitLines_cons_of_not_break hd', hmore]
          rfl

/-- Lines are not empty, and only the last one may have no line break. -/
theorem line_of_splitLines {i : ℕ} (hline : (splitLines text)[i]? = some line) :
    line ≠ [] ∧ (endsLine line = false → i + 1 = (splitLines text).length ∧ endsLine text = false) := by
  induction text generalizing i line with
  | nil => simp [splitLines] at hline
  | cons c text ih =>
    by_cases hc : isLineBreak c = true
    · rw [splitLines_cons_of_break hc] at hline ⊢
      cases i with
      | zero =>
        obtain rfl : [c] = line := by simpa using hline
        exact ⟨by simp, fun hline ↦ absurd hc (by simpa [endsLine] using hline)⟩
      | succ i =>
        rw [List.getElem?_cons_succ] at hline
        obtain ⟨hne, hlast⟩ := ih hline
        refine ⟨hne, fun hopen ↦ ?_⟩
        obtain ⟨hlength, htext⟩ := hlast hopen
        have hnil : text ≠ [] := by rintro rfl; simp [splitLines] at hline
        exact ⟨by rw [List.length_cons, hlength], by rw [endsLine_cons hnil]; exact htext⟩
    · have hc' := Bool.not_eq_true _ ▸ hc
      rw [splitLines_cons_of_not_break hc'] at hline ⊢
      cases hlines : splitLines text with
      | nil =>
        have hnil : text = [] := by
          by_contra hnil
          exact splitLines_ne_nil hnil hlines
        subst hnil
        cases i with
        | zero =>
          obtain rfl : [c] = line := by simpa [splitLines] using hline
          exact ⟨by simp, fun _ ↦ ⟨rfl, by simpa [endsLine] using hc'⟩⟩
        | succ i => simp [splitLines] at hline
      | cons first lines =>
        have hnil : text ≠ [] := by rintro rfl; simp [splitLines] at hlines
        rw [hlines, List.headD_cons, List.tail_cons] at hline
        rw [hlines] at ih
        rw [endsLine_cons hnil, List.headD_cons, List.tail_cons, List.length_cons]
        cases i with
        | zero =>
          obtain rfl : c :: first = line := by simpa using hline
          obtain ⟨hne, hlast⟩ := ih (rfl : (first :: lines)[0]? = some first)
          refine ⟨by simp, fun hopen ↦ ?_⟩
          rw [endsLine_cons hne] at hopen
          exact hlast hopen
        | succ i =>
          rw [List.getElem?_cons_succ] at hline
          exact ih (hline : (first :: lines)[i + 1]? = some line)

end SplitLines

/-! ### Texts inside a line -/

/-- The text is inside a line. -/
def NoBreak (text : Text) : Prop := ∀ c ∈ text, isLineBreak c = false

instance (text : Text) : Decidable (NoBreak text) :=
  inferInstanceAs (Decidable (∀ c ∈ text, isLineBreak c = false))

section NoBreak

variable {text rest literal line : Text} {c : CodePoint}

theorem isBlank_of_break (hc : isLineBreak c = true) : isBlank c = false := by
  simp only [isLineBreak, decide_eq_true_eq, List.mem_cons, List.not_mem_nil, or_false] at hc
  rcases hc with rfl | rfl | rfl | rfl | rfl | rfl | rfl | rfl | rfl | rfl <;> rfl

theorem NoBreak.append (htext : NoBreak text) (hrest : NoBreak rest) : NoBreak (text ++ rest) :=
  fun c hc ↦ (List.mem_append.mp hc).elim (htext c) (hrest c)

theorem noBreak_of_blank (hblank : text.all isBlank = true) : NoBreak text := by
  intro c hc
  by_contra hbreak
  have hnot := isBlank_of_break (Bool.not_eq_false _ ▸ hbreak)
  rw [List.all_eq_true.mp hblank c hc] at hnot
  simp at hnot

theorem noBreak_of_dropWhile (hrest : NoBreak (text.dropWhile isBlank)) : NoBreak text := by
  rw [← List.takeWhile_append_dropWhile (p := isBlank) (l := text)]
  exact (noBreak_of_blank List.all_takeWhile).append hrest

theorem eq_append_of_afterLiteral (hafter : afterLiteral literal text = some rest) :
    text = literal ++ rest := by
  rw [afterLiteral] at hafter
  split at hafter
  · rename_i hprefix
    obtain ⟨more, rfl⟩ := List.isPrefixOf_iff_prefix.mp hprefix
    rw [List.drop_left] at hafter
    rw [Option.some.inj hafter]
  · simp at hafter

/-- There is no line break in a `#pragma once`. -/
theorem noBreak_of_isPragmaOnce (honce : isPragmaOnce line = true) : NoBreak line := by
  obtain ⟨rest, hrest, hblank⟩ := (Option.any_eq_true _ _).mp honce
  obtain ⟨first, hfirst, hrest⟩ := Option.bind_eq_some_iff.mp hrest
  obtain ⟨second, hsecond, hrest⟩ := Option.bind_eq_some_iff.mp hrest
  split at hrest
  · refine noBreak_of_dropWhile ?_
    rw [eq_append_of_afterLiteral hfirst]
    refine NoBreak.append (by decide +kernel) (noBreak_of_dropWhile ?_)
    rw [eq_append_of_afterLiteral hsecond]
    refine NoBreak.append (by decide +kernel) (noBreak_of_dropWhile ?_)
    rw [eq_append_of_afterLiteral hrest]
    exact NoBreak.append (by decide +kernel) (noBreak_of_blank hblank)
  · simp at hrest

theorem dropWhile_concat (hc : isLineBreak c = true) :
    (text ++ [c]).dropWhile isBlank = text.dropWhile isBlank ++ [c] := by
  have hblank := isBlank_of_break hc
  rw [List.dropWhile_append]
  split
  · rename_i hempty
    rw [List.isEmpty_iff.mp hempty]
    simp [hblank]
  · rfl

theorem afterLiteral_concat (hc : c ∉ literal) :
    afterLiteral literal (text ++ [c]) = (afterLiteral literal text).map (· ++ [c]) := by
  have hiff : literal.isPrefixOf (text ++ [c]) = literal.isPrefixOf text := by
    rw [Bool.eq_iff_iff, List.isPrefixOf_iff_prefix, List.isPrefixOf_iff_prefix,
      List.prefix_concat_iff]
    refine or_iff_right fun hwhole ↦ hc ?_
    rw [hwhole]
    simp
  rw [afterLiteral, afterLiteral, hiff]
  split
  · rename_i hprefix
    have hle := (List.isPrefixOf_iff_prefix.mp hprefix).length_le
    rw [List.drop_append_of_le_length hle]
    rfl
  · rfl

/-- The end of a line makes no difference to an include. -/
theorem includeRe_concat (hc : isLineBreak c = true) : includeRe (line ++ [c]) = includeRe line := by
  have hliteral {literal : Text} (hbreak : NoBreak literal) : c ∉ literal := by
    intro hmem
    rw [hbreak c hmem] at hc
    simp at hc
  rw [includeRe, includeRe, dropWhile_concat hc, afterLiteral_concat (hliteral (by decide +kernel))]
  cases afterLiteral (str "#") (line.dropWhile isBlank) with
  | none => rfl
  | some rest =>
    rw [Option.map_some, Option.bind_some, Option.bind_some, dropWhile_concat hc,
      afterLiteral_concat (hliteral (by decide +kernel))]
    cases afterLiteral (str "include") (rest.dropWhile isBlank) with
    | none => rfl
    | some rest =>
      rw [Option.map_some, Option.bind_some, Option.bind_some, dropWhile_concat hc]
      have hclose : (str ">\"").contains c = false := by
        simpa using hliteral (by decide +kernel : NoBreak (str ">\""))
      cases rest.dropWhile isBlank with
      | nil => simp
      | cons opening rest =>
        dsimp only [List.cons_append]
        by_cases hall : ∀ d ∈ rest, (!(str ">\"").contains d) = true
        · -- The name is not closed.
          have hname : rest.takeWhile (fun d ↦ !(str ">\"").contains d) = rest :=
            List.takeWhile_eq_self_iff.mpr hall
          have hlonger : (rest ++ [c]).takeWhile (fun d ↦ !(str ">\"").contains d) = rest ++ [c] := by
            rw [List.takeWhile_append_of_pos hall, List.takeWhile_cons_of_pos (by rw [hclose]; rfl)]
            rfl
          rw [hname, hlonger]
          simp
        · have hshorter : (rest.takeWhile fun d ↦ !(str ">\"").contains d).length < rest.length := by
            refine Nat.lt_of_le_of_ne (List.takeWhile_prefix _).length_le fun hlength ↦ hall ?_
            exact List.takeWhile_eq_self_iff.mp ((List.takeWhile_prefix _).eq_of_length hlength)
          have hname : (rest ++ [c]).takeWhile (fun d ↦ !(str ">\"").contains d) =
              rest.takeWhile fun d ↦ !(str ">\"").contains d := by
            rw [List.takeWhile_append, if_neg (Nat.ne_of_lt hshorter)]
          have hrest : rest.drop (rest.takeWhile fun d ↦ !(str ">\"").contains d).length ≠ [] := by
            rw [ne_eq, List.drop_eq_nil_iff]
            omega
          have hlonger : (rest ++ [c]).drop
              (rest.takeWhile fun d ↦ !(str ">\"").contains d).length ≠ [] := by
            rw [List.drop_append_of_le_length (Nat.le_of_lt hshorter)]
            simp
          rw [hname, decide_eq_true hrest, decide_eq_true hlonger]

theorem splitLines_noBreak_cons (hline : NoBreak line) (hc : isLineBreak c = true) :
    splitLines (line ++ c :: rest) = (line ++ [c]) :: splitLines rest := by
  induction line with
  | nil => exact splitLines_cons_of_break hc
  | cons d line ih =>
    rw [List.cons_append, splitLines_cons_of_not_break (hline d List.mem_cons_self),
      ih fun e he ↦ hline e (List.mem_cons_of_mem d he)]
    rfl

theorem splitLines_noBreak (hline : NoBreak line) (hne : line ≠ []) : splitLines line = [line] := by
  induction line with
  | nil => exact absurd rfl hne
  | cons d line ih =>
    rw [splitLines_cons_of_not_break (hline d List.mem_cons_self)]
    by_cases hnil : line = []
    · subst hnil
      rfl
    · rw [ih (fun e he ↦ hline e (List.mem_cons_of_mem d he)) hnil]
      rfl

end NoBreak

/-! ### Parts between newlines -/

/-- Parts, each with a newline behind it. -/
def terminated (parts : List Text) : Text := parts.flatMap (· ++ [newline])

/-- Two lines are the same, but for a newline that the first one has got at its end. -/
def SameLine (line original : Text) : Prop :=
  line = original ∨ NoBreak original ∧ line = original ++ [newline]

section Parts

variable {before after : List Text} {text once line original : Text}

theorem unended_concat : unended (text ++ [newline]) = text := by
  rw [unended, endsNewline, List.getLast?_concat, if_pos (decide_eq_true rfl), List.dropLast_concat]

theorem SameLine.unended_eq (hsame : SameLine line original) : unended line = unended original := by
  rcases hsame with rfl | ⟨hbreak, rfl⟩
  · rfl
  have hopen : ¬endsNewline original = true := by
    rw [endsNewline, decide_eq_true_eq]
    intro hlast
    exact absurd (hbreak newline (List.mem_of_getLast? hlast)) (by decide +kernel)
  rw [unended_concat, unended, if_neg hopen]

theorem SameLine.includeRe_eq (hsame : SameLine line original) :
    includeRe line = includeRe original := by
  rcases hsame with rfl | ⟨-, rfl⟩
  · rfl
  · exact includeRe_concat rfl

/-- A line with a visible character at its end, other than a backslash. -/
theorem closes_concat {c : CodePoint} (hlast : text.getLast? = some c) (hspace : isSpace c = false)
    (hbackslash : c ≠ backslash) : closes (text ++ [newline]) = true := by
  obtain ⟨start, rfl⟩ := List.getLast?_eq_some_iff.mp hlast
  have hends : endsNewline (start ++ [c] ++ [newline]) = true := by
    rw [endsNewline, List.getLast?_concat, decide_eq_true rfl]
  have hback : backslashed (start ++ [c] ++ [newline]) = false := by
    rw [backslashed, unended_concat, List.reverse_concat,
      List.dropWhile_cons_of_neg (by rw [hspace]; simp), List.head?_cons, decide_eq_false]
    exact fun hsame ↦ hbackslash (Option.some.inj hsame)
  rw [closes, hends, hback]
  rfl

theorem startsWithNewline_append (htext : text ≠ []) {rest : Text} :
    startsWithNewline (text ++ rest) = startsWithNewline text := by
  obtain ⟨c, text, rfl⟩ := List.exists_cons_of_ne_nil htext
  rfl

theorem endsLine_concat {c : CodePoint} : endsLine (text ++ [c]) = isLineBreak c := by
  rw [endsLine, List.getLast?_concat]
  rfl

theorem endsLine_terminated (parts : List Text) : endsLine (terminated parts) = true := by
  rcases List.eq_nil_or_concat parts with rfl | ⟨earlier, last, rfl⟩
  · rfl
  · rw [terminated, List.concat_eq_append, List.flatMap_append, List.flatMap_singleton,
      ← List.append_assoc, endsLine_concat]
    rfl

theorem joinNewlines_append (hafter : after ≠ []) :
    joinNewlines (before ++ after) = terminated before ++ joinNewlines after := by
  induction before with
  | nil => rfl
  | cons part before ih =>
    rw [List.cons_append, joinNewlines, List.intercalate_cons_of_ne_nil (by simp [hafter]),
      ← joinNewlines, ih]
    simp only [terminated, List.flatMap_cons, List.append_assoc]

theorem splitAtOnce_eq_some (hsplit : splitAtOnce text = some (before, after)) :
    ∃ once, isPragmaOnce once = true ∧ text = joinNewlines (before ++ once :: after) := by
  have hparts := List.takeWhile_append_dropWhile (p := (!isPragmaOnce ·)) (l := text.splitOn newline)
  rw [splitAtOnce] at hsplit
  split at hsplit
  · simp at hsplit
  · rename_i once later hdrop
    obtain ⟨rfl, rfl⟩ := Prod.mk.inj (Option.some.inj hsplit)
    refine ⟨once, ?_, ?_⟩
    · have hfirst := List.head?_dropWhile_not (!isPragmaOnce ·) (text.splitOn newline)
      rw [hdrop] at hfirst
      simpa using hfirst
    · rw [← hdrop, hparts, joinNewlines, List.intercalate_splitOn]

/-- The lines of a text with a `#pragma once`. -/
theorem splitLines_once (before after : List Text) (honce : isPragmaOnce once = true) :
    ∃ line, splitLines (joinNewlines (before ++ once :: after)) =
      splitLines (terminated before) ++ line :: splitLines (joinNewlines after) := by
  have hbreak := noBreak_of_isPragmaOnce honce
  rw [joinNewlines_append (by simp), splitLines_append (endsLine_terminated before)]
  by_cases hafter : after = []
  · subst hafter
    have hne : once ≠ [] := by rintro rfl; simp [isPragmaOnce, afterLiteral, str] at honce
    refine ⟨once, ?_⟩
    rw [joinNewlines, List.intercalate_singleton, splitLines_noBreak hbreak hne]
    rfl
  · refine ⟨once ++ [newline], ?_⟩
    rw [joinNewlines, List.intercalate_cons_of_ne_nil hafter, List.append_assoc,
      List.singleton_append, splitLines_noBreak_cons hbreak rfl]
    rfl

end Parts

end ZigbeeRemote.Client.SingleFile
