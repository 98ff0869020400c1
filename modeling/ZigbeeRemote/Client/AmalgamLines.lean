import ZigbeeRemote.Client.Amalgamator

/-!
# Lines of the single-file client

`expand_file` puts the text of a header between two lines of the file that includes it. If the text
does not end with a newline, its last line is joined with the next line of the including file, and the
same is so if a backslash before the newline splices it away. A `#pragma once` prevents the former, as
the guard that replaces it ends with a line of its own; and so does `main`, which starts the comment
above each call with a newline.

`str.splitlines` also ends a line at a form feed and the like, where a C++ source does not. What is
copied piece by piece is a line of its own here if the pieces of the line follow each other and a
newline ends them, unspliced.

`Preserved` says that the generated header has each line of each file as a line of its own, and that
the script gets as far as writing it: it stops at a name of an include that is too long or has a NUL
in it, at a `#pragma once` in a file whose path is not UTF-8, and at bytes that are not UTF-8, which
are read but cannot be written. `lines_preserved_iff` has the exact condition.
-/

set_option autoImplicit false
set_option relaxedAutoImplicit false

namespace ZigbeeRemote.Client.SingleFile

open Foundation

variable {Path : Type} [DecidableEq Path]

/-! ### The generated header -/

/-- The banner, with the directory of the network stack. -/
def banner (lwipDir : Text) : Text :=
  terminated (["/* Generated by zb_rpc_client/generate_single_file.py -- do not edit.",
      " *",
      " * Single-file build of the zb_rpc client.  Compile with:",
      " *   g++ -std=c++26 -freflection -fpermissive -w -pthread \\",
      " *       -DSINGLE_FILE_COMPILATION main.cpp -o zb_rpc_client",
      " *"].map str) ++
    str " * lwIP: " ++ lwipDir ++
    str "\n" ++ terminated ([" */",
      "#ifndef HEADER_ZB_RPC_CLIENT_HPP",
      "#define HEADER_ZB_RPC_CLIENT_HPP",
      "",
      "#ifdef __cplusplus",
      "",
      "/* The host libc owns the POSIX socket/netdb types; lwIP only needs its own",
      " * internal IP types here.  This keeps the two sets of declarations from",
      " * colliding in one translation unit. */",
      "#include <sys/socket.h>",
      "#include <netinet/in.h>",
      "#include <arpa/inet.h>",
      "#include <netdb.h>",
      "",
      "#ifndef LWIP_SOCKET_EXTERNAL_HEADERS",
      "#define LWIP_SOCKET_EXTERNAL_HEADERS 1",
      "#endif",
      "#ifndef LWIP_SOCKET_EXTERNAL_HEADER_INET_H",
      "#define LWIP_SOCKET_EXTERNAL_HEADER_INET_H <netinet/in.h>",
      "#endif",
      "#ifndef LWIP_SOCKET_EXTERNAL_HEADER_SOCKETS_H",
      "#define LWIP_SOCKET_EXTERNAL_HEADER_SOCKETS_H <sys/socket.h>",
      "#endif",
      "/* Only the unused POSIX compatibility aliases are disabled. */",
      "#ifndef LWIP_COMPAT_SOCKETS",
      "#define LWIP_COMPAT_SOCKETS 0",
      "#endif",
      "#define LWIP_DNS_API_DECLARE_STRUCTS 0",
      "#define LWIP_DNS_API_DEFINE_ERRORS 0",
      "#define LWIP_DNS_API_DEFINE_FLAGS 0",
      "#define LWIP_DNS_API_DECLARE_H_ERRNO 0"].map str)

def footer : Text := str "\n#endif /* __cplusplus */\n#endif /* HEADER_ZB_RPC_CLIENT_HPP */\n"

/-- The pieces, one behind the other. -/
def textOf (pieces : List (Piece Path)) : Text := (pieces.map Piece.text).flatten

namespace Project

variable (project : Project Path)

/-- The banner of the generated header. -/
def bannerText : Text := banner (project.host.pathStr project.lwipDir)

/-- The generated header. -/
def output (pieces : List (Piece Path)) : Text := project.bannerText ++ textOf pieces ++ footer

/-! ### Lines of files -/

/-- The lines of a file after the renames, without a `#pragma once` that is replaced. -/
def ownLines (file : Path) : List Text :=
  match splitAtOnce (project.renamedText file) with
  | none => splitLines (project.renamedText file)
  | some (before, _) =>
    (splitLines (project.renamedText file)).eraseIdx (splitLines (terminated before)).length

/-- A line of a file without its newline, unless it includes a project header. -/
def kept (file : Path) (line : Text) : Option Text :=
  match project.included (project.host.parent file) line with
  | none => some (unended line)
  | some _ => none

/-- What the generated header should have of a file: its lines, without the includes of project
headers. -/
def expectedLines (file : Path) : List Text := (project.ownLines file).filterMap (project.kept file)

/-- The line belongs to the guard that replaces a `#pragma once`: its first two lines are in the place
of the `#pragma once`, the others behind the text. -/
def isAdded (file : Path) (i : ℕ) : Bool :=
  match splitAtOnce (project.renamedText file) with
  | none => false
  | some (before, after) =>
    let start := (splitLines (terminated before)).length
    start ≤ i && (i < start + 2 || start + 2 + (splitLines (joinNewlines after)).length ≤ i)

/-- The copied line belongs to its file. -/
def isOwn : Event Path → Bool
  | .plain trail i =>
    ((project.documents.path trail).bind List.getLast?).any fun file ↦ !project.isAdded file i
  | .met _ _ _ _ => false

variable {project}

omit [DecidableEq Path] in
theorem noBreak_guard (project : Project Path) (file : Path) : NoBreak (project.guard file) := by
  refine NoBreak.append (by decide +kernel) fun c hc ↦ ?_
  have hhex := project.host.hexdigest_hex _ c (List.mem_of_mem_take hc)
  have hall : NoBreak (str "0123456789abcdef") := by decide +kernel
  exact hall c hhex

omit [DecidableEq Path] in
/-- A line of a guard ends with its name. -/
theorem closes_guard (project : Project Path) (file : Path) (start : Text) :
    closes (start ++ project.guard file ++ [newline]) = true := by
  have hne : project.guard file ≠ [] := by
    rw [Project.guard]
    exact List.append_ne_nil_of_left_ne_nil (by decide +kernel) _
  have hvisible : ∀ c ∈ project.guard file, isSpace c = false ∧ c ≠ backslash := by
    intro c hc
    rcases List.mem_append.mp hc with hname | hdigest
    · have hall : ∀ c ∈ str "ZB_AMALGAM_ONCE_", isSpace c = false ∧ c ≠ backslash := by
        decide +kernel
      exact hall c hname
    · have hall : ∀ c ∈ str "0123456789abcdef", isSpace c = false ∧ c ≠ backslash := by
        decide +kernel
      exact hall c (project.host.hexdigest_hex _ c (List.mem_of_mem_take hdigest))
  obtain ⟨hspace, hbackslash⟩ := hvisible _ (List.getLast_mem hne)
  refine closes_concat ?_ hspace hbackslash
  rw [List.getLast?_append_of_ne_nil _ hne, List.getLast?_eq_some_getLast hne]

omit [DecidableEq Path] in
/-- The lines of a file with a `#pragma once`: its own lines before the guard and behind it are still
there, with a newline at the end if the file does not end with one. -/
theorem preparedLines_once {file : Path} {before after : List Text}
    (honce : splitAtOnce (project.renamedText file) = some (before, after)) :
    ∃ guardLines own added, guardLines.length = 2 ∧
      (∀ line ∈ guardLines ++ added, closes line = true) ∧
      project.preparedLines file =
        splitLines (terminated before) ++ (guardLines ++ (own ++ added)) ∧
      List.Forall₂ SameLine own (splitLines (joinNewlines after)) := by
  have hguard := noBreak_guard project file
  have hifndef : NoBreak (str "#ifndef " ++ project.guard file) :=
    NoBreak.append (by decide +kernel) hguard
  have hdefine : NoBreak (str "#define " ++ project.guard file) :=
    NoBreak.append (by decide +kernel) hguard
  have hendif : NoBreak (str "#endif /* " ++ project.guard file ++ str " */") :=
    NoBreak.append (NoBreak.append (by decide +kernel) hguard) (by decide +kernel)
  have hsame (lines : List Text) : List.Forall₂ SameLine lines lines :=
    List.forall₂_same.mpr fun _ _ ↦ Or.inl rfl
  have hstart : str "\n#endif /* " = newline :: str "#endif /* " := by decide +kernel
  have hstop : str " */\n" = str " */" ++ [newline] := by decide +kernel
  set ifndefLine := str "#ifndef " ++ project.guard file with hifndefLine
  set defineLine := str "#define " ++ project.guard file with hdefineLine
  set endifLine := str "#endif /* " ++ project.guard file ++ str " */" with hendifLine
  have hprepared : project.preparedText file = terminated before ++
      (ifndefLine ++ newline :: joinNewlines (defineLine :: after) ++
        newline :: (endifLine ++ [newline])) := by
    rw [preparedText, honce]
    dsimp only
    rw [List.append_assoc before, joinNewlines_append (by simp), hstart, hstop]
    simp only [hifndefLine, hdefineLine, hendifLine, List.cons_append, List.nil_append,
      List.append_assoc, joinNewlines, List.intercalate_cons_cons]
  have hsplit : splitLines (endifLine ++ [newline]) = [endifLine ++ [newline]] :=
    splitLines_noBreak_cons hendif rfl
  have hguardCloses : ∀ line ∈ [ifndefLine ++ [newline], defineLine ++ [newline]],
      closes line = true := by
    intro line hline
    rcases List.mem_pair.mp hline with rfl | rfl
    · exact closes_guard project file _
    · exact closes_guard project file _
  have hendifCloses : closes (endifLine ++ [newline]) = true := by
    refine closes_concat (c := 0x2F) ?_ (by decide +kernel) (by decide +kernel)
    rw [hendifLine, List.getLast?_append_of_ne_nil _ (by decide +kernel)]
    decide +kernel
  have hcloses {added : List Text} (hadded : ∀ line ∈ added, closes line = true) :
      ∀ line ∈ [ifndefLine ++ [newline], defineLine ++ [newline]] ++ added, closes line = true :=
    fun line hline ↦ (List.mem_append.mp hline).elim (hguardCloses line) (hadded line)
  have hone : ∀ line ∈ [endifLine ++ [newline]], closes line = true :=
    List.forall_mem_singleton.mpr hendifCloses
  rw [preparedLines, hprepared, splitLines_append (endsLine_terminated before), List.append_assoc,
    List.cons_append, splitLines_noBreak_cons hifndef rfl]
  by_cases hafter : after = []
  · subst hafter
    refine ⟨[ifndefLine ++ [newline], defineLine ++ [newline]], [], [endifLine ++ [newline]], rfl,
      hcloses hone, ?_, ?_⟩
    · rw [joinNewlines, List.intercalate_singleton, splitLines_noBreak_cons hdefine rfl, hsplit]
      rfl
    · exact List.Forall₂.nil
  · have hjoin : joinNewlines (defineLine :: after) ++ newline :: (endifLine ++ [newline]) =
        defineLine ++ newline ::
          (joinNewlines after ++ [newline] ++ (endifLine ++ [newline])) := by
      rw [joinNewlines, List.intercalate_cons_of_ne_nil hafter, joinNewlines]
      simp only [List.append_assoc, List.cons_append, List.nil_append]
    rw [hjoin, splitLines_noBreak_cons hdefine rfl, splitLines_append (endsLine_concat.trans rfl),
      hsplit]
    by_cases hends : endsLine (joinNewlines after) = true
    · refine ⟨[ifndefLine ++ [newline], defineLine ++ [newline]], splitLines (joinNewlines after),
        [[newline], endifLine ++ [newline]], rfl, hcloses ?_, ?_, hsame _⟩
      · exact List.forall_mem_cons.mpr ⟨by decide +kernel, hone⟩
      · have hnewline : splitLines [newline] = [[newline]] := rfl
        rw [splitLines_append hends, hnewline]
        simp only [List.append_assoc, List.cons_append, List.nil_append]
    · obtain ⟨lines, last, hlines, hlast, hconcat⟩ :=
        splitLines_concat (Bool.not_eq_true _ ▸ hends) (rfl : isLineBreak newline = true)
      refine ⟨[ifndefLine ++ [newline], defineLine ++ [newline]], lines ++ [last ++ [newline]],
        [endifLine ++ [newline]], rfl, hcloses hone, ?_, ?_⟩
      · rw [hconcat]
        rfl
      · rw [hlines]
        exact List.rel_append (hsame lines) (.cons (Or.inr ⟨hlast, rfl⟩) .nil)

omit [DecidableEq Path] in
theorem ownLines_once {file : Path} {before after : List Text}
    (honce : splitAtOnce (project.renamedText file) = some (before, after)) :
    project.ownLines file = splitLines (terminated before) ++ splitLines (joinNewlines after) := by
  obtain ⟨once, hpragma, htext⟩ := splitAtOnce_eq_some honce
  obtain ⟨line, hlines⟩ := splitLines_once before after hpragma
  rw [ownLines, honce]
  dsimp only
  rw [htext, hlines, List.eraseIdx_append_of_length_le (Nat.le_refl _), Nat.sub_self]
  rfl

end Project

/-- A function of the numbers of the lines that depends on the lines only. -/
theorem filterMap_range {α : Type} (lines : List Text) (ofNumber : ℕ → Option α)
    (ofLine : Text → Option α)
    (heq : ∀ i line, lines[i]? = some line → ofNumber i = ofLine line) :
    (List.range lines.length).filterMap ofNumber = lines.filterMap ofLine := by
  induction lines generalizing ofNumber with
  | nil => rfl
  | cons line lines ih =>
    have hfirst := heq 0 line rfl
    have hrest := ih (fun i ↦ ofNumber (i + 1)) fun i later hlater ↦ heq (i + 1) later hlater
    rw [List.length_cons, List.range_succ_eq_map, List.filterMap_cons, List.filterMap_cons, hfirst,
      List.filterMap_map, ← hrest]
    rfl

namespace Project

variable {project : Project Path}

theorem SameLine.kept_eq {file : Path} {line original : Text} (hsame : SameLine line original) :
    project.kept file line = project.kept file original := by
  rw [kept, kept, included, included, hsame.includeRe_eq, hsame.unended_eq]

/-- What is kept of a line of a file, by its number. -/
def keptAt (project : Project Path) (file : Path) (i : ℕ) : Option Text :=
  if project.isAdded file i then none else (project.preparedLines file)[i]?.bind (project.kept file)

section KeptAt

variable {file : Path} {i : ℕ} {line : Text}

theorem keptAt_own (hline : (project.preparedLines file)[i]? = some line)
    (hadded : project.isAdded file i = false) : project.keptAt file i = project.kept file line := by
  simp [keptAt, hadded, hline]

theorem keptAt_added (hadded : project.isAdded file i = true) : project.keptAt file i = none := by
  simp [keptAt, hadded]

/-- The copied lines of a file that are its own, by their numbers. -/
theorem map_filter_plainLines (file : Path) :
    ((project.documents.plainLines file).filter fun i ↦ !project.isAdded file i).map
        (fun i ↦ unended (((project.preparedLines file)[i]?).getD [])) =
      (List.range (project.preparedLines file).length).filterMap (project.keptAt file) := by
  have hlength : (project.documents.lines file).length = (project.preparedLines file).length := by
    simp [documents]
  rw [Documents.plainLines, List.filter_filter, ← List.filterMap_eq_filter, List.map_filterMap,
    hlength]
  refine List.filterMap_congr fun i hi ↦ ?_
  obtain ⟨line, hline⟩ : ∃ line, (project.preparedLines file)[i]? = some line :=
    ⟨_, List.getElem?_eq_getElem (List.mem_range.mp hi)⟩
  cases hadded : project.isAdded file i with
  | true => simp [keptAt_added hadded, hadded]
  | false =>
    rw [keptAt_own hline hadded]
    cases hincluded : project.included (project.host.parent file) line with
    | none => simp [hadded, documents, hline, kept, hincluded, Option.guard]
    | some found => simp [hadded, documents, hline, kept, hincluded, Option.guard]

/-- The lines of a file with a `#pragma once`: those before the guard, two of the guard, those behind
it, and what ends the guard. -/
theorem filterMap_keptAt_once {before after : List Text}
    (honce : splitAtOnce (project.renamedText file) = some (before, after)) :
    (List.range (project.preparedLines file).length).filterMap (project.keptAt file) =
      project.expectedLines file := by
  obtain ⟨guardLines, own, added, htwo, -, hlines, hsame⟩ := preparedLines_once honce
  have hlength := hsame.length_eq
  set start := (splitLines (terminated before)).length with hstart
  have hadded {i : ℕ} : project.isAdded file i = true ↔ start ≤ i ∧
      (i < start + 2 ∨ start + 2 + (splitLines (joinNewlines after)).length ≤ i) := by
    rw [isAdded, honce]
    simp [hstart]
  have htotal : (project.preparedLines file).length =
      start + (2 + ((splitLines (joinNewlines after)).length + added.length)) := by
    rw [hlines, List.length_append, List.length_append, List.length_append, htwo, hlength]
  have hfirst : (List.range start).filterMap (project.keptAt file) =
      (splitLines (terminated before)).filterMap (project.kept file) := by
    refine filterMap_range _ _ _ fun i line hline ↦ keptAt_own ?_ ?_
    · rw [hlines, List.getElem?_append_left (List.getElem?_eq_some_iff.mp hline).1]
      exact hline
    · have hi := (List.getElem?_eq_some_iff.mp hline).1
      rw [← Bool.not_eq_true, hadded]
      omega
  have hguard : ((List.range 2).map (start + ·)).filterMap (project.keptAt file) = [] := by
    refine List.filterMap_eq_nil_iff.mpr fun i hi ↦ keptAt_added (hadded.mpr ?_)
    obtain ⟨j, hj, rfl⟩ := List.mem_map.mp hi
    have hj' := List.mem_range.mp hj
    omega
  have hsecond : (((List.range (splitLines (joinNewlines after)).length).map (2 + ·)).map
      (start + ·)).filterMap (project.keptAt file) =
        (splitLines (joinNewlines after)).filterMap (project.kept file) := by
    rw [List.map_map, List.filterMap_map]
    refine filterMap_range _ _ _ fun i original hline ↦ ?_
    have hi := (List.getElem?_eq_some_iff.mp hline).1
    obtain ⟨line, hline', hsameLine⟩ : ∃ line, own[i]? = some line ∧ SameLine line original := by
      have hrel := hsame.get (hlength ▸ hi) hi
      refine ⟨own[i], List.getElem?_eq_getElem _, ?_⟩
      rw [(List.getElem?_eq_some_iff.mp hline).2.symm]
      exact hrel
    rw [← SameLine.kept_eq hsameLine]
    refine keptAt_own ?_ ?_
    · have hindex : start + (2 + i) - start - guardLines.length = i := by omega
      rw [Function.comp_apply, hlines, List.getElem?_append_right (by omega),
        List.getElem?_append_right (by omega), ← hstart, hindex,
        List.getElem?_append_left (by omega)]
      exact hline'
    · rw [Function.comp_apply, ← Bool.not_eq_true, hadded]
      omega
  have hlast : ((((List.range added.length).map
      ((splitLines (joinNewlines after)).length + ·)).map (2 + ·)).map
        (start + ·)).filterMap (project.keptAt file) = [] := by
    refine List.filterMap_eq_nil_iff.mpr fun i hi ↦ keptAt_added (hadded.mpr ?_)
    obtain ⟨j, hj, rfl⟩ := List.mem_map.mp hi
    obtain ⟨k, hk, rfl⟩ := List.mem_map.mp hj
    obtain ⟨l, -, rfl⟩ := List.mem_map.mp hk
    omega
  rw [expectedLines, ownLines_once honce, List.filterMap_append, htotal, List.range_add,
    List.filterMap_append, List.range_add, List.map_append, List.filterMap_append, List.range_add,
    List.map_append, List.map_append, List.filterMap_append, hfirst, hguard, hsecond, hlast,
    List.nil_append, List.append_nil]

end KeptAt

/-- The copied lines of a file that are its own. -/
theorem map_ownLines (file : Path) :
    ((project.documents.plainLines file).filter fun i ↦ !project.isAdded file i).map
        (fun i ↦ unended (((project.preparedLines file)[i]?).getD [])) =
      project.expectedLines file := by
  rw [map_filter_plainLines]
  cases honce : splitAtOnce (project.renamedText file) with
  | none =>
    have hlines : project.preparedLines file = project.ownLines file := by
      rw [preparedLines, preparedText, ownLines, honce]
    rw [expectedLines, hlines]
    exact filterMap_range _ _ _ fun i line hline ↦
      keptAt_own (hlines ▸ hline) (by simp [isAdded, honce])
  | some parts => exact filterMap_keptAt_once honce

end Project

/-! ### Lines of their own -/

/-- What comes behind a copied line. -/
inductive Follower : Type
  /-- The end of the generated header. -/
  | footer
  /-- The comment above a call of `main`. -/
  | heading
  /-- The comment in the place of an include line. -/
  | comment
  /-- A line of the guard that replaces a `#pragma once`. -/
  | added (line : Text)
  /-- The next line of the file. -/
  | sameFile
  | otherFile
  deriving DecidableEq

namespace Follower

/-- A line that does not close is complete if a newline comes behind it, or the next line of its own
file. A line that ends with a spliced newline may also run on into a comment of the script. -/
def completes (line : Text) : Follower → Bool
  | .footer | .sameFile => !dangling line
  | .heading => true
  | .comment => endsNewline line
  | .added next => startsWithNewline next && !dangling line
  | .otherFile => false

/-- A line that does not close runs on into a directive of a guard or a line of another file. -/
def joins (line : Text) : Follower → Bool
  | .added next => !startsWithNewline next || dangling line
  | .otherFile => true
  | .footer | .heading | .comment | .sameFile => false

theorem joins_of_completes {line : Text} {follower : Follower}
    (hcompletes : follower.completes line = true) : follower.joins line = false := by
  cases follower with
  | footer => rfl
  | heading => rfl
  | comment => rfl
  | sameFile => rfl
  | otherFile => simp [completes] at hcompletes
  | added next =>
    simp only [completes, Bool.and_eq_true, Bool.not_eq_true'] at hcompletes
    simp [joins, hcompletes.1, hcompletes.2]

end Follower

/-- What the script cannot cope with. -/
structure Limits (Path : Type) where
  /-- `resolve` raises something else than `OSError`, or `is_file` does raise: the path is too long,
  or has a NUL in it. -/
  raises : Path → Bool
  /-- How many calls of `expand_file` can be nested. -/
  nesting : ℕ

namespace Project

variable (project : Project Path)

/-- What is copied on a trail and belongs to the file there, without newlines. -/
def ownCopies (trail : List ℕ) (pieces : List (Piece Path)) : List Text :=
  pieces.filterMap fun piece ↦
    if piece.event.trail = trail ∧ project.isOwn piece.event = true then some (unended piece.text)
    else none

/-- The second line is the next one of the file of the first. -/
def Continues (first second : Piece Path) : Prop :=
  project.isOwn first.event = true ∧ project.isOwn second.event = true ∧
    second.event.position = first.event.trail ++ [first.event.line + 1] ∧
    dangling first.text = false

/-- A copied line is a line of the generated header, or goes on with lines of its own file. -/
structure OwnLine (before : List (Piece Path)) (line : Piece Path) (after : List (Piece Path)) :
    Prop where
  starts : ∀ previous, before.getLast? = some previous →
    closes previous.text = true ∨ project.Continues previous line
  ends : closes line.text = true ∨
    startsWithNewline (textOf after ++ footer) = true ∧ dangling line.text = false ∨
    ∃ next, after.head? = some next ∧ (project.Continues line next ∨
      next.event.target ≠ none ∧ (endsNewline line.text = true ∨ startsWithNewline next.text = true))

/-- `project_header` goes on to the next candidate. -/
def isMissing (candidate : Path) : Bool :=
  (project.host.resolve candidate).all fun resolved ↦
    !(resolved ∈ project.host.files && project.isProjectFile resolved)

/-- The candidates that `project_header` tries: up to the first one that it finds. -/
def tried (name : Text) (currentDir : Path) : List Path :=
  let candidates := project.host.join currentDir name ::
    project.roots.map fun root ↦ project.host.join root name
  candidates.takeWhile project.isMissing ++ (candidates.dropWhile project.isMissing).take 1

/-- `project_header` returns for the include lines among the given ones. -/
def Resolves (limits : Limits Path) (lines : List Text) (currentDir : Path) : Prop :=
  ∀ line ∈ lines, ∀ name, includeRe line = some name →
    ∀ path ∈ project.tried name currentDir, limits.raises path = false

/-- `expand_file` can read the lines of a file: the include lines, and the path if it is hashed. -/
structure Readable (limits : Limits Path) (file : Path) : Prop where
  resolves : project.Resolves limits (project.preparedLines file) (project.host.parent file)
  hashed : splitAtOnce (project.renamedText file) ≠ none →
    isEncodable (project.host.pathStr file) = true

/-- `direct_includes` returns for every source. -/
def Listed (limits : Limits Path) : Prop :=
  ∀ source ∈ project.sources,
    project.Resolves limits ((splitLines (project.readText source)).map bare)
      (project.host.parent source)

/-- No exception is raised, and whenever a file is expanded all its lines are there, in order, as
lines of their own. -/
structure Preserved (limits : Limits Path) (pieces : List (Piece Path)) : Prop where
  listed : project.Listed limits
  readable : ∀ trail file, (trail, file) ∈ openings (pieces.map Piece.event) →
    project.Readable limits file
  nested : ∀ piece ∈ pieces, piece.event.target ≠ none →
    piece.event.trail.length < limits.nesting
  written : isEncodable (project.output pieces) = true
  complete : ∀ trail stack file, project.documents.Opens trail (stack ++ [file]) →
    project.ownCopies trail pieces = project.expectedLines file
  own : ∀ before piece after, pieces = before ++ piece :: after →
    project.isOwn piece.event = true → project.OwnLine before piece after

/-- What happens at a line, as far as it matters for what is written. -/
def eventAt (trail : List ℕ) (stack : List Path) (i : ℕ) : Option Path → Event Path
  | none => .plain trail i
  | some target => .met trail i target (if target ∈ stack then .recursive else .opened)

/-- What comes behind a line of the file at the end of a trail. -/
def follower (trail : List ℕ) (i : ℕ) : Follower :=
  match project.documents.next (trail ++ [i]) with
  | none => .footer
  | some (other, j) =>
    match (project.documents.path other).bind List.getLast? with
    | none => .heading
    | some file =>
      match (project.documents.lines file)[j]? with
      | some none =>
        if project.isAdded file j then .added (((project.preparedLines file)[j]?).getD [])
        else if other ++ [j] = trail ++ [i + 1] then .sameFile
        else .otherFile
      | _ => .comment

/-- Line `i` of the file is copied, and does not close. -/
def RunsOn (file : Path) (i : ℕ) (line : Text) : Prop :=
  (project.preparedLines file)[i]? = some line ∧
    project.included (project.host.parent file) line = none ∧ closes line = false

/-- The condition: the script can find and read every file within reach, and encode every text that it
writes; and where a file has a line without a newline, or with one that is spliced away, what comes
behind it completes the line. -/
structure LinesApart (limits : Limits Path) : Prop where
  listed : project.Listed limits
  readable : ∀ file, project.documents.Reachable file → project.Readable limits file
  nested : ∀ (trail : List ℕ) (stack : List Path) (i : ℕ) (target : Path),
    project.documents.Opens trail stack →
    (project.documents.linesAt stack)[i]? = some (some target) → trail.length < limits.nesting
  encodable_banner : isEncodable project.bannerText = true
  encodable : ∀ trail stack i target, project.documents.Opens trail stack →
    (project.documents.linesAt stack)[i]? = some target →
    isEncodable (project.pieceText stack (eventAt trail stack i target)) = true
  completed : ∀ trail stack file i line, project.documents.Opens trail (stack ++ [file]) →
    project.RunsOn file i line → (project.follower trail i).completes line = true

end Project

section Pieces

variable {project : Project Path} {fuel : ℕ} {pieces before after : List (Piece Path)}
  {piece : Piece Path} {trail : List ℕ} {i : ℕ}

omit [DecidableEq Path] in
@[simp] theorem textOf_append (first second : List (Piece Path)) :
    textOf (first ++ second) = textOf first ++ textOf second := by
  simp [textOf]

omit [DecidableEq Path] in
@[simp] theorem textOf_cons : textOf (piece :: pieces) = piece.text ++ textOf pieces := by
  simp [textOf]

/-- Where a piece comes from, and its text. -/
theorem exists_position (hmain : main project fuel = some pieces) (hpiece : piece ∈ pieces) :
    ∃ stack, project.documents.Opens piece.event.trail stack ∧
      (project.documents.linesAt stack)[piece.event.line]? = some piece.event.target ∧
      piece.text = project.pieceText stack
        (Project.eventAt piece.event.trail stack piece.event.line piece.event.target) := by
  obtain ⟨final, hexpands⟩ := main_expands hmain
  obtain ⟨stack, hopens, hline, houtcome⟩ :=
    hexpands.traverses.sound (.top project.documents) (List.mem_map_of_mem hpiece)
  obtain ⟨path, hpath, htext⟩ := main_written hmain piece hpiece
  obtain rfl : path = stack := Option.some.inj (hpath.symm.trans hopens.path_eq)
  refine ⟨path, hopens, hline, htext.trans ?_⟩
  cases hevent : piece.event with
  | plain trail i => rfl
  | met trail i target outcome =>
    have hrecursive := (houtcome _ _ _ _ hevent).1
    simp only [Project.eventAt, Event.target, Event.trail, Event.line, Project.pieceText]
    by_cases hmem : target ∈ path
    · rw [if_pos (hrecursive.mpr hmem), if_pos hmem, if_pos rfl]
    · rw [if_neg (fun hrec ↦ hmem (hrecursive.mp hrec)), if_neg hmem, if_neg (by simp)]

/-- A copied line is a line of a file. -/
theorem exists_line (hmain : main project fuel = some pieces) (hpiece : piece ∈ pieces)
    (hevent : piece.event = .plain trail i) :
    ∃ stack file, project.documents.Opens trail (stack ++ [file]) ∧
      (project.preparedLines file)[i]? = some piece.text ∧
      project.included (project.host.parent file) piece.text = none := by
  obtain ⟨stack, hopens, hline, htext⟩ := exists_position hmain hpiece
  rw [hevent] at hopens hline htext
  obtain ⟨earlier, file, line, rfl, hfile, hincluded⟩ :=
    Project.exists_file_of_plain hopens hline
  have hline' : (project.preparedLines file)[i]? = some line := hfile
  have hcopied : piece.text = line := by
    rw [htext, Event.target, Project.eventAt, Event.trail, Event.line, Project.pieceText,
      List.getLast?_concat, Option.bind_some, hline', Option.getD_some]
  exact ⟨earlier, file, hopens, hcopied ▸ hline', hcopied ▸ hincluded⟩

omit [DecidableEq Path] in
theorem heading_bounds (project : Project Path) (path : Path) : project.heading path ≠ [] ∧
    closes (project.heading path) = true ∧ startsWithNewline (project.heading path) = true := by
  have hfirst : str "\n/* ===== " ≠ [] := by decide +kernel
  have hlast : str " ===== */\n" = str " ===== */" ++ [newline] := by decide +kernel
  refine ⟨by simp [Project.heading, hfirst], ?_, ?_⟩
  · rw [Project.heading, hlast, ← List.append_assoc]
    refine closes_concat (c := 0x2F) ?_ (by decide +kernel) (by decide +kernel)
    rw [List.getLast?_append_of_ne_nil _ (by decide +kernel)]
    decide +kernel
  · rw [Project.heading, List.append_assoc, startsWithNewline_append hfirst]
    decide +kernel

theorem includeComment_bounds (name : Text) : includeComment name ≠ [] ∧
    closes (includeComment name) = true ∧ startsWithNewline (includeComment name) = false := by
  have hfirst : str "/* amalgam: " ≠ [] := by decide +kernel
  have hlast : str " */\n" = str " */" ++ [newline] := by decide +kernel
  refine ⟨by simp [includeComment, hfirst], ?_, ?_⟩
  · rw [includeComment, hlast, ← List.append_assoc]
    refine closes_concat (c := 0x2F) ?_ (by decide +kernel) (by decide +kernel)
    rw [List.getLast?_append_of_ne_nil _ (by decide +kernel)]
    decide +kernel
  · rw [includeComment, List.append_assoc, startsWithNewline_append hfirst]
    decide +kernel

omit [DecidableEq Path] in
theorem closes_cycleComment (project : Project Path) (path : Path) (start : Text) :
    closes (start ++ project.cycleComment path) = true := by
  have hlast : str " skipped */\n" = str " skipped */" ++ [newline] := by decide +kernel
  rw [Project.cycleComment, hlast, ← List.append_assoc, ← List.append_assoc]
  refine closes_concat (c := 0x2F) ?_ (by decide +kernel) (by decide +kernel)
  rw [List.getLast?_append_of_ne_nil _ (by decide +kernel)]
  decide +kernel

/-- The comment in the place of an include line or above a call. -/
theorem comment_of_met (hmain : main project fuel = some pieces) (hpiece : piece ∈ pieces)
    {target : Path} (htarget : piece.event.target = some target) :
    piece.text ≠ [] ∧ closes piece.text = true ∧
      (startsWithNewline piece.text = true ↔ piece.event.trail = []) := by
  obtain ⟨stack, hopens, hline, htext⟩ := exists_position hmain hpiece
  rw [htarget] at hline htext
  rcases hopens.eq_top_or_concat with ⟨htrail, rfl⟩ | ⟨earlier, file, rfl⟩
  · rw [Documents.linesAt_nil, Project.documents, List.getElem?_map] at hline
    obtain ⟨path, hcall, -⟩ := Option.map_eq_some_iff.mp hline
    obtain ⟨hne, hends, hstarts⟩ := heading_bounds project path
    have hheading : piece.text = project.heading path := by
      simp [htext, Project.eventAt, Project.pieceText, hcall]
    rw [hheading]
    exact ⟨hne, hends, iff_of_true hstarts htrail⟩
  · rw [Documents.linesAt_concat, Project.documents, List.getElem?_map] at hline
    obtain ⟨line, hfile, hmap⟩ := Option.map_eq_some_iff.mp hline
    obtain ⟨⟨name, header⟩, hincluded, -⟩ := Option.map_eq_some_iff.mp hmap
    obtain ⟨hne, hends, hstarts⟩ := includeComment_bounds name
    have hcomment : piece.text = includeComment name ++
        if target ∈ earlier ++ [file] then project.cycleComment target else [] := by
      rw [htext, Project.eventAt, Project.pieceText, List.getLast?_concat]
      dsimp only
      rw [hfile, Option.bind_some, hincluded, Option.map_some, Option.getD_some]
      congr 1
      split <;> simp
    have htrail : piece.event.trail ≠ [] := by
      intro hnil
      rw [hnil] at hopens
      simpa [Documents.path, Documents.pathFrom] using hopens.path_eq
    rw [hcomment]
    refine ⟨by simp [hne], ?_, iff_of_false ?_ htrail⟩
    · split
      · exact closes_cycleComment project target _
      · rw [List.append_nil]
        exact hends
    · rw [startsWithNewline_append hne, hstarts]
      simp

omit [DecidableEq Path] in
/-- A line of a guard closes. -/
theorem closes_of_added {file : Path} {line : Text} (hadded : project.isAdded file i = true)
    (hline : (project.preparedLines file)[i]? = some line) : closes line = true := by
  rw [Project.isAdded] at hadded
  cases honce : splitAtOnce (project.renamedText file) with
  | none => simp [honce] at hadded
  | some parts =>
    obtain ⟨first, second⟩ := parts
    obtain ⟨guardLines, own, added, htwo, hcloses, hlines, hsame⟩ :=
      Project.preparedLines_once honce
    have hlength := hsame.length_eq
    simp only [honce, Bool.and_eq_true, Bool.or_eq_true, decide_eq_true_eq] at hadded
    obtain ⟨hstart, hplace⟩ := hadded
    rw [hlines, List.getElem?_append_right hstart] at hline
    refine hcloses line (List.mem_append.mpr ?_)
    rcases hplace with hguard | hend
    · rw [List.getElem?_append_left (by omega)] at hline
      exact Or.inl (List.mem_of_getElem? hline)
    · rw [List.getElem?_append_right (by omega), List.getElem?_append_right (by omega)] at hline
      exact Or.inr (List.mem_of_getElem? hline)

theorem trail_ne_nil {trail : List ℕ} {stack : List Path} {file : Path}
    (hopens : project.documents.Opens trail (stack ++ [file])) : trail ≠ [] := by
  rintro rfl
  simpa [Documents.path, Documents.pathFrom] using hopens.path_eq

theorem isOwn_plain {trail : List ℕ} {i : ℕ} {stack : List Path} {file : Path}
    (hopens : project.documents.Opens trail (stack ++ [file])) :
    project.isOwn (.plain trail i) = !project.isAdded file i := by
  simp [Project.isOwn, hopens.path_eq]

omit [DecidableEq Path] in
theorem target_of_own [DecidableEq Path] {event : Event Path} (hown : project.isOwn event = true) :
    event.target = none := by
  cases event with
  | plain trail i => rfl
  | met trail i target outcome => simp [Project.isOwn] at hown

theorem text_ne_nil (hmain : main project fuel = some pieces) (hpiece : piece ∈ pieces) :
    piece.text ≠ [] := by
  cases hevent : piece.event with
  | plain trail i =>
    obtain ⟨stack, file, -, hline, -⟩ := exists_line hmain hpiece hevent
    exact (line_of_splitLines hline).1
  | met trail i target outcome =>
    exact (comment_of_met hmain hpiece (by rw [hevent]; rfl : piece.event.target = some target)).1

/-- What does not close is a line of a file. -/
theorem exists_runsOn (hmain : main project fuel = some pieces) (hpiece : piece ∈ pieces)
    (hopen : closes piece.text = false) :
    ∃ stack file, project.documents.Opens piece.event.trail (stack ++ [file]) ∧
      project.RunsOn file piece.event.line piece.text ∧ project.isOwn piece.event = true ∧
      piece.event = .plain piece.event.trail piece.event.line := by
  cases hevent : piece.event with
  | met trail i target outcome =>
    have hcloses :=
      (comment_of_met hmain hpiece (by rw [hevent]; rfl : piece.event.target = some target)).2.1
    simp [hcloses] at hopen
  | plain trail i =>
    obtain ⟨stack, file, hopens, hline, hincluded⟩ := exists_line hmain hpiece hevent
    refine ⟨stack, file, hopens, ⟨hline, hincluded, hopen⟩, ?_, rfl⟩
    rw [isOwn_plain hopens]
    by_contra hadded
    rw [Bool.not_eq_true', Bool.not_eq_false] at hadded
    simp [closes_of_added hadded hline] at hopen

/-- A line that does not close is in the output whenever its file is expanded. -/
theorem exists_piece (hmain : main project fuel = some pieces) {stack : List Path} {file : Path}
    {line : Text} (hopens : project.documents.Opens trail (stack ++ [file]))
    (hruns : project.RunsOn file i line) :
    ∃ before after, pieces = before ++ ⟨.plain trail i, line⟩ :: after := by
  obtain ⟨final, hexpands⟩ := main_expands hmain
  have hplain := hexpands.plain_iff.mpr ⟨_, hopens, by
    rw [Documents.linesAt_concat, Project.documents, List.getElem?_map, hruns.1, Option.map_some,
      hruns.2.1, Option.map_none]⟩
  obtain ⟨piece, hpiece, hevent⟩ := List.mem_map.mp hplain
  obtain ⟨path, source, hsource, htext, -⟩ := exists_line hmain hpiece hevent
  obtain rfl := hopens.last_eq hsource.path_eq
  obtain ⟨before, after, hsplit⟩ := List.append_of_mem hpiece
  refine ⟨before, after, hsplit.trans ?_⟩
  rw [← hevent, Option.some.inj (hruns.1.symm.trans htext)]

/-- What comes behind a copied line, as the pieces have it. -/
def Project.followerIn (project : Project Path) (trail : List ℕ) (i : ℕ) :
    List (Piece Path) → Follower
  | [] => .footer
  | next :: _ =>
    if next.event.target.isSome then if next.event.trail = [] then .heading else .comment
    else if !project.isOwn next.event then .added next.text
    else if next.event.position = trail ++ [i + 1] then .sameFile
    else .otherFile

theorem followerIn_eq (hmain : main project fuel = some pieces)
    (hsplit : pieces = before ++ piece :: after) (hevent : piece.event = .plain trail i) :
    project.followerIn trail i after = project.follower trail i := by
  obtain ⟨final, hexpands⟩ := main_expands hmain
  have hevents : pieces.map Piece.event =
      before.map Piece.event ++ .plain trail i :: after.map Piece.event := by
    rw [hsplit, List.map_append, List.map_cons, hevent]
  have hnext := hexpands.traverses.next_eq (.top _) hevents
  have htop : project.documents.next [] = none := rfl
  rw [htop, Option.or_none, List.head?_map, Option.map_map] at hnext
  rw [Project.follower, ← hnext]
  cases after with
  | nil => rfl
  | cons next after =>
    have hmem : next ∈ pieces := hsplit ▸ by simp
    rw [Project.followerIn, List.head?_cons, Option.map_some]
    dsimp only [Function.comp_apply]
    cases hfollowing : next.event with
    | met other j target outcome =>
      obtain ⟨stack, hopens, hline, -⟩ := exists_position hmain hmem
      rw [hfollowing, Event.trail, Event.line, Event.target] at *
      rw [Option.isSome_some, if_pos rfl, hopens.path_eq, Option.bind_some]
      rcases hopens.eq_top_or_concat with ⟨htrail, rfl⟩ | ⟨earlier, file, rfl⟩
      · rw [if_pos htrail]
        rfl
      · rw [Documents.linesAt_concat] at hline
        rw [if_neg (trail_ne_nil hopens), List.getLast?_concat]
        dsimp only
        rw [hline]
    | plain other j =>
      obtain ⟨stack, file, hopens, hline, hincluded⟩ := exists_line hmain hmem hfollowing
      have hcopied : (project.documents.lines file)[j]? = some none := by
        rw [Project.documents, List.getElem?_map, hline, Option.map_some, hincluded,
          Option.map_none]
      rw [Event.trail, Event.line, Event.target, Option.isSome_none, if_neg (by simp),
        hopens.path_eq, Option.bind_some, List.getLast?_concat, isOwn_plain hopens]
      dsimp only
      rw [hcopied, hline, Bool.not_not]
      rfl

/-- What is copied and belongs to the file. -/
theorem complete_of_main (hmain : main project fuel = some pieces) {stack : List Path} {file : Path}
    (hopens : project.documents.Opens trail (stack ++ [file])) :
    project.ownCopies trail pieces = project.expectedLines file := by
  obtain ⟨final, hexpands⟩ := main_expands hmain
  rw [← Project.map_ownLines, ← hexpands.copiedAt_eq hopens, copiedAt, ← List.filterMap_eq_filter,
    List.filterMap_filterMap, List.map_filterMap, List.filterMap_map]
  refine List.filterMap_congr fun piece hpiece ↦ ?_
  cases hevent : piece.event with
  | met other i target outcome => simp [hevent, Project.isOwn, Event.copiedOn]
  | plain other i =>
    by_cases htrail : other = trail
    · subst htrail
      obtain ⟨before, source, hsource, hline, -⟩ := exists_line hmain hpiece hevent
      obtain rfl := hopens.last_eq hsource.path_eq
      cases hadded : project.isAdded source i with
      | true =>
        simp [hevent, Event.trail, Event.copiedOn, Project.isOwn, hopens.path_eq, hadded,
          Option.guard]
      | false =>
        simp [hevent, Event.trail, Event.copiedOn, Project.isOwn, hopens.path_eq, hadded, hline,
          Option.guard]
    · simp [hevent, Event.trail, Event.copiedOn, htrail]

end Pieces

/-! ### When the lines are preserved -/

section Preserved

variable {project : Project Path} {fuel : ℕ} {pieces : List (Piece Path)}

theorem isEncodable_append (first second : Text) :
    isEncodable (first ++ second) = (isEncodable first && isEncodable second) := List.all_append

omit [DecidableEq Path] in
theorem isEncodable_output (pieces : List (Piece Path)) :
    isEncodable (project.output pieces) = true ↔
      isEncodable project.bannerText = true ∧ ∀ piece ∈ pieces, isEncodable piece.text = true := by
  have hfooter : isEncodable footer = true := by decide +kernel
  have hpieces : isEncodable (textOf pieces) = true ↔
      ∀ piece ∈ pieces, isEncodable piece.text = true := by
    induction pieces with
    | nil => simp [textOf, isEncodable]
    | cons piece pieces ih =>
      rw [textOf_cons, isEncodable_append, Bool.and_eq_true, ih, List.forall_mem_cons]
  rw [Project.output, isEncodable_append, isEncodable_append, hfooter, Bool.and_true,
    Bool.and_eq_true, hpieces]

theorem encodable_iff (hmain : main project fuel = some pieces) :
    (∀ piece ∈ pieces, isEncodable piece.text = true) ↔
      ∀ trail stack i target, project.documents.Opens trail stack →
        (project.documents.linesAt stack)[i]? = some target →
        isEncodable (project.pieceText stack (Project.eventAt trail stack i target)) = true := by
  constructor
  · intro hall trail stack i target hopens hline
    obtain ⟨final, hexpands⟩ := main_expands hmain
    obtain ⟨event, hevent, rfl, rfl, rfl⟩ := hexpands.event_iff.mpr ⟨stack, hopens, hline⟩
    obtain ⟨piece, hpiece, rfl⟩ := List.mem_map.mp hevent
    obtain ⟨path, hpath, -, htext⟩ := exists_position hmain hpiece
    obtain rfl : path = stack := Option.some.inj (hpath.path_eq.symm.trans hopens.path_eq)
    rw [← htext]
    exact hall piece hpiece
  · intro hall piece hpiece
    obtain ⟨stack, hopens, hline, htext⟩ := exists_position hmain hpiece
    rw [htext]
    exact hall _ stack _ _ hopens hline

theorem readable_iff (hmain : main project fuel = some pieces) (limits : Limits Path) :
    (∀ trail file, (trail, file) ∈ openings (pieces.map Piece.event) →
        project.Readable limits file) ↔
      ∀ file, project.documents.Reachable file → project.Readable limits file := by
  obtain ⟨final, hexpands⟩ := main_expands hmain
  constructor
  · intro hall file hreachable
    obtain ⟨trail, hopening⟩ := hexpands.opened_of_reachable hreachable
    exact hall trail file hopening
  · intro hall trail file hopening
    obtain ⟨stack, hopens⟩ := hexpands.opened_iff.mp hopening
    exact hall file (hopens.reachable file (by simp))

theorem nested_iff (hmain : main project fuel = some pieces) (limits : Limits Path) :
    (∀ piece ∈ pieces, piece.event.target ≠ none →
        piece.event.trail.length < limits.nesting) ↔
      ∀ (trail : List ℕ) (stack : List Path) (i : ℕ) (target : Path),
        project.documents.Opens trail stack →
        (project.documents.linesAt stack)[i]? = some (some target) →
        trail.length < limits.nesting := by
  obtain ⟨final, hexpands⟩ := main_expands hmain
  constructor
  · intro hall trail stack i target hopens hline
    obtain ⟨event, hevent, rfl, rfl, htarget⟩ := hexpands.event_iff.mpr ⟨stack, hopens, hline⟩
    obtain ⟨piece, hpiece, rfl⟩ := List.mem_map.mp hevent
    exact hall piece hpiece (by simp [htarget])
  · intro hall piece hpiece htarget
    obtain ⟨target, htarget⟩ := Option.ne_none_iff_exists'.mp htarget
    obtain ⟨stack, hopens, hline, -⟩ := exists_position hmain hpiece
    exact hall _ stack _ target hopens (htarget ▸ hline)

/-- A newline behind a line of a file belongs to a heading, to a guard or to the footer. -/
theorem startsWithNewline_following (hmain : main project fuel = some pieces)
    {before after : List (Piece Path)} {next : Piece Path}
    (hsplit : pieces = before ++ next :: after) :
    startsWithNewline (textOf (next :: after) ++ footer) = startsWithNewline next.text := by
  have hmem : next ∈ pieces := hsplit ▸ by simp
  rw [textOf_cons, List.append_assoc, startsWithNewline_append (text_ne_nil hmain hmem)]

theorem completes_of_own (hmain : main project fuel = some pieces)
    (hown : ∀ before piece after, pieces = before ++ piece :: after →
      project.isOwn piece.event = true → project.OwnLine before piece after)
    {before after : List (Piece Path)} {piece : Piece Path}
    (hsplit : pieces = before ++ piece :: after) (hpiece : project.isOwn piece.event = true)
    (hopen : closes piece.text = false) :
    (project.followerIn piece.event.trail piece.event.line after).completes piece.text = true := by
  have hends := (hown before piece after hsplit hpiece).ends.resolve_left (by simp [hopen])
  cases after with
  | nil =>
    obtain ⟨-, hdangling⟩ := hends.resolve_right (by simp)
    simp [Project.followerIn, Follower.completes, hdangling]
  | cons next after =>
    have hsplit' : pieces = before ++ [piece] ++ next :: after := by rw [hsplit]; simp
    have hmem : next ∈ pieces := hsplit ▸ by simp
    rw [startsWithNewline_following hmain hsplit'] at hends
    rw [Project.followerIn]
    by_cases hmet : next.event.target.isSome = true
    · obtain ⟨target, htarget⟩ := Option.isSome_iff_exists.mp hmet
      obtain ⟨-, -, hstarts⟩ := comment_of_met hmain hmem htarget
      rw [if_pos hmet]
      by_cases hnil : next.event.trail = []
      · rw [if_pos hnil]
        rfl
      · rw [if_neg hnil]
        have hnot := mt hstarts.mp hnil
        obtain ⟨_, hhead, hnext⟩ := hends.resolve_left fun hfirst ↦ hnot hfirst.1
        obtain rfl := Option.some.inj hhead
        rcases hnext with hcontinues | ⟨-, hnewline⟩
        · rw [target_of_own hcontinues.2.1] at htarget
          simp at htarget
        · exact hnewline.resolve_right hnot
    · rw [if_neg hmet]
      have hnone : next.event.target = none := by simpa using hmet
      by_cases hnext : project.isOwn next.event = true
      · have hstarts := (hown _ next after hsplit' hnext).starts piece (by simp)
        obtain ⟨-, -, hposition, hdangling⟩ := hstarts.resolve_left (by simp [hopen])
        simp [hnext, hposition, Follower.completes, hdangling]
      · rcases hends with ⟨hstarts, hdangling⟩ | ⟨_, hhead, hbehind⟩
        · simp [hnext, Follower.completes, hstarts, hdangling]
        · obtain rfl := Option.some.inj hhead
          rcases hbehind with hcontinues | ⟨hsome, -⟩
          · exact absurd hcontinues.2.1 hnext
          · exact absurd hnone hsome

theorem own_of_completes (hmain : main project fuel = some pieces)
    (hcompletes : ∀ before piece after, pieces = before ++ piece :: after →
      closes piece.text = false →
      (project.followerIn piece.event.trail piece.event.line after).completes piece.text = true)
    {before after : List (Piece Path)} {piece : Piece Path}
    (hsplit : pieces = before ++ piece :: after) (hown : project.isOwn piece.event = true) :
    project.OwnLine before piece after := by
  have hnone := target_of_own hown
  constructor
  · intro previous hlast
    obtain ⟨earlier, rfl⟩ := List.getLast?_eq_some_iff.mp hlast
    refine or_iff_not_imp_left.mpr fun hopen ↦ ?_
    rw [Bool.not_eq_true] at hopen
    have hsplit' : pieces = earlier ++ previous :: piece :: after := by rw [hsplit]; simp
    have hmem : previous ∈ pieces := hsplit' ▸ by simp
    obtain ⟨-, -, -, -, hprevious, -⟩ := exists_runsOn hmain hmem hopen
    have hfollowing := hcompletes earlier previous _ hsplit' hopen
    by_cases hposition : piece.event.position =
        previous.event.trail ++ [previous.event.line + 1]
    · simp [Project.followerIn, hnone, hown, hposition, Follower.completes] at hfollowing
      exact ⟨hprevious, hown, hposition, hfollowing⟩
    · simp [Project.followerIn, hnone, hown, hposition, Follower.completes] at hfollowing
  · refine or_iff_not_imp_left.mpr fun hopen ↦ ?_
    rw [Bool.not_eq_true] at hopen
    have hbehind := hcompletes before piece after hsplit hopen
    cases after with
    | nil =>
      simp [Project.followerIn, Follower.completes] at hbehind
      have hfooter : startsWithNewline footer = true := by decide +kernel
      exact Or.inl ⟨hfooter, hbehind⟩
    | cons next after =>
      have hsplit' : pieces = before ++ [piece] ++ next :: after := by rw [hsplit]; simp
      have hmem : next ∈ pieces := hsplit ▸ by simp
      rw [startsWithNewline_following hmain hsplit']
      rw [Project.followerIn] at hbehind
      by_cases hmet : next.event.target.isSome = true
      · obtain ⟨target, htarget⟩ := Option.isSome_iff_exists.mp hmet
        obtain ⟨-, -, hstarts⟩ := comment_of_met hmain hmem htarget
        refine Or.inr ⟨next, rfl, Or.inr ⟨by simp [htarget], ?_⟩⟩
        rw [if_pos hmet] at hbehind
        by_cases hnil : next.event.trail = []
        · exact Or.inr (hstarts.mpr hnil)
        · rw [if_neg hnil] at hbehind
          exact Or.inl hbehind
      · rw [if_neg hmet] at hbehind
        by_cases hnext : project.isOwn next.event = true
        · by_cases hposition : next.event.position = piece.event.trail ++ [piece.event.line + 1]
          · simp [hnext, hposition, Follower.completes] at hbehind
            exact Or.inr ⟨next, rfl, Or.inl ⟨hown, hnext, hposition, hbehind⟩⟩
          · simp [hnext, hposition, Follower.completes] at hbehind
        · simp [hnext, Follower.completes] at hbehind
          exact Or.inl hbehind

theorem preserved_of_linesApart (hmain : main project fuel = some pieces) {limits : Limits Path}
    (hapart : project.LinesApart limits) : project.Preserved limits pieces := by
  refine ⟨hapart.listed, (readable_iff hmain limits).mpr hapart.readable,
    (nested_iff hmain limits).mpr hapart.nested, ?_,
    fun trail stack file hopens ↦ complete_of_main hmain hopens, ?_⟩
  · rw [isEncodable_output, encodable_iff hmain]
    exact ⟨hapart.encodable_banner, hapart.encodable⟩
  intro before piece after hsplit hown
  refine own_of_completes hmain ?_ hsplit hown
  intro before piece after hsplit hopen
  have hpiece : piece ∈ pieces := hsplit ▸ by simp
  obtain ⟨stack, file, hopens, hruns, -, hevent⟩ := exists_runsOn hmain hpiece hopen
  rw [followerIn_eq hmain hsplit hevent]
  exact hapart.completed _ stack file _ _ hopens hruns

theorem linesApart_of_preserved (hmain : main project fuel = some pieces) {limits : Limits Path}
    (hpreserved : project.Preserved limits pieces) : project.LinesApart limits := by
  have hwritten := (isEncodable_output pieces).mp hpreserved.written
  refine ⟨hpreserved.listed, (readable_iff hmain limits).mp hpreserved.readable,
    (nested_iff hmain limits).mp hpreserved.nested, hwritten.1, (encodable_iff hmain).mp hwritten.2,
    ?_⟩
  intro trail stack file i line hopens hruns
  obtain ⟨before, after, hsplit⟩ := exists_piece hmain hopens hruns
  have hpiece : ⟨.plain trail i, line⟩ ∈ pieces := hsplit ▸ by simp
  obtain ⟨-, -, -, -, hown, -⟩ := exists_runsOn hmain hpiece hruns.2.2
  rw [← followerIn_eq hmain hsplit rfl]
  exact completes_of_own hmain hpreserved.own hsplit hown hruns.2.2

end Preserved

/-! ### A file without a final newline -/

/-- A host with a few files. A path is the list of its parts. -/
def smallHost (files : List (List Text × Text)) : Host (List Text) where
  resolve := some
  files := files.map Prod.fst
  resolve_file _ _ := rfl
  content path := ((files.find? fun file ↦ file.1 = path).map Prod.snd).getD []
  join dir name := dir ++ [name]
  parent path := path.dropLast
  parents path := path.dropLast.inits.reverse
  name path := path.getLast?.getD []
  suffix path :=
    let reversed := (path.getLast?.getD []).reverse
    let extension := reversed.takeWhile (· ≠ 0x2E)
    if extension.length < reversed.length then 0x2E :: extension.reverse else []
  pathStr path := path.flatMap (0x2F :: ·)
  hexdigest _ := str "da39a3ee5e6b4b0d3255bfef95601890afd80709"
  hexdigest_hex _ := by decide +kernel
  isWord c := 0x30 ≤ c && c ≤ 0x39 || 0x41 ≤ c && c ≤ 0x5A || c = 0x5F || 0x61 ≤ c && c ≤ 0x7A

/-- `a.h` includes `b.h`, which has no final newline. -/
def openEnded : Project (List Text) where
  host := smallHost [([str "include", str "a.h"], str "#include \"b.h\"\nint a;\n"),
    ([str "include", str "b.h"], str "int b;")]
  roots := [[str "include"]]
  extraHeaders := [[str "include", str "a.h"]]
  sources := []
  lwipDir := [str "lwip"]
  given_files := by decide +kernel

end ZigbeeRemote.Client.SingleFile
