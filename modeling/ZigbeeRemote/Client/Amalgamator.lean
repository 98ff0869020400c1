import ZigbeeRemote.Foundation.IncludeTrails
import ZigbeeRemote.Client.SourceText

/-!
# The single-file client

`zb_rpc_client/generate_single_file.py` writes one header from the sources of the client and of the
network stack. `Amalgamator.expand_file` copies a file and puts each included project header in the
place of its include line; it emits a header only once, unless the header is meant to be repeated.
`main` calls it for the extra headers, for the headers that the sources include, and for the sources.

The recursion follows the include graph, which may have cycles: a file is marked as emitted only
when its expansion is complete, a repeatable one never. `expandFile` has a fuel argument, and
`amalgamation_complete` says that a fuel above the number of files is always enough, that each file
within reach is emitted once, line by line, and that no include line of a project header is copied.

The output is kept in the pieces that `expand_file` appends to its list. Each piece has a label, the
place in the sources that it comes from, as a trail of line numbers.
-/

set_option autoImplicit false
set_option relaxedAutoImplicit false

namespace ZigbeeRemote.Client.SingleFile

open Foundation

/-! ### Files -/

/-- What the script sees of the file system and of the Python library. The definitions below take it
that `resolve` raises nothing but `OSError` and `is_file` nothing at all, which no path does that is
short enough and without a NUL, and that the recursion limit of the interpreter is not reached. -/
structure Host (Path : Type) where
  /-- `Path.resolve`, which may raise `OSError`. -/
  resolve : Path → Option Path
  /-- The resolved paths for which `is_file` holds. -/
  files : List Path
  resolve_file : ∀ path ∈ files, resolve path = some path
  /-- What is in a file, decoded with `errors="surrogateescape"`. -/
  content : Path → Text
  /-- The `/` operator. -/
  join : Path → Text → Path
  parent : Path → Path
  parents : Path → List Path
  name : Path → Text
  suffix : Path → Text
  /-- `str(path)`. -/
  pathStr : Path → Text
  /-- `hashlib.sha1(...).hexdigest()`. -/
  hexdigest : Text → Text
  hexdigest_hex : ∀ text, ∀ c ∈ hexdigest text, c ∈ str "0123456789abcdef"
  /-- The characters that `\w` matches. -/
  isWord : CodePoint → Bool

/-- `REPEATABLE_HEADERS`. -/
def repeatableHeaders : List Text := [str "memp_std.h"]

/-- `PER_FILE_RENAMES`: a file name, and an identifier with its new name. -/
def perFileRenames : List (Text × Text × Text) :=
  [(str "ip4.c", str "ip4_input", str "lwip_ip4_input"),
    (str "ip6_frag.c", str "reassdatagrams", str "ip6_reassdatagrams")]

/-- The input of `main`: the directories of the project, the extra headers and the sources, all of
which exist. -/
structure Project (Path : Type) where
  host : Host Path
  roots : List Path
  extraHeaders : List Path
  sources : List Path
  lwipDir : Path
  given_files : ∀ path ∈ extraHeaders ++ sources, ∃ file ∈ host.files, host.resolve path = some file

variable {Path : Type} [DecidableEq Path]

namespace Project

/-- `is_project_file`. -/
def isProjectFile (project : Project Path) (path : Path) : Bool :=
  project.roots.any fun root ↦ path = root || root ∈ project.host.parents path

/-- `project_header`. -/
def projectHeader (project : Project Path) (name : Text) (currentDir : Path) : Option Path :=
  let candidates := project.host.join currentDir name ::
    project.roots.map fun root ↦ project.host.join root name
  candidates.findSome? fun candidate ↦
    (project.host.resolve candidate).filter fun resolved ↦
      resolved ∈ project.host.files && project.isProjectFile resolved

/-- `read_text(errors="surrogateescape")`. -/
def readText (project : Project Path) (path : Path) : Text :=
  universalNewlines false (project.host.content path)

/-- `direct_includes`. -/
def directIncludes (project : Project Path) (path : Path) : List Path :=
  ((splitLines (project.readText path)).filterMap fun line ↦
    (includeRe (bare line)).bind fun name ↦
      project.projectHeader name (project.host.parent path)).filter fun header ↦
        !repeatableHeaders.contains (project.host.name header)

/-- The text of a file after the renames. -/
def renamedText (project : Project Path) (resolved : Path) : Text :=
  if [str ".c", str ".cpp", str ".cc"].contains (project.host.suffix resolved) then
    perFileRenames.foldl (fun text (file, old, new) ↦
      if file = project.host.name resolved then
        replaceWord project.host.isWord old new 0 false text
      else text) (project.readText resolved)
  else project.readText resolved

/-- The guard that replaces a `#pragma once`. -/
def guard (project : Project Path) (resolved : Path) : Text :=
  str "ZB_AMALGAM_ONCE_" ++ (project.host.hexdigest (project.host.pathStr resolved)).take 16

/-- The text of a file as `expand_file` splits it into lines. -/
def preparedText (project : Project Path) (resolved : Path) : Text :=
  match splitAtOnce (project.renamedText resolved) with
  | none => project.renamedText resolved
  | some (before, after) =>
    joinNewlines (before ++ [str "#ifndef " ++ project.guard resolved,
      str "#define " ++ project.guard resolved] ++ after) ++
        str "\n#endif /* " ++ project.guard resolved ++ str " */\n"

def preparedLines (project : Project Path) (resolved : Path) : List Text :=
  splitLines (project.preparedText resolved)

/-- The header that a line includes, and the name by which it does. -/
def included (project : Project Path) (currentDir : Path) (line : Text) : Option (Text × Path) :=
  (includeRe line).bind fun name ↦ (project.projectHeader name currentDir).map fun header ↦
    (name, header)

end Project

/-! ### Expansion -/

/-- The comment above what a call of `main` returns. -/
def Project.heading (project : Project Path) (path : Path) : Text :=
  str "\n/* ===== " ++ project.host.name path ++ str " ===== */\n"

/-- The comment in the place of an include line. -/
def includeComment (name : Text) : Text := str "/* amalgam: " ++ name ++ str " */\n"

/-- The comment on an include cycle. -/
def Project.cycleComment (project : Project Path) (path : Path) : Text :=
  str "/* amalgam: recursive include of " ++ project.host.name path ++ str " skipped */\n"

/-- What is appended to the output: a copied line, or the comment in the place of an include line. -/
structure Piece (Path : Type) where
  event : Event Path
  text : Text
  deriving DecidableEq

/-- What `expand_file` returns: the comment on an include cycle, or the pieces of the file. -/
structure Expansion (Path : Type) where
  outcome : Outcome
  notice : Text
  pieces : List (Piece Path)

variable (project : Project Path)

/-- The loop of `expand_file` over the lines of a file. -/
def expandLines
    (expandFile : List ℕ → Path → List Path → Option (Expansion Path × List Path))
    (currentDir : Path) (trail : List ℕ) :
    ℕ → List Text → List Path → Option (List (Piece Path) × List Path)
  | _, [], emitted => some ([], emitted)
  | i, line :: lines, emitted =>
    match project.included currentDir line with
    | none =>
      (expandLines expandFile currentDir trail (i + 1) lines emitted).map fun (pieces, emitted) ↦
        (⟨.plain trail i, line⟩ :: pieces, emitted)
    | some (name, header) =>
      (expandFile (trail ++ [i]) header emitted).bind fun (expansion, emitted) ↦
        (expandLines expandFile currentDir trail (i + 1) lines emitted).map fun (pieces, emitted) ↦
          (⟨.met trail i header expansion.outcome, includeComment name ++ expansion.notice⟩ ::
            (expansion.pieces ++ pieces), emitted)

/-- `expand_file`. `none` means that it has not returned: the fuel is used up, or an exception. -/
def expandFile : ℕ → List Path → List ℕ → Path → List Path → Option (Expansion Path × List Path)
  | 0, _, _, _, _ => none
  | fuel + 1, stack, trail, path, emitted =>
    (project.host.resolve path).bind fun resolved ↦
      let repeatable := repeatableHeaders.contains (project.host.name resolved)
      if !repeatable && resolved ∈ emitted then some (⟨.already, [], []⟩, emitted)
      else if resolved ∈ stack then
        some (⟨.recursive, project.cycleComment path, []⟩, emitted)
      else if resolved ∈ project.host.files then
        (expandLines project (expandFile fuel (stack ++ [resolved])) (project.host.parent resolved)
          trail 0 (project.preparedLines resolved) emitted).map fun (pieces, emitted) ↦
            (⟨.opened, [], pieces⟩, if repeatable then emitted else resolved :: emitted)
      else none

/-- The paths for which `main` calls `expand_file`. -/
def Project.calls : List Path :=
  project.extraHeaders ++ project.sources.flatMap project.directIncludes ++ project.sources

/-- The loops of `main`. -/
def expandCalls (fuel : ℕ) :
    ℕ → List Path → List Path → Option (List (Piece Path) × List Path)
  | _, [], emitted => some ([], emitted)
  | i, path :: paths, emitted =>
    (project.host.resolve path).bind fun resolved ↦
      (expandFile project fuel [] [i] path emitted).bind fun (expansion, emitted) ↦
        (expandCalls fuel (i + 1) paths emitted).map fun (pieces, emitted) ↦
          (⟨.met [] i resolved expansion.outcome, project.heading path ++ expansion.notice⟩ ::
            (expansion.pieces ++ pieces), emitted)

/-- `main`: the preamble and the body. -/
def main (fuel : ℕ) : Option (List (Piece Path)) :=
  (expandCalls project fuel 0 project.calls []).map Prod.fst

/-! ### The include graph -/

/-- The files as documents that include each other. The top level has the calls of `main`. -/
def Project.documents : Documents Path where
  lines path := (project.preparedLines path).map fun line ↦
    (project.included (project.host.parent path) line).map Prod.snd
  again path := repeatableHeaders.contains (project.host.name path)
  top := project.calls.map project.host.resolve

variable {project}

theorem projectHeader_mem {name : Text} {currentDir header : Path}
    (hheader : project.projectHeader name currentDir = some header) :
    header ∈ project.host.files := by
  obtain ⟨candidate, -, hcandidate⟩ := List.exists_of_findSome?_eq_some hheader
  obtain ⟨-, hproject⟩ := Option.filter_eq_some_iff.mp hcandidate
  simp only [Bool.and_eq_true, decide_eq_true_eq] at hproject
  exact hproject.1

theorem included_mem {currentDir header : Path} {line name : Text}
    (hincluded : project.included currentDir line = some (name, header)) :
    header ∈ project.host.files := by
  obtain ⟨_, -, hmap⟩ := Option.bind_eq_some_iff.mp hincluded
  obtain ⟨_, hheader, heq⟩ := Option.map_eq_some_iff.mp hmap
  rw [← (Prod.mk.inj heq).2]
  exact projectHeader_mem hheader

/-- The calls of `main` are for files. -/
theorem calls_files {path : Path} (hpath : path ∈ project.calls) :
    ∃ file ∈ project.host.files, project.host.resolve path = some file := by
  rcases List.mem_append.mp hpath with hpath | hpath
  · rcases List.mem_append.mp hpath with hpath | hpath
    · exact project.given_files path (List.mem_append_left _ hpath)
    · obtain ⟨source, -, hheader⟩ := List.mem_flatMap.mp hpath
      obtain ⟨line, -, hline⟩ := List.mem_filterMap.mp (List.mem_filter.mp hheader).1
      obtain ⟨name, -, hname⟩ := Option.bind_eq_some_iff.mp hline
      have hfile := projectHeader_mem hname
      exact ⟨path, hfile, project.host.resolve_file path hfile⟩
  · exact project.given_files path (List.mem_append_right _ hpath)

section Expands

variable {stack : List Path} {trail : List ℕ} {i : ℕ} {emitted after : List Path}

/-- The loop of `expand_file` follows the lines of the file. -/
theorem expandLines_expands
    {expand : List ℕ → Path → List Path → Option (Expansion Path × List Path)}
    (hexpand : ∀ {trail : List ℕ} {header : Path} {emitted after : List Path}
      {expansion : Expansion Path}, header ∈ project.host.files →
      expand trail header emitted = some (expansion, after) →
      Visits project.documents stack trail header emitted expansion.outcome
        (expansion.pieces.map Piece.event) after)
    {currentDir : Path} {lines : List Text} {pieces : List (Piece Path)}
    (hlines : expandLines project expand currentDir trail i lines emitted = some (pieces, after)) :
    Expands project.documents stack trail i
      (lines.map fun line ↦ (project.included currentDir line).map Prod.snd) emitted
      (pieces.map Piece.event) after := by
  induction lines generalizing i emitted pieces with
  | nil =>
    obtain ⟨rfl, rfl⟩ := Prod.mk.inj (Option.some.inj hlines)
    exact .nil
  | cons line lines ih =>
    rw [expandLines] at hlines
    rw [List.map_cons]
    cases hincluded : project.included currentDir line with
    | none =>
      rw [hincluded] at hlines
      obtain ⟨⟨rest, final⟩, hrest, heq⟩ := Option.map_eq_some_iff.mp hlines
      obtain ⟨rfl, rfl⟩ := Prod.mk.inj heq
      exact .plain (ih hrest)
    | some found =>
      obtain ⟨name, header⟩ := found
      rw [hincluded] at hlines
      obtain ⟨⟨expansion, middle⟩, hinner, hlater⟩ := Option.bind_eq_some_iff.mp hlines
      obtain ⟨⟨rest, final⟩, hrest, heq⟩ := Option.map_eq_some_iff.mp hlater
      obtain ⟨rfl, rfl⟩ := Prod.mk.inj heq
      rw [List.map_cons, List.map_append]
      exact (hexpand (included_mem hincluded) hinner).expands (ih hrest)

/-- `expand_file` visits a file. -/
theorem expandFile_visits {fuel : ℕ} {path resolved : Path} {expansion : Expansion Path}
    (hresolve : project.host.resolve path = some resolved)
    (hexpand : expandFile project fuel stack trail path emitted = some (expansion, after)) :
    Visits project.documents stack trail resolved emitted expansion.outcome
      (expansion.pieces.map Piece.event) after := by
  induction fuel generalizing stack trail path resolved emitted expansion after with
  | zero => simp [expandFile] at hexpand
  | succ fuel ih =>
    rw [expandFile, hresolve, Option.bind_some] at hexpand
    dsimp only at hexpand
    by_cases hemitted : (!repeatableHeaders.contains (project.host.name resolved) &&
        decide (resolved ∈ emitted)) = true
    · rw [if_pos hemitted] at hexpand
      obtain ⟨rfl, rfl⟩ := Prod.mk.inj (Option.some.inj hexpand)
      simp only [Bool.and_eq_true, Bool.not_eq_true', decide_eq_true_eq] at hemitted
      exact .already hemitted.1 hemitted.2
    have hfresh : project.documents.again resolved = false → resolved ∉ emitted :=
      fun hagain hmem ↦ hemitted (Bool.and_eq_true_iff.mpr
        ⟨by rw [Bool.not_eq_true']; exact hagain, decide_eq_true hmem⟩)
    rw [if_neg hemitted] at hexpand
    by_cases hstack : resolved ∈ stack
    · rw [if_pos hstack] at hexpand
      obtain ⟨rfl, rfl⟩ := Prod.mk.inj (Option.some.inj hexpand)
      exact .recursive hfresh hstack
    rw [if_neg hstack] at hexpand
    by_cases hfile : resolved ∈ project.host.files
    · rw [if_pos hfile] at hexpand
      obtain ⟨⟨pieces, middle⟩, hlines, heq⟩ := Option.map_eq_some_iff.mp hexpand
      obtain ⟨rfl, rfl⟩ := Prod.mk.inj heq
      refine .opened hfresh hstack (expandLines_expands ?_ hlines)
      intro trail header emitted after expansion hheader hinner
      exact ih (project.host.resolve_file header hheader) hinner
    · rw [if_neg hfile] at hexpand
      exact absurd hexpand (by simp)

/-- `main` expands the calls. -/
theorem expandCalls_expands {fuel : ℕ} {paths : List Path} {pieces : List (Piece Path)}
    (hcalls : expandCalls project fuel i paths emitted = some (pieces, after)) :
    Expands project.documents [] [] i (paths.map project.host.resolve) emitted
      (pieces.map Piece.event) after := by
  induction paths generalizing i emitted pieces with
  | nil =>
    obtain ⟨rfl, rfl⟩ := Prod.mk.inj (Option.some.inj hcalls)
    exact .nil
  | cons path paths ih =>
    obtain ⟨resolved, hresolve, hlater⟩ := Option.bind_eq_some_iff.mp hcalls
    obtain ⟨⟨expansion, middle⟩, hexpand, hlater⟩ := Option.bind_eq_some_iff.mp hlater
    obtain ⟨⟨rest, final⟩, hrest, heq⟩ := Option.map_eq_some_iff.mp hlater
    obtain ⟨rfl, rfl⟩ := Prod.mk.inj heq
    rw [List.map_cons, List.map_cons, List.map_append, hresolve]
    exact (expandFile_visits hresolve hexpand : Visits _ [] ([] ++ [i]) _ _ _ _ _).expands (ih hrest)

theorem main_expands {fuel : ℕ} {pieces : List (Piece Path)}
    (hmain : main project fuel = some pieces) :
    ∃ after, Expands project.documents [] [] 0 project.documents.top [] (pieces.map Piece.event)
      after := by
  obtain ⟨⟨_, after⟩, hcalls, rfl⟩ := Option.map_eq_some_iff.mp hmain
  exact ⟨after, expandCalls_expands hcalls⟩

end Expands

/-! ### Termination -/

section Returns

variable {stack : List Path} {trail : List ℕ} {i : ℕ} {emitted : List Path}

theorem expandLines_isSome
    {expand : List ℕ → Path → List Path → Option (Expansion Path × List Path)}
    (hexpand : ∀ trail header emitted, header ∈ project.host.files →
      (expand trail header emitted).isSome) (currentDir : Path) (lines : List Text) :
    (expandLines project expand currentDir trail i lines emitted).isSome := by
  induction lines generalizing i emitted with
  | nil => rfl
  | cons line lines ih =>
    rw [expandLines]
    cases hincluded : project.included currentDir line with
    | none =>
      rw [Option.isSome_map]
      exact ih
    | some found =>
      obtain ⟨name, header⟩ := found
      obtain ⟨⟨expansion, middle⟩, hinner⟩ := Option.isSome_iff_exists.mp
        (hexpand (trail ++ [i]) header emitted (included_mem hincluded))
      dsimp only
      rw [hinner, Option.bind_some, Option.isSome_map]
      exact ih

/-- The files on the stack are different ones, so that it never has more than all of them. -/
theorem expandFile_isSome {fuel : ℕ} (hfuel : project.host.files.length < fuel + stack.length)
    (hnodup : stack.Nodup) (hfiles : ∀ file ∈ stack, file ∈ project.host.files) {path file : Path}
    (hresolve : project.host.resolve path = some file) (hfile : file ∈ project.host.files) :
    (expandFile project fuel stack trail path emitted).isSome := by
  induction fuel generalizing stack trail path file emitted with
  | zero =>
    have hle := (List.subperm_of_subset hnodup hfiles).length_le
    omega
  | succ fuel ih =>
    rw [expandFile, hresolve, Option.bind_some]
    simp only [if_pos hfile]
    split
    · rfl
    split
    · rfl
    · rename_i hstack
      rw [Option.isSome_map]
      refine expandLines_isSome (fun trail header emitted hheader ↦ ih ?_ ?_ ?_
        (project.host.resolve_file header hheader) hheader) _ _
      · rw [List.length_append, List.length_singleton]
        omega
      · rw [← List.concat_eq_append]
        exact hnodup.concat hstack
      · intro other hother
        rcases List.mem_append.mp hother with hother | hother
        · exact hfiles other hother
        · exact List.mem_singleton.mp hother ▸ hfile

theorem main_isSome {fuel : ℕ} (hfuel : project.host.files.length < fuel) :
    (main project fuel).isSome := by
  have hcalls (paths : List Path) (hpaths : ∀ path ∈ paths, path ∈ project.calls) (i : ℕ)
      (emitted : List Path) : (expandCalls project fuel i paths emitted).isSome := by
    induction paths generalizing i emitted with
    | nil => rfl
    | cons path paths ih =>
      obtain ⟨file, hfile, hresolve⟩ := calls_files (hpaths path List.mem_cons_self)
      obtain ⟨⟨expansion, middle⟩, hexpand⟩ := Option.isSome_iff_exists.mp
        (expandFile_isSome hfuel List.nodup_nil (by simp) hresolve hfile :
          (expandFile project fuel [] [i] path emitted).isSome)
      rw [expandCalls, hresolve, Option.bind_some, hexpand, Option.bind_some, Option.isSome_map]
      exact ih (fun other hother ↦ hpaths other (List.mem_cons_of_mem path hother)) _ _
  rw [main, Option.isSome_map]
  exact hcalls project.calls (fun _ hpath ↦ hpath) 0 []

/-- More fuel does not change what the loop does. -/
theorem expandLines_mono
    {expand more : List ℕ → Path → List Path → Option (Expansion Path × List Path)}
    (hmore : ∀ {trail header emitted result}, expand trail header emitted = some result →
      more trail header emitted = some result) {currentDir : Path} {lines : List Text}
    {result : List (Piece Path) × List Path}
    (hlines : expandLines project expand currentDir trail i lines emitted = some result) :
    expandLines project more currentDir trail i lines emitted = some result := by
  induction lines generalizing i emitted result with
  | nil => exact hlines
  | cons line lines ih =>
    rw [expandLines] at hlines ⊢
    cases hincluded : project.included currentDir line with
    | none =>
      rw [hincluded] at hlines
      obtain ⟨rest, hrest, rfl⟩ := Option.map_eq_some_iff.mp hlines
      exact Option.map_eq_some_iff.mpr ⟨rest, ih hrest, rfl⟩
    | some found =>
      rw [hincluded] at hlines
      obtain ⟨inner, hinner, hlater⟩ := Option.bind_eq_some_iff.mp hlines
      obtain ⟨rest, hrest, rfl⟩ := Option.map_eq_some_iff.mp hlater
      exact Option.bind_eq_some_iff.mpr
        ⟨inner, hmore hinner, Option.map_eq_some_iff.mpr ⟨rest, ih hrest, rfl⟩⟩

theorem expandFile_succ {fuel : ℕ} {path : Path} {result : Expansion Path × List Path}
    (hexpand : expandFile project fuel stack trail path emitted = some result) :
    expandFile project (fuel + 1) stack trail path emitted = some result := by
  induction fuel generalizing stack trail path emitted result with
  | zero => simp [expandFile] at hexpand
  | succ fuel ih =>
    rw [expandFile] at hexpand ⊢
    obtain ⟨resolved, hresolve, hlater⟩ := Option.bind_eq_some_iff.mp hexpand
    rw [hresolve, Option.bind_some]
    dsimp only at hlater ⊢
    split at hlater
    · rename_i hemitted
      rw [if_pos hemitted]
      exact hlater
    rename_i hemitted
    rw [if_neg hemitted]
    split at hlater
    · rename_i hstack
      rw [if_pos hstack]
      exact hlater
    rename_i hstack
    rw [if_neg hstack]
    split at hlater
    · rename_i hfile
      rw [if_pos hfile]
      obtain ⟨rest, hlines, rfl⟩ := Option.map_eq_some_iff.mp hlater
      exact Option.map_eq_some_iff.mpr ⟨rest, expandLines_mono ih hlines, rfl⟩
    · exact absurd hlater (by simp)

theorem main_succ {fuel : ℕ} {pieces : List (Piece Path)} (hmain : main project fuel = some pieces) :
    main project (fuel + 1) = some pieces := by
  have hcalls {i : ℕ} {paths emitted : List Path} {result : List (Piece Path) × List Path}
      (hresult : expandCalls project fuel i paths emitted = some result) :
      expandCalls project (fuel + 1) i paths emitted = some result := by
    induction paths generalizing i emitted result with
    | nil => exact hresult
    | cons path paths ih =>
      obtain ⟨resolved, hresolve, hlater⟩ := Option.bind_eq_some_iff.mp hresult
      obtain ⟨inner, hinner, hlater⟩ := Option.bind_eq_some_iff.mp hlater
      obtain ⟨rest, hrest, rfl⟩ := Option.map_eq_some_iff.mp hlater
      exact Option.bind_eq_some_iff.mpr ⟨resolved, hresolve, Option.bind_eq_some_iff.mpr
        ⟨inner, expandFile_succ hinner, Option.map_eq_some_iff.mpr ⟨rest, ih hrest, rfl⟩⟩⟩
  obtain ⟨result, hresult, rfl⟩ := Option.map_eq_some_iff.mp hmain
  exact Option.map_eq_some_iff.mpr ⟨result, hcalls hresult, rfl⟩

variable (project) in
/-- `main` returns, and it is always the same. -/
theorem main_returns : ∃ pieces, ∀ fuel, project.host.files.length < fuel →
    main project fuel = some pieces := by
  obtain ⟨pieces, hpieces⟩ := Option.isSome_iff_exists.mp
    (main_isSome (Nat.lt_succ_self project.host.files.length))
  refine ⟨pieces, fun fuel hfuel ↦ ?_⟩
  obtain ⟨more, rfl⟩ := Nat.exists_eq_add_of_le (Nat.succ_le_of_lt hfuel)
  induction more with
  | zero => exact hpieces
  | succ more ih => exact main_succ (ih (by omega))

end Returns

/-! ### Texts -/

/-- What is written at a line of the last file of a path, or at a call of `main`. -/
def Project.pieceText (project : Project Path) (path : List Path) : Event Path → Text
  | .plain _ i => (path.getLast?.bind fun file ↦ (project.preparedLines file)[i]?).getD []
  | .met _ i target outcome =>
    (match path.getLast? with
      | none => (project.calls[i]?.map project.heading).getD []
      | some file =>
        (((project.preparedLines file)[i]?.bind (project.included (project.host.parent file))).map
          fun found ↦ includeComment found.1).getD []) ++
      if outcome = .recursive then project.cycleComment target else []

/-- The pieces have the texts that their labels say. -/
def Project.Written (project : Project Path) (pieces : List (Piece Path)) : Prop :=
  ∀ piece ∈ pieces, ∃ path, project.documents.path piece.event.trail = some path ∧
    piece.text = project.pieceText path piece.event

section Written

variable {stack : List Path} {trail : List ℕ} {i : ℕ} {emitted after : List Path}

theorem written_cons {piece : Piece Path} {pieces : List (Piece Path)} (path : List Path)
    (hpath : project.documents.path piece.event.trail = some path)
    (htext : piece.text = project.pieceText path piece.event) (hwritten : project.Written pieces) :
    project.Written (piece :: pieces) := by
  intro other hother
  rcases List.mem_cons.mp hother with rfl | hother
  · exact ⟨path, hpath, htext⟩
  · exact hwritten other hother

theorem written_append {first second : List (Piece Path)} (hfirst : project.Written first)
    (hsecond : project.Written second) : project.Written (first ++ second) := by
  intro piece hpiece
  exact (List.mem_append.mp hpiece).elim (hfirst piece) (hsecond piece)

theorem expandLines_written
    {expand : List ℕ → Path → List Path → Option (Expansion Path × List Path)} {file : Path}
    (hpath : project.documents.path trail = some (stack ++ [file]))
    (hexpand : ∀ {trail : List ℕ} {header : Path} {emitted after : List Path}
      {expansion : Expansion Path}, header ∈ project.host.files →
      project.documents.path trail = some (stack ++ [file] ++ [header]) →
      expand trail header emitted = some (expansion, after) → project.Written expansion.pieces ∧
        expansion.notice =
          if expansion.outcome = .recursive then project.cycleComment header else [])
    {lines : List Text} (hdrop : lines = (project.preparedLines file).drop i)
    {pieces : List (Piece Path)}
    (hlines : expandLines project expand (project.host.parent file) trail i lines emitted =
      some (pieces, after)) : project.Written pieces := by
  induction lines generalizing i emitted pieces with
  | nil =>
    obtain ⟨rfl, rfl⟩ := Prod.mk.inj (Option.some.inj hlines)
    simp [Project.Written]
  | cons line lines ih =>
    have hline : (project.preparedLines file)[i]? = some line := by
      have hhead := congrArg (·[0]?) hdrop
      rw [List.getElem?_drop, Nat.add_zero] at hhead
      exact hhead.symm
    have hnext : lines = (project.preparedLines file).drop (i + 1) := by
      rw [← List.drop_drop, ← hdrop, List.drop_one, List.tail_cons]
    rw [expandLines] at hlines
    cases hincluded : project.included (project.host.parent file) line with
    | none =>
      rw [hincluded] at hlines
      obtain ⟨⟨rest, final⟩, hrest, heq⟩ := Option.map_eq_some_iff.mp hlines
      obtain ⟨rfl, rfl⟩ := Prod.mk.inj heq
      exact written_cons _ hpath (by simp [Project.pieceText, hline]) (ih hnext hrest)
    | some found =>
      obtain ⟨name, header⟩ := found
      rw [hincluded] at hlines
      obtain ⟨⟨expansion, middle⟩, hinner, hlater⟩ := Option.bind_eq_some_iff.mp hlines
      obtain ⟨⟨rest, final⟩, hrest, heq⟩ := Option.map_eq_some_iff.mp hlater
      obtain ⟨rfl, rfl⟩ := Prod.mk.inj heq
      have hheader : project.documents.path (trail ++ [i]) = some (stack ++ [file] ++ [header]) := by
        refine Documents.path_concat.mpr ⟨_, header, hpath, ?_, rfl⟩
        simp [Project.documents, hline, hincluded]
      obtain ⟨hpieces, hnotice⟩ := hexpand (included_mem hincluded) hheader hinner
      refine written_cons _ hpath ?_ (written_append hpieces (ih hnext hrest))
      simp [Project.pieceText, hline, hincluded, hnotice]

theorem expandFile_written {fuel : ℕ} {path resolved : Path} {expansion : Expansion Path}
    (hresolve : project.host.resolve path = some resolved)
    (hpath : project.documents.path trail = some (stack ++ [resolved]))
    (hexpand : expandFile project fuel stack trail path emitted = some (expansion, after)) :
    project.Written expansion.pieces ∧
      expansion.notice = if expansion.outcome = .recursive then project.cycleComment path else [] := by
  induction fuel generalizing stack trail path resolved emitted expansion after with
  | zero => simp [expandFile] at hexpand
  | succ fuel ih =>
    rw [expandFile, hresolve, Option.bind_some] at hexpand
    dsimp only at hexpand
    split at hexpand
    · obtain ⟨rfl, rfl⟩ := Prod.mk.inj (Option.some.inj hexpand)
      exact ⟨by simp [Project.Written], rfl⟩
    split at hexpand
    · obtain ⟨rfl, rfl⟩ := Prod.mk.inj (Option.some.inj hexpand)
      exact ⟨by simp [Project.Written], rfl⟩
    split at hexpand
    · obtain ⟨⟨pieces, middle⟩, hlines, heq⟩ := Option.map_eq_some_iff.mp hexpand
      obtain ⟨rfl, -⟩ := Prod.mk.inj heq
      refine ⟨expandLines_written hpath ?_ (List.drop_zero).symm hlines, rfl⟩
      intro trail header emitted after expansion hheader hinner
      exact ih (project.host.resolve_file header hheader) hinner
    · exact absurd hexpand (by simp)

theorem expandCalls_written {fuel : ℕ} {paths : List Path} (hdrop : paths = project.calls.drop i)
    {pieces : List (Piece Path)}
    (hcalls : expandCalls project fuel i paths emitted = some (pieces, after)) :
    project.Written pieces := by
  induction paths generalizing i emitted pieces with
  | nil =>
    obtain ⟨rfl, rfl⟩ := Prod.mk.inj (Option.some.inj hcalls)
    simp [Project.Written]
  | cons path paths ih =>
    have hcall : project.calls[i]? = some path := by
      have hhead := congrArg (·[0]?) hdrop
      rw [List.getElem?_drop, Nat.add_zero] at hhead
      exact hhead.symm
    have hnext : paths = project.calls.drop (i + 1) := by
      rw [← List.drop_drop, ← hdrop, List.drop_one, List.tail_cons]
    obtain ⟨resolved, hresolve, hlater⟩ := Option.bind_eq_some_iff.mp hcalls
    obtain ⟨⟨expansion, middle⟩, hexpand, hlater⟩ := Option.bind_eq_some_iff.mp hlater
    obtain ⟨⟨rest, final⟩, hrest, heq⟩ := Option.map_eq_some_iff.mp hlater
    obtain ⟨rfl, rfl⟩ := Prod.mk.inj heq
    have hpath : project.documents.path [i] = some ([] ++ [resolved]) := by
      refine Documents.pathFrom_cons.mpr ⟨resolved, [], ?_, rfl, rfl⟩
      simp [Project.documents, hcall, hresolve]
    obtain ⟨hpieces, hnotice⟩ := expandFile_written hresolve hpath hexpand
    -- A call of `main` is not recursive: nothing is being expanded.
    have houtcome : expansion.outcome ≠ .recursive := by
      intro hrecursive
      have hvisits := expandFile_visits hresolve hexpand
      rw [hrecursive] at hvisits
      exact absurd hvisits.mem_of_recursive (by simp)
    rw [if_neg houtcome] at hnotice
    refine written_cons [] rfl ?_ (written_append hpieces (ih hnext hrest))
    simp [Project.pieceText, hcall, hnotice, houtcome]

theorem main_written {fuel : ℕ} {pieces : List (Piece Path)}
    (hmain : main project fuel = some pieces) : project.Written pieces := by
  obtain ⟨⟨_, after⟩, hcalls, rfl⟩ := Option.map_eq_some_iff.mp hmain
  exact expandCalls_written (List.drop_zero).symm hcalls

end Written

/-! ### Every file once -/

namespace Project

/-- The lines of a file that include no project header. -/
def keptLines (project : Project Path) (file : Path) : List Text :=
  (project.preparedLines file).filter fun line ↦
    (project.included (project.host.parent file) line).isNone

/-- The lines in the output that come from a file. -/
def body (project : Project Path) (file : Path) (pieces : List (Piece Path)) : List Text :=
  pieces.filterMap fun piece ↦
    match piece.event with
    | .plain trail _ =>
      if (project.documents.path trail).bind List.getLast? = some file then some piece.text else none
    | .met _ _ _ _ => none

variable {file : Path} {pieces : List (Piece Path)}

/-- The lines that include nothing, by their numbers. -/
theorem map_plainLines (file : Path) :
    (project.documents.plainLines file).map (fun i ↦ ((project.preparedLines file)[i]?).getD []) =
      project.keptLines file := by
  have hall : (List.range (project.preparedLines file).length).map
      (fun i ↦ ((project.preparedLines file)[i]?).getD []) = project.preparedLines file := by
    refine List.ext_getElem (by simp) fun i _ hi ↦ ?_
    simp [List.getElem?_eq_getElem hi]
  rw [keptLines]
  nth_rewrite 2 [← hall]
  rw [List.filter_map, Documents.plainLines]
  congr 1
  simp only [documents, List.length_map]
  refine List.filter_congr fun i hi ↦ ?_
  have hi' := List.mem_range.mp hi
  simp [List.getElem?_eq_getElem hi']

/-- The lines in the output that come from a file are those that the expansion copies. -/
theorem body_eq (hwritten : project.Written pieces) :
    project.body file pieces =
      (project.documents.copied file (pieces.map Piece.event)).map fun i ↦
        ((project.preparedLines file)[i]?).getD [] := by
  rw [body, Documents.copied, List.filterMap_map, List.map_filterMap]
  refine List.filterMap_congr fun piece hpiece ↦ ?_
  obtain ⟨path, hpath, htext⟩ := hwritten piece hpiece
  obtain ⟨event, text⟩ := piece
  cases event with
  | met trail i target outcome => rfl
  | plain trail i =>
    have hpath' : project.documents.path trail = some path := hpath
    by_cases hlast : path.getLast? = some file
    · simp only [Function.comp_apply, Documents.copiedOf, hpath', Option.bind_some, hlast, if_true,
        Option.map_some, Option.some.injEq]
      have hplain : text = project.pieceText path (.plain trail i) := htext
      rw [hplain, pieceText, hlast, Option.bind_some]
    · simp only [Function.comp_apply, Documents.copiedOf, hpath', Option.bind_some, hlast, if_false,
        Option.map_none]

/-- A line that includes nothing is one of a file: the calls of `main` are all for files. -/
theorem exists_file_of_plain {trail : List ℕ} {stack : List Path}
    (hopens : project.documents.Opens trail stack) {i : ℕ}
    (hline : (project.documents.linesAt stack)[i]? = some none) :
    ∃ before file line, stack = before ++ [file] ∧ (project.preparedLines file)[i]? = some line ∧
      project.included (project.host.parent file) line = none := by
  rcases hopens.eq_top_or_concat with ⟨-, rfl⟩ | ⟨before, file, rfl⟩
  · obtain ⟨path, hpath, hresolve⟩ := List.mem_map.mp (List.mem_of_getElem? hline)
    obtain ⟨file, -, hfile⟩ := calls_files hpath
    rw [hfile] at hresolve
    simp at hresolve
  · rw [Documents.linesAt_concat, documents, List.getElem?_map] at hline
    obtain ⟨line, hline, hnone⟩ := Option.map_eq_some_iff.mp hline
    exact ⟨before, file, line, rfl, hline, Option.map_eq_none_iff.mp hnone⟩

end Project

/-- The amalgamation terminates and emits each file once. Enough fuel gives a result, which is always
the same. A file within reach that is not repeatable is opened once, and its lines that include no
project header are in the output once each and in order. No copied line includes a project header. -/
theorem amalgamation_complete (project : Project Path) :
    ∃ pieces, (∀ fuel, project.host.files.length < fuel → main project fuel = some pieces) ∧
      (∀ file, project.documents.again file = false → project.documents.Reachable file →
        (∃ trail, (openings (pieces.map Piece.event)).filter (fun opening ↦ opening.2 = file) =
            [(trail, file)]) ∧
          project.body file pieces = project.keptLines file) ∧
      ∀ piece ∈ pieces, ∀ trail i, piece.event = .plain trail i →
        ∃ path file, project.documents.path trail = some (path ++ [file]) ∧
          project.included (project.host.parent file) piece.text = none := by
  obtain ⟨pieces, hmain⟩ := main_returns project
  obtain ⟨after, hexpands⟩ := main_expands (hmain _ (Nat.lt_succ_self _))
  have hwritten := main_written (hmain _ (Nat.lt_succ_self _))
  refine ⟨pieces, hmain, fun file hagain hreachable ↦ ⟨hexpands.opened_once hagain hreachable, ?_⟩, ?_⟩
  · rw [Project.body_eq hwritten, (hexpands.copied_eq hagain).1 hreachable, Project.map_plainLines]
  · intro piece hpiece trail i hevent
    have hplain : .plain trail i ∈ pieces.map Piece.event := hevent ▸ List.mem_map_of_mem hpiece
    obtain ⟨stack, hopens, hline⟩ := hexpands.plain_iff.mp hplain
    obtain ⟨path, hpath, htext⟩ := hwritten piece hpiece
    rw [hevent] at hpath htext
    obtain rfl : path = stack := Option.some.inj (hpath.symm.trans hopens.path_eq)
    obtain ⟨before, file, line, rfl, hfile, hincluded⟩ := Project.exists_file_of_plain hopens hline
    refine ⟨before, file, hopens.path_eq, ?_⟩
    have hcopied : piece.text = line := by
      rw [htext, Project.pieceText, List.getLast?_concat, Option.bind_some, hfile, Option.getD_some]
    rw [hcopied]
    exact hincluded

end ZigbeeRemote.Client.SingleFile
