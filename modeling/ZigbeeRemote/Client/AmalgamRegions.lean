import ZigbeeRemote.Foundation.ConditionalRegions
import ZigbeeRemote.Client.AmalgamLines

/-!
# Conditional regions of the single-file client

`expand_file` looks for include lines and not for conditionals: it emits a header in the place of the
first include line that leads to it, which may be between `#if 0` and `#endif`, and drops the others.
`main` expands the headers that the sources include before the sources, so that such a line of a
source does no harm; but a line of a header still does.

`KeepsActive` says that a header is compiled if it is included from a line that is. It holds if and
only if `FirstActive` does, if no line is joined with one of another file and no include line is in a
comment or a literal: what counts is whether the first trail to the header is active. A directive that
is joined with the last line of another file is none any more (`lines_preserved_iff` says when that
happens), nor is one of a file that is put into a literal, and the conditionals of the generated header
are then not those of the files.
-/

set_option autoImplicit false
set_option relaxedAutoImplicit false

namespace ZigbeeRemote.Client.SingleFile

open Foundation

variable {Path : Type} [DecidableEq Path]

namespace Project

variable (project : Project Path)

/-- No copied line runs on into a directive of a guard or a line of another file. -/
def Unjoined (pieces : List (Piece Path)) : Prop :=
  ∀ before piece after, pieces = before ++ piece :: after → closes piece.text = false →
    (project.followerIn piece.event.trail piece.event.line after).joins piece.text = false

/-- The same, as the files have it: where a file has a line without a newline, or with one that is
spliced away, what comes behind it is neither a directive of a guard nor a line of another file. -/
def FilesApart : Prop :=
  ∀ trail stack file i line, project.documents.Opens trail (stack ++ [file]) →
    project.RunsOn file i line → (project.follower trail i).joins line = false

/-- The include lines of project headers are include directives. -/
def IncludesGenuine (isDirective : Path → ℕ → Bool) : Prop :=
  ∀ trail stack file i header, project.documents.Opens trail (stack ++ [file]) →
    (project.documents.lines file)[i]? = some (some header) → isDirective file i = true

/-- The directives of the copied lines of a file, in order. -/
def fileDirectives (directive : Path → ℕ → Directive) (file : Path) : List Directive :=
  (List.range (project.documents.lines file).length).map fun i ↦
    if ((project.documents.lines file)[i]?).any Option.isNone then directive file i else .plain

/-- The conditionals as the lines of the files have them. -/
def conditionals (directive : Path → ℕ → Directive) (holds : List ℕ → ℕ → Bool) : Conditionals where
  directive trail i :=
    ((project.documents.path trail).bind List.getLast?).elim .plain fun file ↦ directive file i
  holds := holds

variable {project}

/-- Where every line is a line of its own, no directive is lost. -/
theorem LinesApart.filesApart {limits : Limits Path} (hlines : project.LinesApart limits) :
    project.FilesApart := by
  intro trail stack file i line hopens hruns
  exact Follower.joins_of_completes (hlines.completed trail stack file i line hopens hruns)

theorem unjoined_of_filesApart {fuel : ℕ} {pieces : List (Piece Path)}
    (hmain : main project fuel = some pieces) (hapart : project.FilesApart) :
    project.Unjoined pieces := by
  intro before piece after hsplit hopen
  have hpiece : piece ∈ pieces := hsplit ▸ by simp
  obtain ⟨stack, file, hopens, hruns, -, hevent⟩ := exists_runsOn hmain hpiece hopen
  rw [followerIn_eq hmain hsplit hevent]
  exact hapart _ stack file _ _ hopens hruns

theorem conditionals_directive {trail : List ℕ} {file : Path}
    (hlast : (project.documents.path trail).bind List.getLast? = some file)
    (directive : Path → ℕ → Directive) (holds : List ℕ → ℕ → Bool) (i : ℕ) :
    (project.conditionals directive holds).directive trail i = directive file i := by
  simp [conditionals, hlast]

theorem map_directivesIn {trail : List ℕ} {stack : List Path} {file : Path}
    (hpath : project.documents.path trail = some (stack ++ [file]))
    (directive : Path → ℕ → Directive) (holds : List ℕ → ℕ → Bool) :
    ((project.conditionals directive holds).directivesIn project.documents trail
      (project.documents.lines file).length).map Prod.fst =
        project.fileDirectives directive file := by
  rw [Conditionals.directivesIn, List.map_map, fileDirectives]
  refine List.map_congr_left fun i _ ↦ ?_
  simp [Conditionals.directiveAt, conditionals, hpath]

theorem mem_files_of_opens {trail : List ℕ} {stack : List Path} {file : Path}
    (hopens : project.documents.Opens trail (stack ++ [file])) : file ∈ project.host.files := by
  have htrail := trail_ne_nil hopens
  obtain ⟨start, i, rfl⟩ := (List.eq_nil_or_concat trail).resolve_left htrail
  rw [List.concat_eq_append] at hopens
  obtain ⟨earlier, found, hstack, hearlier, hline, -⟩ := hopens.concat_inv
  obtain rfl : file = found := by simpa using congrArg List.getLast? hstack
  have hmem := List.mem_of_getElem? hline
  rcases hearlier.eq_top_or_concat with ⟨-, rfl⟩ | ⟨before, other, rfl⟩
  · obtain ⟨path, hcall, hresolve⟩ := List.mem_map.mp hmem
    obtain ⟨resolved, hfile, hresolved⟩ := calls_files hcall
    rw [hresolved] at hresolve
    exact Option.some.inj hresolve ▸ hfile
  · rw [Documents.linesAt_concat] at hmem
    obtain ⟨line, -, hline⟩ := List.mem_map.mp hmem
    obtain ⟨⟨name, header⟩, hincluded, rfl⟩ := Option.map_eq_some_iff.mp hline
    exact included_mem hincluded

end Project

/-- What the preprocessor makes of the files, and of the generated header. A file has to close the
conditionals and comments that it opens, and no others. A copied line is the directive in the header
that it is in its file, unless lines have been joined, or a file has been put into a comment or a
literal: nothing is said about the header then. -/
structure Preprocessor (project : Project Path) where
  /-- The directive that a line is in its file, if the includes of project headers are comments. -/
  fileDirective : Path → ℕ → Directive
  /-- Whether an include line is a directive, in that it begins neither in a comment or a literal nor
  behind something else in its line. -/
  isDirective : Path → ℕ → Bool
  balanced : ∀ file ∈ project.host.files,
    (project.fileDirectives fileDirective file).foldlM Directive.deepen 0 = some 0
  /-- The directives among the copied lines of the header, and the values of their conditions. -/
  header : Conditionals
  header_eq : ∀ fuel pieces, main project fuel = some pieces → project.Unjoined pieces →
    project.IncludesGenuine isDirective → ∀ piece ∈ pieces, ∀ trail i file,
      piece.event = .plain trail i →
      (project.documents.path trail).bind List.getLast? = some file →
      header.directive trail i = fileDirective file i

namespace Preprocessor

variable {project : Project Path} (preprocessor : Preprocessor project)

/-- The conditionals that are open behind some pieces of the generated header, inside those of the
banner. -/
def groupsBehind (pieces : List (Piece Path)) : List Group :=
  replay preprocessor.header.copyLine [] (pieces.map Piece.event)

/-- What comes behind the pieces is compiled. -/
def isActive (pieces : List (Piece Path)) : Bool :=
  (preprocessor.groupsBehind pieces).all Group.active

/-- There is a single copy of the header, and it is compiled. -/
def CopyActive (pieces : List (Piece Path)) (header : Path) : Prop :=
  ∃ trail, (openings (pieces.map Piece.event)).filter (fun opening ↦ opening.2 = header) =
      [(trail, header)] ∧
    ∀ before copy after, pieces = before ++ copy :: after →
      copy.event.opening = some (trail, header) → preprocessor.isActive before = true

/-- A header that is not repeatable is compiled if a line of a file includes it that is compiled. -/
def KeepsActive (pieces : List (Piece Path)) : Prop :=
  ∀ before piece after header, pieces = before ++ piece :: after → piece.event.trail ≠ [] →
    piece.event.target = some header → project.documents.again header = false →
    preprocessor.isActive before = true → preprocessor.CopyActive pieces header

/-- The conditionals of the files, with the values that their conditions have in the header. -/
def files : Conditionals :=
  project.conditionals preprocessor.fileDirective preprocessor.header.holds

/-- Each line along the trail is active in its file. -/
def TrailActive (trail : List ℕ) : Prop :=
  ∀ start i, start ++ [i] <+: trail →
    (preprocessor.files.groupsIn project.documents start i).all Group.active = true

/-- The condition: if a header is included from a line, and this line and those that lead to it are
active in their files, so are those along the first trail to the header. -/
def FirstActive : Prop :=
  ∀ trail stack file i header first, project.documents.Opens trail (stack ++ [file]) →
    (project.documents.lines file)[i]? = some (some header) →
    project.documents.again header = false → preprocessor.TrailActive (trail ++ [i]) →
    project.documents.First first header → preprocessor.TrailActive first

variable {preprocessor}

theorem trailActive_iff {trail : List ℕ} : preprocessor.TrailActive trail ↔
    (preprocessor.files.groupsAround project.documents trail).all Group.active = true := by
  induction trail using List.reverseRecOn with
  | nil =>
    refine iff_of_true ?_ rfl
    intro start i hbegins
    simp at hbegins
  | append_singleton trail j ih =>
    rw [Conditionals.groupsAround_concat, List.all_append, Bool.and_eq_true, ← ih]
    constructor
    · intro hactive
      exact ⟨hactive trail j (List.prefix_refl _),
        fun start i hbegins ↦ hactive start i (hbegins.trans (List.prefix_append _ _))⟩
    · rintro ⟨hlast, hactive⟩ start i hbegins
      rcases List.prefix_concat_iff.mp hbegins with heq | hbegins
      · obtain ⟨rfl, hi⟩ := List.append_inj' heq rfl
        obtain rfl : i = j := by simpa using hi
        exact hlast
      · exact hactive start i hbegins

variable {fuel : ℕ} {pieces before after : List (Piece Path)} {piece : Piece Path}

theorem balanced_files {trail : List ℕ} {stack : List Path} {file : Path}
    (hopens : project.documents.Opens trail (stack ++ [file])) :
    preprocessor.files.Balanced project.documents trail file := by
  rw [Conditionals.Balanced, files, Project.map_directivesIn hopens.path_eq]
  exact preprocessor.balanced file (Project.mem_files_of_opens hopens)

/-- If no lines are joined, the conditionals of the header are those of the files. -/
theorem groupsBehind_eq (hmain : main project fuel = some pieces)
    (hunjoined : project.Unjoined pieces)
    (hgenuine : project.IncludesGenuine preprocessor.isDirective) (hsubset : before ⊆ pieces) :
    preprocessor.groupsBehind before =
      replay preprocessor.files.copyLine [] (before.map Piece.event) := by
  rw [groupsBehind]
  generalize ([] : List Group) = groups
  induction before generalizing groups with
  | nil => rfl
  | cons piece before ih =>
    obtain ⟨hpiece, hbefore⟩ := List.cons_subset.mp hsubset
    rw [List.map_cons]
    cases hevent : piece.event with
    | met trail i target outcome => exact ih hbefore groups
    | plain trail i =>
      obtain ⟨stack, file, hopens, -, -⟩ := exists_line hmain hpiece hevent
      have hlast : (project.documents.path trail).bind List.getLast? = some file := by
        rw [hopens.path_eq, Option.bind_some, List.getLast?_concat]
      have hdirective := preprocessor.header_eq fuel pieces hmain hunjoined hgenuine piece hpiece
        trail i file hevent hlast
      have hcopy : preprocessor.header.copyLine trail i groups =
          preprocessor.files.copyLine trail i groups := by
        rw [Conditionals.copyLine, Conditionals.copyLine, hdirective, files,
          Project.conditionals_directive hlast]
        rfl
      rw [replay_plain, replay_plain, hcopy]
      exact ih hbefore _

/-- What is before a piece is compiled if the trail to it is active. -/
theorem isActive_iff (hmain : main project fuel = some pieces)
    (hunjoined : project.Unjoined pieces)
    (hgenuine : project.IncludesGenuine preprocessor.isDirective)
    (hsplit : pieces = before ++ piece :: after) :
    preprocessor.isActive before = true ↔ preprocessor.TrailActive piece.event.position := by
  obtain ⟨final, hexpands⟩ := main_expands hmain
  have hevents : pieces.map Piece.event =
      before.map Piece.event ++ piece.event :: after.map Piece.event := by
    rw [hsplit, List.map_append, List.map_cons]
  rw [isActive, groupsBehind_eq hmain hunjoined hgenuine (hsplit ▸ List.subset_append_left _ _),
    hexpands.groups_before (fun _ _ _ ↦ balanced_files) hevents, trailActive_iff]

/-- The copy of a header is compiled if the first trail to it is active. -/
theorem copyActive_iff (hmain : main project fuel = some pieces)
    (hunjoined : project.Unjoined pieces)
    (hgenuine : project.IncludesGenuine preprocessor.isDirective) {header : Path}
    (hagain : project.documents.again header = false)
    (hreachable : project.documents.Reachable header) :
    preprocessor.CopyActive pieces header ↔
      ∀ first, project.documents.First first header → preprocessor.TrailActive first := by
  obtain ⟨final, hexpands⟩ := main_expands hmain
  obtain ⟨trail, honce⟩ := hexpands.opened_once hagain hreachable
  have hmem : (trail, header) ∈ openings (pieces.map Piece.event) :=
    List.mem_of_mem_filter (honce ▸ List.mem_singleton_self _)
  obtain ⟨stack, hopens⟩ := hexpands.opened_iff.mp hmem
  have hfirst := hopens.first hagain
  constructor
  · rintro ⟨other, hother, hactive⟩ first hfirst'
    obtain rfl := hfirst.unique hfirst'
    have hsame : [(trail, header)] = [(other, header)] := honce.symm.trans hother
    obtain rfl : trail = other := (Prod.mk.inj (List.cons.inj hsame).1).1
    obtain ⟨event, hevent, hopening⟩ := List.mem_filterMap.mp hmem
    obtain ⟨copy, hcopy, rfl⟩ := List.mem_map.mp hevent
    obtain ⟨before, after, hsplit⟩ := List.append_of_mem hcopy
    rw [Event.opening_fst hopening, ← isActive_iff hmain hunjoined hgenuine hsplit]
    exact hactive before copy after hsplit hopening
  · intro hactive
    refine ⟨trail, honce, fun before copy after hsplit hopening ↦ ?_⟩
    rw [isActive_iff hmain hunjoined hgenuine hsplit, ← Event.opening_fst hopening]
    exact hactive trail hfirst

theorem keepsActive_iff (hmain : main project fuel = some pieces)
    (hunjoined : project.Unjoined pieces)
    (hgenuine : project.IncludesGenuine preprocessor.isDirective) :
    preprocessor.KeepsActive pieces ↔ preprocessor.FirstActive := by
  obtain ⟨final, hexpands⟩ := main_expands hmain
  have hreachable {trail : List ℕ} {stack : List Path} {file header : Path} {i : ℕ}
      (hopens : project.documents.Opens trail (stack ++ [file]))
      (hline : (project.documents.lines file)[i]? = some (some header)) :
      project.documents.Reachable header :=
    .line (hopens.reachable file (by simp)) (List.mem_of_getElem? hline)
  constructor
  · intro hkeeps trail stack file i header first hopens hline hagain hactive
    have hevent := hexpands.event_iff.mpr ⟨_, hopens, by rwa [Documents.linesAt_concat]⟩
    obtain ⟨event, hmem, rfl, rfl, htarget⟩ := hevent
    obtain ⟨piece, hpiece, rfl⟩ := List.mem_map.mp hmem
    obtain ⟨before, after, hsplit⟩ := List.append_of_mem hpiece
    have hcopy := hkeeps before piece after header hsplit (trail_ne_nil hopens) htarget hagain
      ((isActive_iff hmain hunjoined hgenuine hsplit).mpr hactive)
    exact (copyActive_iff hmain hunjoined hgenuine hagain (hreachable hopens hline)).mp hcopy first
  · intro hfirst before piece after header hsplit htrail htarget hagain hactive
    have hpiece : piece ∈ pieces := hsplit ▸ by simp
    obtain ⟨stack, hopens, hline, -⟩ := exists_position hmain hpiece
    rcases hopens.eq_top_or_concat with ⟨hnil, -⟩ | ⟨earlier, file, rfl⟩
    · exact absurd hnil htrail
    rw [Documents.linesAt_concat, htarget] at hline
    rw [copyActive_iff hmain hunjoined hgenuine hagain (hreachable hopens hline)]
    intro first hleads
    exact hfirst _ earlier file _ header first hopens hline hagain
      ((isActive_iff hmain hunjoined hgenuine hsplit).mp hactive) hleads

end Preprocessor

/-- The directive that a line is, outside of comments. -/
def directiveOf (line : Text) : Directive :=
  match afterLiteral (str "#") (line.dropWhile isBlank) with
  | none => .plain
  | some rest =>
    let word := (rest.dropWhile isBlank).takeWhile fun c ↦ 0x61 ≤ c && c ≤ 0x7A
    if word ∈ [str "if", str "ifdef", str "ifndef"] then .conditional
    else if word ∈ [str "elif", str "elifdef", str "elifndef"] then .alternative
    else if word = str "else" then .otherwise
    else if word = str "endif" then .close
    else .plain

/-- The directive that a line of a file is, outside of comments. -/
def Project.lineDirective (project : Project Path) (file : Path) (i : ℕ) : Directive :=
  ((project.preparedLines file)[i]?).elim .plain directiveOf

/-- The preprocessor for files that close the conditionals they open and have no comments or literals
over several lines. In the header, too, it takes each line for itself. -/
def Preprocessor.ofFiles (project : Project Path) (holds : List ℕ → ℕ → Bool)
    (hbalanced : ∀ file ∈ project.host.files,
      (project.fileDirectives project.lineDirective file).foldlM Directive.deepen 0 = some 0) :
    Preprocessor project where
  fileDirective := project.lineDirective
  isDirective _ _ := true
  balanced := hbalanced
  header := project.conditionals project.lineDirective holds
  header_eq _ _ _ _ _ _ _ _ i _ _ hlast := Project.conditionals_directive hlast _ _ i

/-- `a.h` includes `h.h` twice, first between `#if 0` and `#endif`. -/
def inactiveFirst : Project (List Text) where
  host := smallHost [([str "include", str "a.h"],
      str "#if 0\n#include \"h.h\"\n#endif\n#include \"h.h\"\n"),
    ([str "include", str "h.h"], str "int h;\n")]
  roots := [[str "include"]]
  extraHeaders := [[str "include", str "a.h"]]
  sources := []
  lwipDir := [str "lwip"]
  given_files := by decide +kernel

/-- `#if 0` is the only condition. -/
def zeroPreprocessor : Preprocessor inactiveFirst :=
  .ofFiles inactiveFirst (fun _ _ ↦ false) (by decide +kernel)

end ZigbeeRemote.Client.SingleFile
