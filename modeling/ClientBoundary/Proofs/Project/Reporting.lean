import ClientBoundary.Proofs.Project.Contents
import ClientBoundary.Proofs.Project.Histories

/-!
# What a report lists

The report of a directory has one entry for every script file below it, among the files or among the
failures, and what the entry says depends on that file alone.

- `perm_ofOutcomes`, `strict_files`, `strict_failures`: the entries of a report and their order;
- `FailsWith`, `readSource_eq_ok_iff`, `plainOutcome_fails_iff`: why a file fails by itself;
- `Report.Accounts`: a report says of each script file what the file has by itself;
- `ownPaths`, `length_ownPaths_le`: the entries for one file;
- `lintDirectory_accounts`: the reports of trees that differ in one file;
- `lintDirectory_linked`: with a link to the file they differ in two entries.
-/

namespace ClientBoundary
namespace Project

open Entry
open FileTree (bytes?_eq_some_iff find?_eq_some_iff find?_of_grows follow?_of_locate?)
open ClientBoundary.Path (Component IsName components)
open Rules (Config Failure Finding)
open Script (Program)

/-! ## Lists in the order of paths -/

section Order

variable {α : Type} {path : α → String} {l others : List α}

theorem strict_mergeSort (distinct : ((l.mergeSort fun a b => path a ≤ path b).map path).Nodup) :
    (l.mergeSort fun a b => path a ≤ path b).Pairwise (path · < path ·) := by
  have sorted : (l.mergeSort fun a b => path a ≤ path b).Pairwise (path · ≤ path ·) := by
    have weak : (l.mergeSort fun a b => path a ≤ path b).Pairwise
        fun a b => decide (path a ≤ path b) = true := by
      apply List.pairwise_mergeSort
      · intro a b c first next
        rw [decide_eq_true_eq] at *
        exact le_trans first next
      · intro a b
        simpa using le_total (path a) (path b)
    simpa using weak
  have apart := List.pairwise_map.1 distinct
  exact (sorted.and apart).imp fun less => lt_of_le_of_ne less.1 less.2

/-- Lists in the order of different paths are the same if they have the same members. -/
theorem eq_of_strict (here : l.Pairwise (path · < path ·))
    (there : others.Pairwise (path · < path ·))
    (same : ∀ x, x ∈ l ↔ x ∈ others) : l = others := by
  have differ : ∀ {a b : α}, path a < path b → a ≠ b := by
    rintro a b less rfl
    exact lt_irrefl _ less
  have perm := (List.perm_ext_iff_of_nodup (here.imp differ) (there.imp differ)).2 same
  refine perm.eq_of_pairwise ?_ here there
  intro a b _ _ less more
  exact absurd (less.trans more) (lt_irrefl _)

end Order

/-! ## Entries of a report -/

/-- The report without the entries of some paths. -/
def Report.without (paths : List String) (r : Report) : Report where
  files := r.files.filter fun f => f.path ∉ paths
  failures := r.failures.filter fun f => f.path ∉ paths

section Outcomes

variable {outcomes others : List (String × Except Failure (List Finding))}

/-- Every outcome has one entry, among the files or among the failures. -/
theorem perm_ofOutcomes (outcomes : List (String × Except Failure (List Finding))) :
    ((Report.ofOutcomes outcomes).files.map (·.path) ++
      (Report.ofOutcomes outcomes).failures.map (·.path)).Perm (outcomes.map (·.1)) := by
  have files : (Report.ofOutcomes outcomes).files.Perm _ := List.mergeSort_perm _ _
  have failures : (Report.ofOutcomes outcomes).failures.Perm _ := List.mergeSort_perm _ _
  refine ((files.map (·.path)).append (failures.map (·.path))).trans ?_
  clear files failures
  -- outcome by outcome: findings go in front, and a failure goes behind all files
  induction outcomes with
  | nil => exact .refl _
  | cons o more ih =>
      rcases o with ⟨path, outcome⟩
      cases outcome with
      | ok findings => exact ih.cons path
      | error e => exact List.perm_middle.trans (ih.cons path)

theorem strict_files (distinct : (outcomes.map (·.1)).Nodup) :
    (Report.ofOutcomes outcomes).files.Pairwise (·.path < ·.path) := by
  have once := (perm_ofOutcomes outcomes).nodup_iff.2 distinct
  exact strict_mergeSort (once.sublist (List.sublist_append_left _ _))

theorem strict_failures (distinct : (outcomes.map (·.1)).Nodup) :
    (Report.ofOutcomes outcomes).failures.Pairwise (·.path < ·.path) := by
  have once := (perm_ofOutcomes outcomes).nodup_iff.2 distinct
  exact strict_mergeSort (once.sublist (List.sublist_append_right _ _))

/-- Reports of outcomes that agree on all other paths agree without the entries of some paths. -/
theorem without_ofOutcomes {paths : List String} (distinct : (outcomes.map (·.1)).Nodup)
    (also : (others.map (·.1)).Nodup)
    (same : ∀ path ∉ paths, ∀ o, (path, o) ∈ outcomes ↔ (path, o) ∈ others) :
    (Report.ofOutcomes outcomes).without paths = (Report.ofOutcomes others).without paths := by
  rw [Report.without, Report.without, Report.mk.injEq]
  constructor
  · apply eq_of_strict ((strict_files distinct).filter _) ((strict_files also).filter _)
    intro r
    rw [List.mem_filter, List.mem_filter, mem_files, mem_files, decide_eq_true_eq]
    exact and_congr_left fun kept => same _ kept _
  · apply eq_of_strict ((strict_failures distinct).filter _) ((strict_failures also).filter _)
    intro r
    rw [List.mem_filter, List.mem_filter, mem_failures, mem_failures, decide_eq_true_eq]
    exact and_congr_left fun kept => exists_congr fun _ => and_congr_right fun _ => same _ kept _

end Outcomes

/-! ## Entries and files -/

/-- Why a file is a failure, and how that is worded: it cannot be read, its bytes are no text, or
the text is no program. -/
inductive FailsWith (tree : FileTree) (path : String) : String → Prop
  | unreadable {reason : String} (found : tree.find? path = some (.file (.error reason))) :
      FailsWith tree path ("io error: " ++ reason)
  | notText {bytes : List UInt8} (found : tree.bytes? path = some bytes)
      (broken : textOf? bytes = none) :
      FailsWith tree path "io error: stream did not contain valid UTF-8"
  | unparsable {bytes : List UInt8} {source : String} (found : tree.bytes? path = some bytes)
      (text : textOf? bytes = some source) (unread : Program.parse? (.ofPath path) source = none) :
      FailsWith tree path ("failed to parse " ++ path ++ ": ")

/-- A report lists the script files below a directory, each of them once, and says of each what the
file has by itself. -/
structure Report.Accounts (config : Config) (tree : FileTree) (root : String) (r : Report) :
    Prop where
  listed : (r.files.map (·.path) ++ r.failures.map (·.path)).Perm
    ((findScripts tree root).map fun f => Path.relative root f.path)
  once : (r.files.map (·.path) ++ r.failures.map (·.path)).Nodup
  files_sorted : (r.files.map (·.path)).Pairwise (· < ·)
  failures_sorted : (r.failures.map (·.path)).Pairwise (· < ·)
  read : ∀ f ∈ findScripts tree root, ∃ content, tree.find? f.path = some (.file content)
  file_iff : ∀ f ∈ findScripts tree root, ∀ findings,
    ⟨Path.relative root f.path, findings⟩ ∈ r.files ↔
      ∃ bytes source, tree.bytes? f.path = some bytes ∧ textOf? bytes = some source ∧
        config.lint f.path source = .ok findings
  failure_iff : ∀ f ∈ findScripts tree root, ∀ error,
    ⟨Path.relative root f.path, error⟩ ∈ r.failures ↔ FailsWith tree f.path error

/-- The paths of the entries for the file at a location. -/
def ownPaths (tree : FileTree) (root : String) (l : Location) : List String :=
  ((findScripts tree root).filter fun f => tree.locate? f.path = some l).map fun f =>
    Path.relative root f.path

section Plain

variable {config : Config} {tree : FileTree} {root : String}

/-- The outcomes for script files by themselves. -/
def plainOutcomes (config : Config) (tree : FileTree) (root : String) :
    List (String × Except Failure (List Finding)) :=
  (findScripts tree root).map fun f => (Path.relative root f.path, plainOutcome config tree f.path)

theorem lintDirectory_plain (isDir : (tree.find? root).any isDirectory = true) :
    lintDirectory config none tree root =
      (tree, .ok (.ofOutcomes (plainOutcomes config tree root))) := by
  rw [lintDirectory, if_pos isDir, lintFiles_plain]
  rfl

theorem map_plainOutcomes (config : Config) : (plainOutcomes config tree root).map (·.1) =
    (findScripts tree root).map fun f => Path.relative root f.path := by
  rw [plainOutcomes, List.map_map]
  rfl

theorem nodup_plainOutcomes (config : Config) (wf : tree.WellFormed)
    (isDir : (tree.find? root).any isDirectory = true) :
    ((plainOutcomes config tree root).map (·.1)).Nodup := by
  rw [map_plainOutcomes]
  exact nodup_relative wf isDir

theorem mem_plainOutcomes (wf : tree.WellFormed) (isDir : (tree.find? root).any isDirectory = true)
    {f : ScriptFile} (mem : f ∈ findScripts tree root) (o : Except Failure (List Finding)) :
    (Path.relative root f.path, o) ∈ plainOutcomes config tree root ↔
      plainOutcome config tree f.path = o := by
  rw [plainOutcomes, List.mem_map]
  constructor
  · rintro ⟨g, also, same⟩
    rcases Prod.mk.inj same with ⟨path, outcome⟩
    obtain rfl := List.inj_on_of_nodup_map (nodup_relative wf isDir) also mem path
    exact outcome
  · rintro rfl
    exact ⟨f, mem, rfl⟩

theorem readSource_eq_ok_iff {path source : String} :
    readSource tree path = .ok source ↔
      ∃ bytes, tree.bytes? path = some bytes ∧ textOf? bytes = some source := by
  rw [readSource, FileTree.bytes?]
  rcases tree.find? path with _ | ((reason | bytes) | entries | target)
  · simp
  · simp
  · cases text : textOf? bytes <;> simp [text]
  · simp
  · simp

theorem plainOutcome_eq_ok_iff {path : String} {findings : List Finding} :
    plainOutcome config tree path = .ok findings ↔
      ∃ bytes source, tree.bytes? path = some bytes ∧ textOf? bytes = some source ∧
        config.lint path source = .ok findings := by
  have read : plainOutcome config tree path = .ok findings ↔
      ∃ source, readSource tree path = .ok source ∧ config.lint path source = .ok findings := by
    rw [plainOutcome]
    cases readSource tree path <;> simp
  simp only [read, readSource_eq_ok_iff]
  constructor
  · rintro ⟨source, ⟨bytes, found, text⟩, linted⟩
    exact ⟨bytes, source, found, text, linted⟩
  · rintro ⟨bytes, source, found, text, linted⟩
    exact ⟨source, ⟨bytes, found, text⟩, linted⟩

/-- A file fails by itself for one of three reasons. -/
theorem plainOutcome_fails_iff {path : String} {content : Content} {error : String}
    (file : tree.find? path = some (.file content)) :
    (∃ e : Failure, error = e.message ∧ plainOutcome config tree path = .error e) ↔
      FailsWith tree path error := by
  constructor
  · rintro ⟨e, rfl, failed⟩
    rw [plainOutcome, readSource, file] at failed
    rcases content with reason | bytes
    · obtain rfl : Failure.unreadable reason = e := Except.error.inj failed
      exact .unreadable file
    · have found : tree.bytes? path = some bytes := bytes?_eq_some_iff.2 file
      cases text : textOf? bytes with
      | none =>
          obtain rfl : Failure.notText = e := by simpa [text] using failed
          exact .notText found text
      | some source =>
          have linted : config.lint path source = .error e := by simpa [text] using failed
          rcases Rules.lint_eq_error_iff.1 linted with ⟨rfl, unread⟩
          exact .unparsable found text unread
  · rintro (⟨found⟩ | ⟨found, broken⟩ | ⟨found, text, unread⟩)
    · rename_i reason
      exact ⟨.unreadable reason, rfl, by simp [plainOutcome, readSource, found]⟩
    · exact ⟨.notText, rfl, by
        simp [plainOutcome, readSource, bytes?_eq_some_iff.1 found, broken]⟩
    · refine ⟨.unparsable path, rfl, ?_⟩
      simp [plainOutcome, readSource, bytes?_eq_some_iff.1 found, text,
        Rules.lint_eq_error_iff.2 ⟨rfl, unread⟩]

/-- A text that is no program fails, and one that is does not. -/
theorem failsWith_of_unread {path source : String} (text : readSource tree path = .ok source)
    (unread : Program.parse? (.ofPath path) source = none) :
    FailsWith tree path ("failed to parse " ++ path ++ ": ") := by
  rcases readSource_eq_ok_iff.1 text with ⟨bytes, found, decoded⟩
  exact .unparsable found decoded unread

theorem not_failsWith {path source error : String} (text : readSource tree path = .ok source)
    (read : (Program.parse? (.ofPath path) source).isSome = true) :
    ¬FailsWith tree path error := by
  rcases readSource_eq_ok_iff.1 text with ⟨bytes, found, decoded⟩
  rintro (⟨locked⟩ | ⟨same, broken⟩ | ⟨same, other, unread⟩)
  · simp [bytes?_eq_some_iff.1 found] at locked
  · rcases Option.some.inj (found.symm.trans same) with rfl
    simp [decoded] at broken
  · rcases Option.some.inj (found.symm.trans same) with rfl
    rcases Option.some.inj (decoded.symm.trans other) with rfl
    simp [unread] at read

theorem accounts_plain (config : Config) (wf : tree.WellFormed)
    (isDir : (tree.find? root).any isDirectory = true) :
    (Report.ofOutcomes (plainOutcomes config tree root)).Accounts config tree root := by
  have distinct := nodup_plainOutcomes config wf isDir
  have listed := perm_ofOutcomes (plainOutcomes config tree root)
  have read : ∀ f ∈ findScripts tree root, ∃ content, tree.find? f.path = some (.file content) := by
    intro f mem
    rcases (found_of_mem_findScripts wf isDir mem).located with ⟨l, content, located, here⟩
    exact ⟨content, find?_eq_some_iff.2 ⟨l, located, here⟩⟩
  refine ⟨?_, listed.nodup_iff.2 distinct, ?_, ?_, read, ?_, ?_⟩
  · rw [← map_plainOutcomes config]
    exact listed
  · exact List.pairwise_map.2 (strict_files distinct)
  · exact List.pairwise_map.2 (strict_failures distinct)
  · intro f mem findings
    rw [mem_files, mem_plainOutcomes wf isDir mem, plainOutcome_eq_ok_iff]
  · intro f mem error
    rcases read f mem with ⟨content, file⟩
    simp only [mem_failures, mem_plainOutcomes wf isDir mem]
    exact plainOutcome_fails_iff file

/-! ## Trees that differ in one file -/

/-- Other content in a file changes the outcomes of the paths that lead to it, at most. -/
theorem plainOutcomes_withContent (wf : tree.WellFormed)
    (isDir : (tree.find? root).any isDirectory = true) (content : Content) (l : Location)
    {path : String} (other : path ∉ ownPaths tree root l) (o : Except Failure (List Finding)) :
    (path, o) ∈ plainOutcomes config tree root ↔
      (path, o) ∈ plainOutcomes config (tree.withContent content l) root := by
  rw [plainOutcomes, plainOutcomes, findScripts_withContent, List.mem_map, List.mem_map]
  refine exists_congr fun f => and_congr_right fun mem => ?_
  rcases (found_of_mem_findScripts wf isDir mem).located with ⟨m, old, located, here⟩
  rw [Prod.mk.injEq, Prod.mk.injEq]
  refine and_congr_right fun listed => ?_
  -- a file that is listed under another path stands somewhere else
  have outside : ¬m = l := by
    rintro rfl
    apply other
    rw [← listed]
    exact List.mem_map.2 ⟨f, List.mem_filter.2 ⟨mem, by simpa using located⟩, rfl⟩
  have same := find?_of_grows (grows_withContent content l tree) located here outside
  rw [plainOutcome, plainOutcome, readSource, readSource, same]

/-- Without links, two script files are not the same file. -/
theorem Found.names_inj {f g : ScriptFile} {l : Location}
    (plain : ∀ l target, tree.at? l ≠ some (.link target))
    (isDir : (tree.find? root).any isDirectory = true) (hf : Found tree root f)
    (hg : Found tree root g) (here : tree.locate? f.path = some l)
    (there : tree.locate? g.path = some l) : f.names = g.names := by
  rcases visits_root isDir with ⟨base, entries, located, -, -⟩
  have start {h : ScriptFile} (found : Found tree root h) :
      tree.start h.path = tree.start root := by
    rw [FileTree.start, FileTree.start, origin, origin, Path.isAbsolute_of_components found.parts]
  -- both paths lead on by names from the directory that the root leads to
  have base_ := follow?_of_locate? located
  have first := follow?_of_locate? here
  have next := follow?_of_locate? there
  rw [hf.parts, start hf] at first
  rw [hg.parts, start hg] at next
  have names : base ++ f.names = base ++ g.names :=
    (follow?_names plain f.names base_ first).symm.trans (follow?_names plain g.names base_ next)
  exact List.append_cancel_left names

/-- Without links, a file has at most one entry. -/
theorem length_ownPaths_le (wf : tree.WellFormed)
    (isDir : (tree.find? root).any isDirectory = true)
    (plain : ∀ l target, tree.at? l ≠ some (.link target)) (l : Location) :
    (ownPaths tree root l).length ≤ 1 := by
  have distinct : (((findScripts tree root).filter fun f => tree.locate? f.path = some l).map
      (·.names)).Nodup :=
    (nodup_findScripts wf isDir).sublist ((List.filter_sublist).map _)
  have found : ∀ f ∈ (findScripts tree root).filter fun f => tree.locate? f.path = some l,
      Found tree root f ∧ tree.locate? f.path = some l := by
    intro f mem
    rcases List.mem_filter.1 mem with ⟨mem, located⟩
    exact ⟨found_of_mem_findScripts wf isDir mem, by simpa using located⟩
  rw [ownPaths, List.length_map]
  generalize (findScripts tree root).filter (fun f => tree.locate? f.path = some l) = own
    at distinct found ⊢
  rcases own with _ | ⟨f, _ | ⟨g, more⟩⟩
  · exact Nat.zero_le 1
  · exact Nat.le_refl 1
  · -- two entries would be for script files of the same names
    rcases found f List.mem_cons_self with ⟨hf, here⟩
    rcases found g (List.mem_cons_of_mem f List.mem_cons_self) with ⟨hg, there⟩
    have same := hf.names_inj plain isDir hg here there
    simp [same] at distinct

end Plain

/-- Every script file below a directory has one entry in the report, and if only the content of one
file is another one, only the entries for that file are: those of the paths that lead to it, one at
most where there are no links. -/
theorem lintDirectory_accounts (config : Config) {tree : FileTree} {root : String}
    (wf : tree.WellFormed) (isDir : (tree.find? root).any isDirectory = true) :
    ∃ r, lintDirectory config none tree root = (tree, .ok r) ∧ r.Accounts config tree root ∧
      ∀ l content, ∃ r', lintDirectory config none (tree.withContent content l) root =
          (tree.withContent content l, .ok r') ∧
        r'.Accounts config (tree.withContent content l) root ∧
        findScripts (tree.withContent content l) root = findScripts tree root ∧
        r'.without (ownPaths tree root l) = r.without (ownPaths tree root l) ∧
        ((∀ m target, tree.at? m ≠ some (.link target)) → (ownPaths tree root l).length ≤ 1) := by
  refine ⟨_, lintDirectory_plain isDir, accounts_plain config wf isDir, ?_⟩
  intro l content
  have wf' : (tree.withContent content l).WellFormed := Entry.WellFormed.withContent content wf
  have isDir' := (isDirectory_withContent content l tree root).trans isDir
  refine ⟨_, lintDirectory_plain isDir', accounts_plain config wf' isDir',
    findScripts_withContent content l tree root, ?_, ?_⟩
  · apply without_ofOutcomes (nodup_plainOutcomes config wf' isDir')
      (nodup_plainOutcomes config wf isDir)
    intro path other o
    exact (plainOutcomes_withContent wf isDir content l other o).symm
  · intro plain
    exact length_ownPaths_le wf isDir plain l

/-! ## A file that is repaired -/

/-- The content of a file with a text. -/
def textContent (text : String) : Content :=
  .ok (Text.utf8Bytes text)

/-- A script file beside one that is no program, and one that may not be read. -/
def halfBroken : List (String × Entry) :=
  [("a.tsx", .file (textContent "window.x")), ("b.tsx", .file (textContent "(")),
    ("c.tsx", .file (.error "Permission denied (os error 13)"))]

theorem halfBroken_found : findScripts (projectTree [] halfBroken) "/p" =
    [⟨["a.tsx"], "/p/a.tsx"⟩, ⟨["b.tsx"], "/p/b.tsx"⟩, ⟨["c.tsx"], "/p/c.tsx"⟩] := by
  have root : (projectTree [] halfBroken).locate? "/p" = some ["p"] := by decide +kernel
  exact findScripts_projectTree root (by decide +kernel) (by decide +kernel)

theorem wellFormed_halfBroken : (projectTree [] halfBroken).WellFormed := by
  refine wellFormed_projectTree .nil ?_
  exact .cons (by decide) (by decide) (.file _) <| .cons (by decide) (by decide) (.file _) <|
    .cons (by decide) (by decide) (.file _) .nil

/-- The text `(` is no program, and `window.y` is one. -/
theorem parse?_halfBroken (path : String) (tsx : Script.Language.ofPath path = .ofPath "b.tsx") :
    Program.parse? (.ofPath path) "(" = none ∧
      (Program.parse? (.ofPath path) "window.y").isSome = true := by
  have unread : (Program.parse? (.ofPath "b.tsx") "(").isNone = true := by decide +kernel
  have read : (Program.parse? (.ofPath "b.tsx") "window.y").isSome = true := by decide +kernel
  rw [tsx]
  exact ⟨by simpa using unread, read⟩

/-- What is no program fails, and so does what may not be read. When the program is repaired the
entries for the other files stay. -/
theorem lintDirectory_accounts_halfBroken : ∃ r r',
    (lintDirectory projectConfig none (projectTree [] halfBroken) "/p").2 = .ok r ∧
      (lintDirectory projectConfig none ((projectTree [] halfBroken).withContent
        (textContent "window.y") ["p", "b.tsx"]) "/p").2 = .ok r' ∧
      ⟨"b.tsx", "failed to parse /p/b.tsx: "⟩ ∈ r.failures ∧
      ⟨"c.tsx", "io error: Permission denied (os error 13)"⟩ ∈ r.failures ∧
      (∀ error, ⟨"b.tsx", error⟩ ∉ r'.failures) ∧
      r'.without ["b.tsx"] = r.without ["b.tsx"] := by
  have isDir : ((projectTree [] halfBroken).find? "/p").any isDirectory = true := by decide +kernel
  rcases lintDirectory_accounts projectConfig wellFormed_halfBroken isDir with
    ⟨r, linted, accounts, others⟩
  rcases others ["p", "b.tsx"] (textContent "window.y") with
    ⟨r', again, accounts', scripts, same, -⟩
  rw [halfBroken_found] at scripts
  have own : ownPaths (projectTree [] halfBroken) "/p" ["p", "b.tsx"] = ["b.tsx"] := by
    rw [ownPaths, halfBroken_found]
    decide +kernel
  rw [own] at same
  have relative : Path.relative "/p" "/p/b.tsx" = "b.tsx" ∧
      Path.relative "/p" "/p/c.tsx" = "c.tsx" := by decide +kernel
  have parsed := parse?_halfBroken "/p/b.tsx" (by decide +kernel)
  refine ⟨r, r', congrArg Prod.snd linted, congrArg Prod.snd again, ?_, ?_, ?_, same⟩
  · have listed : ⟨["b.tsx"], "/p/b.tsx"⟩ ∈ findScripts (projectTree [] halfBroken) "/p" := by
      simp [halfBroken_found]
    have text : readSource (projectTree [] halfBroken) "/p/b.tsx" = .ok "(" :=
      readSource_eq_ok_iff.2 ⟨_, by decide +kernel, textOf?_utf8Bytes _⟩
    rw [← relative.1]
    exact (accounts.failure_iff _ listed _).2 (failsWith_of_unread text parsed.1)
  · have listed : ⟨["c.tsx"], "/p/c.tsx"⟩ ∈ findScripts (projectTree [] halfBroken) "/p" := by
      simp [halfBroken_found]
    have found : (projectTree [] halfBroken).find? "/p/c.tsx" =
        some (.file (.error "Permission denied (os error 13)")) :=
      find?_eq_some_iff.2 ⟨["p", "c.tsx"], by decide +kernel, rfl⟩
    rw [← relative.2]
    exact (accounts.failure_iff _ listed _).2 (FailsWith.unreadable found)
  · intro error failed
    have listed : ⟨["b.tsx"], "/p/b.tsx"⟩ ∈ findScripts ((projectTree [] halfBroken).withContent
        (textContent "window.y") ["p", "b.tsx"]) "/p" := by simp [scripts]
    have text : readSource ((projectTree [] halfBroken).withContent (textContent "window.y")
        ["p", "b.tsx"]) "/p/b.tsx" = .ok "window.y" :=
      readSource_eq_ok_iff.2 ⟨_, by decide +kernel, textOf?_utf8Bytes _⟩
    rw [← relative.1] at failed
    exact not_failsWith text parsed.2 ((accounts'.failure_iff _ listed _).1 failed)

/-! ## A file with a link to it -/

/-- A script file that is no program, and a link to it. -/
def linkedFile : List (String × Entry) :=
  [("a.tsx", .file (textContent "(")), ("b.tsx", .link "a.tsx")]

theorem linkedFile_found : findScripts (projectTree [] linkedFile) "p" =
    [⟨["a.tsx"], "p/a.tsx"⟩, ⟨["b.tsx"], "p/b.tsx"⟩] :=
  findScripts_projectTree (locate?_projectTree [] linkedFile).2 (by decide +kernel)
    (by decide +kernel)

/-- A file is listed under each path that leads to it. When a file is repaired that has a link to
it, there is no one entry in which alone the reports differ. -/
theorem lintDirectory_linked : ∃ r r',
    (lintDirectory projectConfig none (projectTree [] linkedFile) "p").2 = .ok r ∧
      (lintDirectory projectConfig none ((projectTree [] linkedFile).withContent
        (textContent "window.y") ["p", "a.tsx"]) "p").2 = .ok r' ∧
      ∀ own, r'.without [own] ≠ r.without [own] := by
  have wf : (projectTree [] linkedFile).WellFormed := wellFormed_projectTree .nil <|
    .cons (by decide) (by decide) (.file _) <| .cons (by decide) (by decide) (.link _) .nil
  have isDir : ((projectTree [] linkedFile).find? "p").any isDirectory = true := by decide +kernel
  have wf' : ((projectTree [] linkedFile).withContent (textContent "window.y")
      ["p", "a.tsx"]).WellFormed := Entry.WellFormed.withContent _ wf
  have isDir' : (((projectTree [] linkedFile).withContent (textContent "window.y")
      ["p", "a.tsx"]).find? "p").any isDirectory = true := by decide +kernel
  have accounts := accounts_plain projectConfig wf isDir
  have accounts' := accounts_plain projectConfig wf' isDir'
  refine ⟨_, _, congrArg Prod.snd (lintDirectory_plain isDir),
    congrArg Prod.snd (lintDirectory_plain isDir'), ?_⟩
  intro own same
  -- one of the two entries is not the one left out
  obtain ⟨name, listed, other⟩ : ∃ name, (name = "a.tsx" ∨ name = "b.tsx") ∧ name ≠ own := by
    by_cases first : "a.tsx" = own
    · exact ⟨"b.tsx", .inr rfl, by rw [← first]; decide⟩
    · exact ⟨"a.tsx", .inl rfl, first⟩
  have file : ⟨[name], "p/" ++ name⟩ ∈ findScripts (projectTree [] linkedFile) "p" := by
    rw [linkedFile_found]
    rcases listed with rfl | rfl <;> decide
  have relative : Path.relative "p" ("p/" ++ name) = name := by
    rcases listed with rfl | rfl <;> decide +kernel
  have parsed := parse?_halfBroken ("p/" ++ name) <| by
    rcases listed with rfl | rfl <;> decide +kernel
  have before : readSource (projectTree [] linkedFile) ("p/" ++ name) = .ok "(" := by
    refine readSource_eq_ok_iff.2 ⟨_, ?_, textOf?_utf8Bytes _⟩
    rcases listed with rfl | rfl <;> decide +kernel
  have after : readSource ((projectTree [] linkedFile).withContent (textContent "window.y")
      ["p", "a.tsx"]) ("p/" ++ name) = .ok "window.y" := by
    refine readSource_eq_ok_iff.2 ⟨_, ?_, textOf?_utf8Bytes _⟩
    rcases listed with rfl | rfl <;> decide +kernel
  have failed := (accounts.failure_iff _ file _).2 (failsWith_of_unread before parsed.1)
  rw [← findScripts_withContent (textContent "window.y") ["p", "a.tsx"]] at file
  rw [relative] at failed
  have kept : _ ∈ ((Report.ofOutcomes (plainOutcomes projectConfig (projectTree [] linkedFile)
      "p")).without [own]).failures :=
    List.mem_filter.2 ⟨failed, by simpa using other⟩
  rw [← same] at kept
  have still := (List.mem_filter.1 kept).1
  rw [← relative] at still
  exact not_failsWith after parsed.2 ((accounts'.failure_iff _ file _).1 still)

end Project
end ClientBoundary
