import ClientBoundary.Proofs.Project.CachedRuns

/-!
# Histories of runs with a cache

A run with a cache reports what a run without one reports as long as every file that is answered
from the cache is answered by a reading of its own path, or nothing is found in either. The name of
an entry keeps too little of the path for this always to be so.

- `History`: the trees and ledgers that runs with a cache, and changes in between, lead to;
- `Admissible`: what a run relies on;
- `lintDirectory_cache_eq_iff`: when the two reports are the same.
-/

namespace ClientBoundary
namespace Project

open Entry
open FileTree (Grows)
open ClientBoundary.Path (IsName components)
open Rules (Config Failure Finding)

/-! ## Runs and changes -/

/-- What a run with a cache relies on: no script file stands in the directory of the cache, and all
script files have some of the given texts. -/
structure Admissible (cache : Cache) (texts : Set String) (tree : FileTree) (root : String) :
    Prop where
  apart : ∀ f ∈ findScripts tree root, ∀ dir l, tree.locate? cache.directory = some dir →
    tree.locate? f.path = some l → ¬Inside dir l
  known : ∀ r ∈ scriptReadings tree root, r.source ∈ texts

/-- The trees and the ledgers that runs with a cache lead to: from a tree in which the directory of
the cache is empty, by runs on any roots and by changes to any tree in which that directory holds
the same. -/
inductive History (config : Config) (cache : Cache) (texts : Set String) : FileTree → Ledger → Prop
  | start {tree : FileTree} (wellFormed : tree.WellFormed)
      (empty : tree.find? cache.directory = some (.directory [])) :
      History config cache texts tree []
  | change {tree changed : FileTree} {ledger : Ledger}
      (before : History config cache texts tree ledger)
      (wellFormed : changed.WellFormed)
      (same : changed.find? cache.directory = tree.find? cache.directory) :
      History config cache texts changed ledger
  | run {tree : FileTree} {ledger : Ledger} (before : History config cache texts tree ledger)
      {root : String} (admissible : Admissible cache texts tree root) :
      History config cache texts (lintDirectory config (some cache) tree root).1
        (ledger.recordAll config (scriptReadings tree root))

section Histories

variable {config : Config} {cache : Cache} {texts : Set String} {dir : Location}
variable {tree : FileTree} {root : String} {ledger : Ledger} {entries : List (String × Entry)}

/-- The script files of a run are read as they are, however the directory of the cache grows. -/
theorem Admissible.stays (h : Admissible cache texts tree root) (wf : tree.WellFormed)
    (opened : cache.Opened tree dir entries) (isDir : (tree.find? root).any isDirectory = true) :
    ∀ f ∈ findScripts tree root, Stays dir tree f.path := by
  intro f mem grown grows
  rcases found_of_mem_findScripts wf isDir mem with ⟨⟨l, content, located, here⟩, -, -⟩
  have outside := h.apart f mem dir l opened.located located
  rw [readSource, readSource, FileTree.find?_of_grows grows located here outside]

/-- One run: what it reports, and the ledger behind it. -/
theorem lintDirectory_cached (free : CollisionFree cache texts)
    (h : Mirrors config cache texts dir tree ledger entries)
    (admissible : Admissible cache texts tree root)
    (isDir : (tree.find? root).any isDirectory = true) :
    (lintDirectory config (some cache) tree root).2 = .ok (.ofOutcomes
        (answerFiles config root tree ledger (findScripts tree root))) ∧
      ∃ more, Mirrors config cache texts dir (lintDirectory config (some cache) tree root).1
        (ledger.recordAll config (scriptReadings tree root)) more := by
  have known := admissible.known
  rw [scriptReadings, if_pos isDir] at known ⊢
  rcases lintFiles_cached free root (findScripts tree root) h
    (Grows.refl (Inside dir) tree) (admissible.stays h.wellFormed h.opened isDir) known
      with ⟨outcomes, mirrors⟩
  rw [lintDirectory, if_pos isDir]
  simp only [outcomes, true_and]
  exact mirrors

/-- After any history the directory of the cache holds the entries of the ledger. -/
theorem History.mirrors (free : CollisionFree cache texts)
    (h : History config cache texts tree ledger) :
    ∃ dir entries, Mirrors config cache texts dir tree ledger entries := by
  -- a change may move the directory of the cache, but what it holds stays
  induction h with
  | start wellFormed empty =>
      rcases Cache.opened_of_find? empty with ⟨dir, opened⟩
      exact ⟨dir, [], wellFormed, opened, fun n => rfl, by simp⟩
  | change before wellFormed same ih =>
      rcases ih with ⟨dir, entries, mirrors⟩
      rw [mirrors.opened.find?] at same
      rcases Cache.opened_of_find? same with ⟨moved, opened⟩
      exact ⟨moved, entries, wellFormed, opened, mirrors.held, mirrors.parsed⟩
  | run before admissible ih =>
      rename_i tree ledger root
      rcases ih with ⟨dir, entries, mirrors⟩
      cases isDir : (tree.find? root).any isDirectory with
      | true =>
          rcases lintDirectory_cached free mirrors admissible isDir with ⟨-, more, mirrored⟩
          exact ⟨dir, more, mirrored⟩
      | false =>
          refine ⟨dir, entries, ?_⟩
          rw [lintDirectory, scriptReadings, isDir]
          exact mirrors

/-- After any history, a run with the cache reports what a run without one reports exactly if every
file that is answered from the cache is answered by a reading of its own path, or nothing is found
in either. -/
theorem lintDirectory_cache_eq_iff (free : CollisionFree cache texts)
    (history : History config cache texts tree ledger)
    (admissible : Admissible cache texts tree root) :
    (lintDirectory config (some cache) tree root).2 = (lintDirectory config none tree root).2 ↔
      ∀ hit ∈ ledger.hits config (scriptReadings tree root), hit.1.path = hit.2.path ∨
        hit.1.outcome config = .ok [] ∧ hit.2.outcome config = .ok [] := by
  rcases history.mirrors free with ⟨dir, entries, mirrors⟩
  cases isDir : (tree.find? root).any isDirectory with
  | false =>
      have unread : scriptReadings tree root = [] := by
        rw [scriptReadings, isDir]
        rfl
      simp [lintDirectory, isDir, unread, Ledger.hits]
  | true =>
      rcases lintDirectory_cached free mirrors admissible isDir with ⟨cached, -⟩
      have plain : (lintDirectory config none tree root).2 = .ok (.ofOutcomes
          ((findScripts tree root).map fun f =>
            (Path.relative root f.path, plainOutcome config tree f.path))) := by
        rw [lintDirectory, if_pos isDir, lintFiles_plain]
      have read : scriptReadings tree root = readings tree (findScripts tree root) := by
        rw [scriptReadings, if_pos isDir]
      -- no two files have the same relative path, so the reports tell the outcomes
      have paths : (answerFiles config root tree ledger (findScripts tree root)).map (·.1) =
          ((findScripts tree root).map fun f =>
            (Path.relative root f.path, plainOutcome config tree f.path)).map (·.1) := by
        rw [map_answerFiles, List.map_map]
        rfl
      have distinct : ((answerFiles config root tree ledger
          (findScripts tree root)).map (·.1)).Nodup := by
        rw [map_answerFiles]
        exact nodup_relative mirrors.wellFormed isDir
      have failures : ∀ path e,
          (path, .error e) ∈ answerFiles config root tree ledger (findScripts tree root) →
            (path, .error e) ∈ (findScripts tree root).map fun f =>
              (Path.relative root f.path, plainOutcome config tree f.path) :=
        failure_of_mem_answerFiles _ fun s hs => (mirrors.parsed s hs).2
      rw [cached, plain, read]
      calc (Except.ok (.ofOutcomes (answerFiles config root tree ledger (findScripts tree root))) :
              Except Failure Report) = .ok (.ofOutcomes ((findScripts tree root).map fun f =>
                (Path.relative root f.path, plainOutcome config tree f.path)))
          ↔ answerFiles config root tree ledger (findScripts tree root) =
              (findScripts tree root).map fun f =>
                (Path.relative root f.path, plainOutcome config tree f.path) :=
            ⟨fun same => ofOutcomes_injective paths distinct failures (Except.ok.inj same),
              fun same => by rw [same]⟩
        _ ↔ ∀ hit ∈ ledger.hits config (readings tree (findScripts tree root)),
              hit.1.outcome config = hit.2.outcome config :=
            answerFiles_eq_plain_iff (findScripts tree root) ledger
        _ ↔ _ := by
            refine forall₂_congr fun hit mem => ?_
            rcases mem_hits _ (fun s hs => (mirrors.parsed s hs).2)
              hit mem with ⟨source, findings, linted⟩
            exact outcome_eq_iff source linted

end Histories

/-! ## A file that is renamed -/

/-- All rules are on. -/
def projectConfig : Config := .recommended "p"

def projectCache : Cache := ⟨"c", projectConfig.fingerprint⟩

/-- A project beside the directory of its cache. -/
def projectTree (stored project : List (String × Entry)) : FileTree where
  top := .directory [("c", .directory stored), ("p", .directory project)]
  working := []

/-- A file in a directory of a project. -/
def nestedFile : List (String × Entry) :=
  [("a", .directory [("b.tsx", .file (.ok (Text.utf8Bytes "window.x")))])]

/-- The same file right in a project. Its entry has the same name. -/
def flatFile : List (String × Entry) :=
  [("a_b.tsx", .file (.ok (Text.utf8Bytes "window.x")))]

/-- The tree after a run, when the file has been renamed. -/
def renamedTree : FileTree :=
  let linted := (lintDirectory projectConfig (some projectCache) (projectTree [] nestedFile) "p").1
  match linted.find? "c" with
  | some (.directory stored) => projectTree stored flatFile
  | _ => projectTree [] flatFile

section Renamed

variable {stored project : List (String × Entry)}

theorem locate?_projectTree (stored project : List (String × Entry)) :
    (projectTree stored project).locate? "c" = some ["c"] ∧
      (projectTree stored project).locate? "p" = some ["p"] := by
  have cache : steps "c" = [.name "c"] ∧ origin [] "c" = [] := by decide
  have root : steps "p" = [.name "p"] ∧ origin [] "p" = [] := by decide
  constructor
  · rw [FileTree.locate?_eq (by decide)]
    simp [projectTree, cache, follow?, linkLimit, reach, at?]
  · rw [FileTree.locate?_eq (by decide)]
    simp [projectTree, root, follow?, linkLimit, reach, at?, List.lookup_cons]

theorem at?_projectTree (stored project : List (String × Entry)) :
    (projectTree stored project).at? ["p"] = some (.directory project) := by
  simp [projectTree, FileTree.at?, at?, List.lookup_cons]

theorem find?_projectTree (stored project : List (String × Entry)) :
    (projectTree stored project).find? "c" = some (.directory stored) ∧
      (projectTree stored project).find? "p" = some (.directory project) := by
  rcases locate?_projectTree stored project with ⟨cache, root⟩
  constructor
  · rw [FileTree.find?, cache]
    simp [projectTree, FileTree.at?, at?]
  · rw [FileTree.find?, root]
    exact at?_projectTree stored project

/-- What a walk finds in the order of the names is what is found. -/
theorem findScripts_projectTree {path : String} {scripts : List ScriptFile}
    (root : (projectTree stored project).locate? path = some ["p"])
    (walked : walk (projectTree stored project) (walkBound (projectTree stored project)) [["p"]]
      ["p"] [] path project = scripts)
    (ordered : scripts.Pairwise fun f g => namesLe f.names g.names = true) :
    findScripts (projectTree stored project) path = scripts := by
  simp only [findScripts, root, at?_projectTree, walked]
  exact List.mergeSort_of_pairwise ordered

theorem wellFormed_projectTree (cache : (Entry.directory stored).WellFormed)
    (files : (Entry.directory project).WellFormed) : (projectTree stored project).WellFormed := by
  have order : ∀ m ∈ ["p"], "c" < m := by decide
  exact .cons (by decide) order cache (.cons (by decide) (by simp) files .nil)

theorem nestedFile_found (stored : List (String × Entry)) :
    findScripts (projectTree stored nestedFile) "p" = [⟨["a", "b.tsx"], "p/a/b.tsx"⟩] ∧
      (projectTree stored nestedFile).locate? "p/a/b.tsx" = some ["p", "a", "b.tsx"] ∧
      readSource (projectTree stored nestedFile) "p/a/b.tsx" = .ok "window.x" := by
  have parts : steps "p/a/b.tsx" = [.name "p", .name "a", .name "b.tsx"] ∧
      origin [] "p/a/b.tsx" = [] := by decide
  have located : (projectTree stored nestedFile).locate? "p/a/b.tsx" =
      some ["p", "a", "b.tsx"] := by
    rw [FileTree.locate?_eq (by decide)]
    simp [projectTree, nestedFile, parts, follow?, linkLimit, reach, at?, List.lookup_cons]
  refine ⟨?_, located, ?_⟩
  · have script : isScriptFile "p/a/b.tsx" = true := by decide +kernel
    have entered : isSkippedName "a" = false := by decide
    have step : Path.join "p" "a" = "p/a" := by decide
    have next : Path.join "p/a" "b.tsx" = "p/a/b.tsx" := by decide
    obtain ⟨fuel, bound⟩ : ∃ fuel, walkBound (projectTree stored nestedFile) = fuel + 2 := ⟨_, rfl⟩
    refine findScripts_projectTree (locate?_projectTree stored nestedFile).2 ?_
      (List.pairwise_singleton _ _)
    rw [bound]
    simp [walk, nestedFile, meets?, step, next, entered, script]
  · rw [readSource, FileTree.find?, located]
    simp [projectTree, nestedFile, FileTree.at?, at?, List.lookup_cons, textOf?_utf8Bytes]

theorem flatFile_found (stored : List (String × Entry)) :
    findScripts (projectTree stored flatFile) "p" = [⟨["a_b.tsx"], "p/a_b.tsx"⟩] ∧
      (projectTree stored flatFile).locate? "p/a_b.tsx" = some ["p", "a_b.tsx"] ∧
      readSource (projectTree stored flatFile) "p/a_b.tsx" = .ok "window.x" := by
  have parts : steps "p/a_b.tsx" = [.name "p", .name "a_b.tsx"] ∧
      origin [] "p/a_b.tsx" = [] := by decide
  have located : (projectTree stored flatFile).locate? "p/a_b.tsx" = some ["p", "a_b.tsx"] := by
    rw [FileTree.locate?_eq (by decide)]
    simp [projectTree, flatFile, parts, follow?, linkLimit, reach, at?, List.lookup_cons]
  refine ⟨?_, located, ?_⟩
  · have script : isScriptFile "p/a_b.tsx" = true := by decide +kernel
    have step : Path.join "p" "a_b.tsx" = "p/a_b.tsx" := by decide
    obtain ⟨fuel, bound⟩ : ∃ fuel, walkBound (projectTree stored flatFile) = fuel + 1 := ⟨_, rfl⟩
    refine findScripts_projectTree (locate?_projectTree stored flatFile).2 ?_
      (List.pairwise_singleton _ _)
    rw [bound]
    simp [walk, flatFile, meets?, step, script]
  · rw [readSource, FileTree.find?, located]
    simp [projectTree, flatFile, FileTree.at?, at?, List.lookup_cons, textOf?_utf8Bytes]

theorem outcome_nestedFile : ∃ f more,
    (Reading.mk "p/a/b.tsx" "window.x").outcome projectConfig = .ok (f :: more) := by
  have found : ((Reading.mk "p/a/b.tsx" "window.x").outcome projectConfig).toOption.map
      (·.isEmpty) = some false := by
    decide +kernel
  cases linted : (Reading.mk "p/a/b.tsx" "window.x").outcome projectConfig with
  | error e => simp [linted, Except.toOption] at found
  | ok findings =>
      cases findings with
      | nil => simp [linted, Except.toOption] at found
      | cons f more => exact ⟨f, more, rfl⟩

/-- One script file below `p`, with the text `window.x`, makes a run. -/
theorem admissible_projectTree {f : ScriptFile} {l : Location}
    (scripts : findScripts (projectTree stored project) "p" = [f])
    (located : (projectTree stored project).locate? f.path = some ("p" :: l))
    (read : readSource (projectTree stored project) f.path = .ok "window.x") :
    scriptReadings (projectTree stored project) "p" = [⟨f.path, "window.x"⟩] ∧
      Admissible projectCache {"window.x"} (projectTree stored project) "p" := by
  have root := (find?_projectTree stored project).2
  have found : scriptReadings (projectTree stored project) "p" = [⟨f.path, "window.x"⟩] := by
    simp [scriptReadings, root, isDirectory, scripts, readings, read, Except.toOption]
  refine ⟨found, ?_, ?_⟩
  · intro g mem dir m cache script
    rw [scripts, List.mem_singleton] at mem
    subst mem
    rw [projectCache, (locate?_projectTree stored project).1] at cache
    rw [located] at script
    rcases Option.some.inj cache with rfl
    rcases Option.some.inj script with rfl
    rintro ⟨n, same⟩
    exact absurd (List.cons.inj same).1 (by decide)
  · intro r mem
    rw [found, List.mem_singleton] at mem
    subst mem
    rfl

/-- The first run reports what a plain one does; after the file has been renamed the next one does
not. -/
theorem lintDirectory_cache_renamed :
    (lintDirectory projectConfig (some projectCache) (projectTree [] nestedFile) "p").2 =
        (lintDirectory projectConfig none (projectTree [] nestedFile) "p").2 ∧
      (lintDirectory projectConfig (some projectCache) renamedTree "p").2 ≠
        (lintDirectory projectConfig none renamedTree "p").2 := by
  have free : CollisionFree projectCache {"window.x"} := by
    rw [CollisionFree, Set.image_singleton]
    exact Set.injOn_singleton _ _
  have nested : (Entry.directory nestedFile).WellFormed :=
    .cons (by decide) (by decide) (.cons (by decide) (by decide) (.file _) .nil) .nil
  have flat : (Entry.directory flatFile).WellFormed :=
    .cons (by decide) (by decide) (.file _) .nil
  rcases nestedFile_found [] with ⟨scripts, located, read⟩
  rcases admissible_projectTree scripts located read with ⟨first, admissible⟩
  have start : History projectConfig projectCache {"window.x"} (projectTree [] nestedFile) [] :=
    .start (wellFormed_projectTree .nil nested) (find?_projectTree [] nestedFile).1
  refine ⟨?_, ?_⟩
  · rw [lintDirectory_cache_eq_iff free start admissible, first]
    simp [Ledger.hits, Ledger.served?, Ledger.stored?]
  · have ran := start.run admissible
    rcases ran.mirrors free with ⟨dir, stored, mirrors⟩
    -- what the first run stored is known only as far as the history tells
    have held := mirrors.opened.find?
    have renamed : renamedTree = projectTree stored flatFile := by
      have held : (lintDirectory projectConfig (some projectCache)
          (projectTree [] nestedFile) "p").1.find? "c" = some (.directory stored) := held
      rw [renamedTree, held]
    -- renaming the file is a change that leaves the directory of the cache alone
    have changed :
        History projectConfig projectCache {"window.x"} (projectTree stored flatFile) _ :=
      ran.change (wellFormed_projectTree (mirrors.wellFormed.at? mirrors.opened.here) flat)
        ((find?_projectTree stored flatFile).1.trans held.symm)
    rcases flatFile_found stored with ⟨scripts, located, read⟩
    rcases admissible_projectTree scripts located read with ⟨second, admissible⟩
    rw [renamed, ne_eq, lintDirectory_cache_eq_iff free changed admissible, first, second]
    have ledger : Ledger.recordAll projectConfig [] [⟨"p/a/b.tsx", "window.x"⟩] =
        [⟨"p/a/b.tsx", "window.x"⟩] := by
      rcases outcome_nestedFile with ⟨f, more, linted⟩
      simp [Ledger.recordAll, Ledger.record, Ledger.served?, Ledger.stored?, linted]
    have served : Ledger.served? [⟨"p/a/b.tsx", "window.x"⟩] ⟨"p/a_b.tsx", "window.x"⟩ =
        some ⟨"p/a/b.tsx", "window.x"⟩ := by
      decide
    -- the reading of the old path answers for the new one, and there is a finding in it
    intro agrees
    rw [ledger] at agrees
    rcases agrees (⟨"p/a/b.tsx", "window.x"⟩, ⟨"p/a_b.tsx", "window.x"⟩)
      (by simp [Ledger.hits, served]) with path | ⟨clean, -⟩
    · exact absurd path (by decide)
    · rcases outcome_nestedFile with ⟨f, more, linted⟩
      rw [linted] at clean
      cases clean

end Renamed

end Project
end ClientBoundary
