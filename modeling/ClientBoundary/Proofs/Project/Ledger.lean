import ClientBoundary.Project.Report
import ClientBoundary.Proofs.Project.EntryStore
import Mathlib.Data.Set.Function

/-!
# What a cache remembers

A cache answers like a ledger of readings: a file is answered by the last reading that was stored
under its entry name, if that had the same text. The entry name does not tell a path, so this may
be a reading of another file.

- `Ledger.record`, `Ledger.answer`: what is stored for a file, and what is reported of it;
- `Mirrors`: the entries in the directory of a cache are those of a ledger;
- `lintFile_cached`: linting a file with a cache does what the ledger says.
-/

namespace ClientBoundary
namespace Project

open Entry
open FileTree (Grows)
open Rules (Config Failure Finding)

/-! ## Ledgers -/

/-- A file as it was read. -/
structure Reading where
  path : String
  source : String
  deriving DecidableEq, Repr

/-- What is found in a file by itself. -/
def Reading.outcome (config : Config) (r : Reading) : Except Failure (List Finding) :=
  config.lint r.path r.source

/-- The readings whose findings were stored, the last one first. -/
abbrev Ledger := List Reading

namespace Ledger

/-- The reading that an entry name stands for. -/
def stored? (ledger : Ledger) (name : String) : Option Reading :=
  ledger.find? fun r => Cache.entryName r.path = name

/-- The reading that answers for a file: it has the same entry name and the same text. -/
def served? (ledger : Ledger) (r : Reading) : Option Reading :=
  (ledger.stored? (Cache.entryName r.path)).filter fun s => s.source = r.source

/-- What is reported of a file. -/
def answer (config : Config) (ledger : Ledger) (r : Reading) : Except Failure (List Finding) :=
  ((ledger.served? r).getD r).outcome config

/-- The ledger after a file: one without an answer is stored, unless it does not parse. -/
def record (config : Config) (ledger : Ledger) (r : Reading) : Ledger :=
  if (ledger.served? r).isSome then ledger
  else
    match r.outcome config with
    | .ok _ => r :: ledger
    | .error _ => ledger

/-- The ledger after files. -/
def recordAll (config : Config) (ledger : Ledger) (readings : List Reading) : Ledger :=
  readings.foldl (record config) ledger

/-- The readings that answer for files, each with the file it answers for. -/
def hits (config : Config) : Ledger → List Reading → List (Reading × Reading)
  | _, [] => []
  | ledger, r :: more =>
      (ledger.served? r).toList.map (·, r) ++ hits config (ledger.record config r) more

theorem stored?_cons_self (ledger : Ledger) (r : Reading) :
    Ledger.stored? (r :: ledger) (Cache.entryName r.path) = some r := by
  simp [stored?]

theorem stored?_cons_of_ne {ledger : Ledger} {r : Reading} {name : String}
    (ne : name ≠ Cache.entryName r.path) :
    Ledger.stored? (r :: ledger) name = ledger.stored? name := by
  have other : Cache.entryName r.path ≠ name := fun same => ne same.symm
  simp [stored?, other]

theorem mem_of_stored? {ledger : Ledger} {name : String} {s : Reading}
    (h : ledger.stored? name = some s) : s ∈ ledger :=
  List.mem_of_find?_eq_some h

/-- What a file adds to a ledger is its reading, and only if it parses. -/
theorem mem_record {config : Config} {ledger : Ledger} {r s : Reading}
    (mem : s ∈ ledger.record config r) :
    s ∈ ledger ∨ s = r ∧ ∃ findings, r.outcome config = .ok findings := by
  unfold record at mem
  split_ifs at mem
  · exact .inl mem
  · cases linted : r.outcome config with
    | error e =>
        rw [linted] at mem
        exact .inl mem
    | ok findings =>
        rw [linted] at mem
        rcases List.mem_cons.1 mem with rfl | old
        · exact .inr ⟨rfl, findings, rfl⟩
        · exact .inl old

theorem served?_eq_some {ledger : Ledger} {r s : Reading} (h : ledger.served? r = some s) :
    ledger.stored? (Cache.entryName r.path) = some s ∧ s.source = r.source := by
  rcases Option.filter_eq_some_iff.1 h with ⟨stored, same⟩
  exact ⟨stored, by simpa using same⟩

end Ledger

/-! ## The directory of a cache -/

/-- The findings of a file; none if it does not parse. -/
def Reading.findings (config : Config) (r : Reading) : List Finding :=
  match r.outcome config with
  | .ok findings => findings
  | .error _ => []

/-- The bytes that are stored for a reading. -/
def entryBytes (config : Config) (cache : Cache) (r : Reading) : List UInt8 :=
  Text.utf8Bytes
    (CacheEntry.mk (Cache.digest r.source cache.fingerprint) (r.findings config)).render

/-- No two of some texts have the same digest under the fingerprint of a cache. -/
def CollisionFree (cache : Cache) (texts : Set String) : Prop :=
  Set.InjOn Digest.sha256Hex ((Cache.hashedBytes · cache.fingerprint) '' texts)

theorem CollisionFree.eq {cache : Cache} {texts : Set String} (h : CollisionFree cache texts)
    {s t : String} (hs : s ∈ texts) (ht : t ∈ texts)
    (same : Cache.digest s cache.fingerprint = Cache.digest t cache.fingerprint) : s = t :=
  hashedBytes_injective cache.fingerprint
    (h (Set.mem_image_of_mem _ hs) (Set.mem_image_of_mem _ ht) same)

/-- The directory of a cache, in a well-formed tree, holds the entries of a ledger: those of files
that parse, with texts among the given ones. -/
structure Mirrors (config : Config) (cache : Cache) (texts : Set String) (dir : Location)
    (tree : FileTree) (ledger : Ledger) (entries : List (String × Entry)) : Prop where
  wellFormed : tree.WellFormed
  opened : cache.Opened tree dir entries
  held : ∀ n, entries.lookup n =
    (ledger.stored? n).map fun r => .file (.ok (entryBytes config cache r))
  parsed : ∀ r ∈ ledger, r.source ∈ texts ∧ ∃ findings, r.outcome config = .ok findings

section Files

variable {config : Config} {cache : Cache} {texts : Set String} {dir : Location} {tree : FileTree}
variable {ledger : Ledger} {entries : List (String × Entry)} {r : Reading}

theorem Mirrors.slot (h : Mirrors config cache texts dir tree ledger entries) (n : String) :
    IsSlot entries n := by
  intro e found
  rw [h.held] at found
  rcases Option.map_eq_some_iff.1 found with ⟨s, -, rfl⟩
  exact ⟨_, rfl⟩

theorem fits_findings (r : Reading) : ∀ f ∈ r.findings config, f.Fits := by
  intro f mem
  unfold Reading.findings at mem
  cases linted : r.outcome config with
  | error e => simp [linted] at mem
  | ok findings =>
      rw [linted] at mem
      exact (Rules.lint_findings linted f mem).2

/-- The entry that is read for a file is that of the reading that answers for it. -/
theorem get_eq_served (free : CollisionFree cache texts)
    (h : Mirrors config cache texts dir tree ledger entries) (known : r.source ∈ texts) :
    cache.get tree r.path r.source = (tree, (ledger.served? r).map (·.findings config)) := by
  cases stored : ledger.stored? (Cache.entryName r.path) with
  | none =>
      have absent : entries.lookup (Cache.entryName r.path) = none := by
        rw [h.held, stored, Option.map_none]
      rw [Cache.get_of_free h.opened absent, Ledger.served?, stored]
      rfl
  | some s =>
      have present : entries.lookup (Cache.entryName r.path) =
          some (.file (.ok (entryBytes config cache s))) := by
        rw [h.held, stored, Option.map_some]
      have fits : ∀ f ∈ (CacheEntry.mk (Cache.digest s.source cache.fingerprint)
          (s.findings config)).findings, f.Fits := fits_findings s
      rw [Cache.get_of_entry h.opened fits present, Ledger.served?, stored]
      by_cases same : s.source = r.source
      · simp [same]
      · -- another text has another digest
        have differ : Cache.digest s.source cache.fingerprint ≠
            Cache.digest r.source cache.fingerprint := by
          intro collides
          have mem := (h.parsed s (Ledger.mem_of_stored? stored)).1
          exact same (free.eq mem known collides)
        simp [same, differ]

/-- Storing the findings of a file puts its reading into the ledger. -/
theorem Mirrors.set (h : Mirrors config cache texts dir tree ledger entries)
    (known : r.source ∈ texts) {findings : List Finding}
    (linted : r.outcome config = .ok findings) :
    (∃ more, Mirrors config cache texts dir (cache.set tree r.path r.source findings)
        (r :: ledger) more) ∧
      Grows (Inside dir) tree (cache.set tree r.path r.source findings) := by
  have slot := h.slot (Cache.entryName r.path)
  have same : r.findings config = findings := by rw [Reading.findings, linted]
  refine ⟨⟨_, Cache.wellFormed_set h.opened h.wellFormed slot r.source findings,
    Cache.opened_set h.opened slot r.source findings, ?_, ?_⟩,
    Cache.grows_set h.opened slot r.source findings⟩
  · -- the new entry stands under the name of the reading, all others stay
    intro n
    by_cases name : n = Cache.entryName r.path
    · subst name
      rw [lookup_putName_self, Ledger.stored?_cons_self, Option.map_some, entryBytes, same]
    · rw [lookup_putName_of_ne name, Ledger.stored?_cons_of_ne name, h.held]
  · intro s mem
    rcases List.mem_cons.1 mem with rfl | old
    · exact ⟨known, findings, linted⟩
    · exact h.parsed s old

/-- Linting a file with a cache does what the ledger says. -/
theorem lintFile_cached (free : CollisionFree cache texts)
    (h : Mirrors config cache texts dir tree ledger entries)
    (read : readSource tree r.path = .ok r.source) (known : r.source ∈ texts) :
    (lintFile config (some cache) tree r.path).2 = ledger.answer config r ∧
      (∃ more, Mirrors config cache texts dir (lintFile config (some cache) tree r.path).1
        (ledger.record config r) more) ∧
      Grows (Inside dir) tree (lintFile config (some cache) tree r.path).1 := by
  have got := get_eq_served free h known
  unfold lintFile
  rw [read]
  simp only [got]
  -- a file that is answered leaves everything as it is, another one is linted and stored
  cases served : ledger.served? r with
  | some s =>
      rcases Ledger.served?_eq_some served with ⟨stored, -⟩
      rcases h.parsed s (Ledger.mem_of_stored? stored) with ⟨-, findings, linted⟩
      have found : s.findings config = findings := by rw [Reading.findings, linted]
      simp only [Option.map_some, found, Ledger.answer, served, Option.getD_some, linted,
        Ledger.record, Option.isSome_some, if_true, true_and]
      exact ⟨⟨entries, h⟩, Grows.refl (Inside dir) tree⟩
  | none =>
      simp only [Option.map_none, Ledger.answer, served, Option.getD_none, Ledger.record,
        Option.isSome_none, Bool.false_eq_true, if_false]
      cases linted : r.outcome config with
      | error e =>
          have linted : config.lint r.path r.source = .error e := linted
          simp only [linted, true_and]
          exact ⟨⟨entries, h⟩, Grows.refl (Inside dir) tree⟩
      | ok findings =>
          have stored := h.set known linted
          have linted : config.lint r.path r.source = .ok findings := linted
          simp only [linted, true_and]
          exact stored

end Files

end Project
end ClientBoundary
