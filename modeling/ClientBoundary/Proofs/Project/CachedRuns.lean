import ClientBoundary.Proofs.Project.Ledger

/-!
# Runs over files with a cache

Linting files with a cache reports of each what a ledger says, and the ledger goes along from file
to file.

- `ofOutcomes_injective`: a report tells the outcomes of the files;
- `lintFiles_cached`: what is reported of files, and the ledger afterwards;
- `answerFiles_eq_plain_iff`: when that is what the files have by themselves;
- `outcome_eq_iff`: when two files of the same text have the same outcome.
-/

namespace ClientBoundary
namespace Project

open Entry
open FileTree (Grows)
open Rules (Config Failure Finding)

/-! ## Reports -/

theorem mem_files {outcomes : List (String × Except Failure (List Finding))} {r : FileReport} :
    r ∈ (Report.ofOutcomes outcomes).files ↔ (r.path, .ok r.findings) ∈ outcomes := by
  rw [Report.ofOutcomes, List.mem_mergeSort, List.mem_filterMap]
  constructor
  · rintro ⟨⟨path, outcome⟩, mem, same⟩
    cases outcome with
    | error e => simp at same
    | ok findings =>
        rcases Option.some.inj same with rfl
        exact mem
  · intro mem
    exact ⟨_, mem, rfl⟩

theorem mem_failures {outcomes : List (String × Except Failure (List Finding))} {r : FileFailure} :
    r ∈ (Report.ofOutcomes outcomes).failures ↔
      ∃ e : Failure, r.error = e.message ∧ (r.path, .error e) ∈ outcomes := by
  rw [Report.ofOutcomes, List.mem_mergeSort, List.mem_filterMap]
  constructor
  · rintro ⟨⟨path, outcome⟩, mem, same⟩
    cases outcome with
    | ok findings => simp at same
    | error e =>
        rcases Option.some.inj same with rfl
        exact ⟨e, rfl, mem⟩
  · rcases r with ⟨path, error⟩
    rintro ⟨e, rfl, mem⟩
    exact ⟨_, mem, rfl⟩

/-- Lists of pairs are the same if they agree on their keys, which differ, and one is in the
other. -/
theorem eq_of_forall_mem {α β : Type} : ∀ {a b : List (α × β)}, a.map (·.1) = b.map (·.1) →
    (a.map (·.1)).Nodup → (∀ x ∈ a, x ∈ b) → a = b
  | [], b, keys, _, _ => by
      rw [List.map_nil] at keys
      exact (List.map_eq_nil_iff.1 keys.symm).symm
  | (k, v) :: a, [], keys, _, _ => by simp at keys
  | (k, v) :: a, (l, w) :: b, keys, distinct, inside => by
      simp only [List.map_cons, List.cons.injEq] at keys
      rcases keys with ⟨rfl, keys⟩
      rw [List.map_cons, List.nodup_cons] at distinct
      have head : v = w := by
        rcases List.mem_cons.1 (inside (k, v) List.mem_cons_self) with same | later
        · exact (Prod.mk.inj same).2
        · have again : k ∈ a.map (·.1) := by
            rw [keys]
            exact List.mem_map.2 ⟨_, later, rfl⟩
          exact absurd again distinct.1
      have tail : ∀ x ∈ a, x ∈ b := by
        intro x mem
        rcases List.mem_cons.1 (inside x (List.mem_cons_of_mem _ mem)) with rfl | later
        · exact absurd (List.mem_map.2 ⟨_, mem, rfl⟩) distinct.1
        · exact later
      rw [head, eq_of_forall_mem keys distinct.2 tail]

/-- Reports tell the findings of files with different paths, so if the failures of one are those of
the other, they tell all outcomes. -/
theorem ofOutcomes_injective {a b : List (String × Except Failure (List Finding))}
    (paths : a.map (·.1) = b.map (·.1)) (distinct : (a.map (·.1)).Nodup)
    (failures : ∀ path e, (path, .error e) ∈ a → (path, .error e) ∈ b)
    (same : Report.ofOutcomes a = Report.ofOutcomes b) : a = b := by
  refine eq_of_forall_mem paths distinct ?_
  rintro ⟨path, outcome⟩ mem
  cases outcome with
  | error e => exact failures path e mem
  | ok findings =>
      have listed : (⟨path, findings⟩ : FileReport) ∈ (Report.ofOutcomes a).files := mem_files.2 mem
      rw [same] at listed
      exact mem_files.1 listed

/-! ## Files of a run -/

/-- The readings of script files. -/
def readings (tree : FileTree) (files : List ScriptFile) : List Reading :=
  files.filterMap fun f => (readSource tree f.path).toOption.map (Reading.mk f.path)

/-- The readings of the script files below a directory. -/
def scriptReadings (tree : FileTree) (root : String) : List Reading :=
  if (tree.find? root).any isDirectory then readings tree (findScripts tree root) else []

/-- The outcome for a file by itself. -/
def plainOutcome (config : Config) (tree : FileTree) (path : String) :
    Except Failure (List Finding) :=
  match readSource tree path with
  | .error e => .error e
  | .ok source => config.lint path source

/-- The outcomes for files when a ledger answers. -/
def answerFiles (config : Config) (root : String) (tree : FileTree) :
    Ledger → List ScriptFile → List (String × Except Failure (List Finding))
  | _, [] => []
  | ledger, f :: more =>
      match readSource tree f.path with
      | .error e =>
          (Path.relative root f.path, .error e) :: answerFiles config root tree ledger more
      | .ok source =>
          (Path.relative root f.path, ledger.answer config ⟨f.path, source⟩) ::
            answerFiles config root tree (ledger.record config ⟨f.path, source⟩) more

/-- A file that is read in a tree is read in every tree that grew from it in the directory of a
cache. -/
def Stays (dir : Location) (tree : FileTree) (path : String) : Prop :=
  ∀ grown, Grows (Inside dir) tree grown → readSource grown path = readSource tree path

section Runs

variable {config : Config} {cache : Cache} {texts : Set String} {dir : Location}
variable {start tree : FileTree} {root : String} {ledger : Ledger} {entries : List (String × Entry)}

theorem lintFile_plain (path : String) :
    lintFile config none tree path = (tree, plainOutcome config tree path) := by
  unfold lintFile plainOutcome
  cases readSource tree path <;> rfl

theorem lintFiles_plain (files : List ScriptFile) : lintFiles config none root tree files =
    (tree, files.map fun f => (Path.relative root f.path, plainOutcome config tree f.path)) := by
  induction files with
  | nil => rfl
  | cons f more ih =>
      rw [lintFiles, lintFile_plain]
      simp only [ih, List.map_cons]

theorem readings_cons_error {f : ScriptFile} {more : List ScriptFile} {e : Failure}
    (unread : readSource tree f.path = .error e) :
    readings tree (f :: more) = readings tree more := by
  simp [readings, unread, Except.toOption]

theorem readings_cons_ok {f : ScriptFile} {more : List ScriptFile} {source : String}
    (read : readSource tree f.path = .ok source) :
    readings tree (f :: more) = ⟨f.path, source⟩ :: readings tree more := by
  simp [readings, read, Except.toOption]

/-- Linting files with a cache does what the ledger says. -/
theorem lintFiles_cached (free : CollisionFree cache texts) (root : String)
    (files : List ScriptFile) :
    ∀ {tree ledger entries}, Mirrors config cache texts dir tree ledger entries →
      Grows (Inside dir) start tree → (∀ f ∈ files, Stays dir start f.path) →
      (∀ r ∈ readings start files, r.source ∈ texts) →
        (lintFiles config (some cache) root tree files).2 =
            answerFiles config root start ledger files ∧
          ∃ more, Mirrors config cache texts dir (lintFiles config (some cache) root tree files).1
            (ledger.recordAll config (readings start files)) more := by
  -- the tree grows from file to file, and what is read of the files stays that of the start
  induction files with
  | nil =>
      intro tree ledger entries h _ _ _
      exact ⟨rfl, entries, h⟩
  | cons f files ih =>
      intro tree ledger entries h grows stays known
      have stay := stays f List.mem_cons_self tree grows
      have others : ∀ g ∈ files, Stays dir start g.path := fun g hg =>
        stays g (List.mem_cons_of_mem f hg)
      cases read : readSource start f.path with
      | error e =>
          have skipped : lintFile config (some cache) tree f.path = (tree, .error e) := by
            unfold lintFile
            rw [stay, read]
          rw [readings_cons_error read] at known ⊢
          rcases ih h grows others known with ⟨outcomes, mirrors⟩
          rw [lintFiles, skipped]
          simp only [answerFiles, read, outcomes, true_and]
          exact mirrors
      | ok source =>
          rw [readings_cons_ok read] at known ⊢
          have here : readSource tree f.path = .ok source := by rw [stay, read]
          rcases lintFile_cached (r := ⟨f.path, source⟩)
            free h here (known _ List.mem_cons_self) with ⟨outcome, ⟨between, mirrored⟩, grown⟩
          rcases ih mirrored (grows.trans grown) others fun r hr =>
            known r (List.mem_cons_of_mem _ hr) with ⟨outcomes, mirrors⟩
          rw [lintFiles]
          simp only at outcome outcomes mirrors ⊢
          simp only [answerFiles, read, outcomes, outcome, true_and]
          exact mirrors

/-! ## Where answers differ -/

theorem map_answerFiles (files : List ScriptFile) : ∀ ledger,
    (answerFiles config root tree ledger files).map (·.1) =
      files.map fun f => Path.relative root f.path := by
  induction files with
  | nil =>
      intro ledger
      rfl
  | cons f more ih =>
      intro ledger
      rw [answerFiles]
      cases readSource tree f.path <;> simp [ih]

/-- Readings in a ledger parse, so a file fails by itself only. -/
theorem failure_of_mem_answerFiles (files : List ScriptFile) : ∀ {ledger : Ledger},
    (∀ s ∈ ledger, ∃ findings, s.outcome config = .ok findings) →
      ∀ path e, (path, .error e) ∈ answerFiles config root tree ledger files →
        (path, .error e) ∈
          files.map fun f => (Path.relative root f.path, plainOutcome config tree f.path) := by
  induction files with
  | nil =>
      intro ledger parsed path e mem
      cases mem
  | cons f more ih =>
      intro ledger parsed path e mem
      rw [List.map_cons, List.mem_cons, plainOutcome]
      rw [answerFiles] at mem
      cases read : readSource tree f.path with
      | error reason =>
          rw [read] at mem
          exact (List.mem_cons.1 mem).imp_right (ih parsed path e)
      | ok source =>
          rw [read] at mem
          refine (List.mem_cons.1 mem).imp ?_ (ih ?_ path e)
          · rw [Ledger.answer]
            intro failed
            cases served : ledger.served? ⟨f.path, source⟩ with
            | none => simpa [served, Reading.outcome] using failed
            | some s =>
                rcases Ledger.served?_eq_some served with ⟨stored, -⟩
                rcases parsed s (Ledger.mem_of_stored? stored) with ⟨findings, linted⟩
                simp [served, linted] at failed
          · intro s recorded
            rcases Ledger.mem_record recorded with old | ⟨rfl, linted⟩
            · exact parsed s old
            · exact linted

/-- A ledger reports what the files have by themselves if every answer is the outcome of the file
that it answers for. -/
theorem answerFiles_eq_plain_iff (files : List ScriptFile) : ∀ ledger,
    answerFiles config root tree ledger files =
        files.map (fun f => (Path.relative root f.path, plainOutcome config tree f.path)) ↔
      ∀ hit ∈ ledger.hits config (readings tree files),
        hit.1.outcome config = hit.2.outcome config := by
  induction files with
  | nil =>
      intro ledger
      simp [answerFiles, readings, Ledger.hits]
  | cons f more ih =>
      intro ledger
      cases read : readSource tree f.path with
      | error e =>
          rw [readings_cons_error read, ← ih ledger, answerFiles]
          simp [read, plainOutcome]
      | ok source =>
          have plain : plainOutcome config tree f.path = config.lint f.path source := by
            simp [plainOutcome, read]
          rw [readings_cons_ok read, Ledger.hits, List.forall_mem_append, ← ih, answerFiles]
          simp only [read, plain, List.map_cons, List.cons.injEq, Prod.mk.injEq, true_and]
          refine and_congr_left fun _ => ?_
          cases served : ledger.served? ⟨f.path, source⟩ with
          | none => simp [Ledger.answer, served, Reading.outcome]
          | some s => simp [Ledger.answer, served, Reading.outcome]

/-- Readings that answer have the text of the file and parse. -/
theorem mem_hits (rs : List Reading) : ∀ {ledger : Ledger},
    (∀ s ∈ ledger, ∃ findings, s.outcome config = .ok findings) →
      ∀ hit ∈ ledger.hits config rs,
        hit.1.source = hit.2.source ∧ ∃ findings, hit.1.outcome config = .ok findings := by
  induction rs with
  | nil =>
      intro ledger parsed hit mem
      cases mem
  | cons r more ih =>
      intro ledger parsed hit mem
      rw [Ledger.hits] at mem
      rcases List.mem_append.1 mem with here | later
      · rcases List.mem_map.1 here with ⟨s, served, rfl⟩
        rcases Ledger.served?_eq_some (Option.mem_toList.1 served) with ⟨stored, same⟩
        exact ⟨same, parsed s (Ledger.mem_of_stored? stored)⟩
      · refine ih ?_ hit later
        intro s recorded
        rcases Ledger.mem_record recorded with old | ⟨rfl, linted⟩
        · exact parsed s old
        · exact linted

/-- Findings name their file, so only files without findings have the outcome of another one. -/
theorem outcome_eq_iff {s r : Reading} {findings : List Finding} (source : s.source = r.source)
    (linted : s.outcome config = .ok findings) : s.outcome config = r.outcome config ↔
      s.path = r.path ∨ s.outcome config = .ok [] ∧ r.outcome config = .ok [] := by
  constructor
  · intro same
    cases findings with
    | nil => exact .inr ⟨linted, same ▸ linted⟩
    | cons f more =>
        -- both outcomes hold the first finding, and it has the path of its file
        have own := (Rules.lint_findings linted f List.mem_cons_self).1
        have other : r.outcome config = .ok (f :: more) := same ▸ linted
        have named := (Rules.lint_findings other f List.mem_cons_self).1
        exact .inl (own.symm.trans named)
  · rintro (path | ⟨clean, also⟩)
    · rw [Reading.outcome, Reading.outcome, path, source]
    · rw [clean, also]

end Runs

end Project
end ClientBoundary
