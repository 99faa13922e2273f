import ClientBoundary.Proofs.Rules.Configuring
import ClientBoundary.Proofs.Rules.Surroundings
import ClientBoundary.Rules.Linter

/-!
# What a rule reports on a program

The collectors of several rules run side by side over one walk. None of them sees the others, so
what each rule reports can be said in terms of its own causes.

- `Rule.allCauses`: the causes of a rule in a whole walk, each of them once;
- `runAll_of_any`: with a leading directive nothing is reported;
- `mem_lintProgram_iff`: without one, every active rule with a cause reports all of its causes.
-/

namespace ClientBoundary
namespace Rules

open Script (Program Occurrence occurrences)

/-! ## Adding causes -/

theorem nodup_eraseDups : ∀ names : List String, names.eraseDups.Nodup
  | [] => by simp
  | a :: more => by
      -- a name takes its repetitions out of what follows it
      have shorter : (more.filter fun b => !b == a).length < (a :: more).length :=
        Nat.lt_succ_of_le (List.length_filter_le _ more)
      have rest := nodup_eraseDups (more.filter fun b => !b == a)
      rw [List.eraseDups_cons, List.nodup_cons]
      refine ⟨?_, rest⟩
      simp [List.mem_eraseDups]
termination_by names => names.length
decreasing_by exact shorter

namespace Collector

theorem add_phase (c : Collector) (cause : String) : (c.add cause).phase = c.phase := by
  unfold add
  split <;> rfl

theorem add_directives (c : Collector) (cause : String) :
    (c.add cause).directives = c.directives := by
  unfold add
  split <;> rfl

theorem addAll_directives (c : Collector) (causes : List String) :
    (c.addAll causes).directives = c.directives := by
  induction causes generalizing c with
  | nil => rfl
  | cons cause more ih => exact (ih (c.add cause)).trans (add_directives c cause)

theorem addAll_append (c : Collector) (xs ys : List String) :
    c.addAll (xs ++ ys) = (c.addAll xs).addAll ys :=
  List.foldl_append

/-- Outside the scanning phase nothing is recorded. -/
theorem addAll_of_not_scanning {c : Collector} (h : c.isScanning = false) (causes : List String) :
    c.addAll causes = c := by
  induction causes with
  | nil => rfl
  | cons cause more ih =>
      have : c.add cause = c := by simp [add, h]
      rw [addAll, List.foldl_cons, this]
      exact ih

theorem add_causes {c : Collector} (scanning : c.isScanning = true) {seen : List String}
    (h : c.causes = seen.eraseDups) (cause : String) :
    (c.add cause).causes = (seen ++ [cause]).eraseDups := by
  have known : c.causes.contains cause = seen.contains cause := by
    rw [Bool.eq_iff_iff, List.contains_iff_mem, List.contains_iff_mem, h, List.mem_eraseDups]
  rw [List.eraseDups_append, add, scanning, known]
  by_cases mem : cause ∈ seen
  · simp [mem, h, List.removeAll]
  · simp [mem, h, List.removeAll, List.eraseDups_cons]

/-- While scanning, causes are recorded once each, in the order in which they come. -/
theorem addAll_causes {c : Collector} (scanning : c.isScanning = true) {seen : List String}
    (h : c.causes = seen.eraseDups) (causes : List String) :
    (c.addAll causes).causes = (seen ++ causes).eraseDups := by
  induction causes generalizing c seen with
  | nil => simpa [addAll] using h
  | cons cause more ih =>
      have next : (c.add cause).isScanning = true := by
        simpa [isScanning, add_phase] using scanning
      have step := ih next (add_causes scanning h cause)
      simpa [addAll] using step

end Collector

/-! ## One rule in a walk -/

namespace Rule

/-- The collector of a rule after a whole walk. -/
def collected (r : Rule) (program : Program) : Collector :=
  (programEvents program).foldl (r.onEvent program) .empty

/-- The causes of a rule in a whole walk, each once, in the order of their first occurrence. -/
def allCauses (r : Rule) (program : Program) : List String :=
  ((programEvents program).flatMap r.causes).eraseDups

/-- What a rule reports for its causes. -/
def report (r : Rule) (file : FileInfo) (causes : List String) : Finding where
  rule := r.name
  message := r.message (", ".intercalate causes)
  causes := causes
  file := file.path
  location := file.location
  fix := if r.fixable then some (insertUseClient file.start) else none

theorem foldl_onEvent (r : Rule) (program : Program) {events : List Event}
    (h : ∀ e ∈ events, e ≠ .enter) (c : Collector) :
    events.foldl (r.onEvent program) c = c.addAll (events.flatMap r.causes) := by
  induction events generalizing c with
  | nil => rfl
  | cons e more ih =>
      have step : r.onEvent program c e = c.addAll (r.causes e) := by
        cases e with
        | enter => exact absurd rfl (h .enter (by simp))
        | _ => rfl
      rw [List.foldl_cons, step, ih (fun e he => h e (List.mem_cons_of_mem _ he)),
        List.flatMap_cons, Collector.addAll_append]

end Rule

/-- The walk begins only once. -/
theorem eventAt?_ne_enter {top : List Script.Node} {o : Script.Occurrence} :
    eventAt? top o ≠ some .enter := by
  unfold eventAt? ownEvent?
  split <;> simp

namespace Rule

/-- The causes of a rule are those of the occurrences. -/
theorem allCauses_eq (r : Rule) (program : Program) :
    r.allCauses program =
      (((occurrences program.parts).filterMap (eventAt? program.parts)).flatMap
        r.causes).eraseDups := by
  have enter : r.causes .enter = [] := by cases r <;> rfl
  have exit : r.causes (.exit 0) = [] := by cases r <;> rfl
  rw [allCauses, programEvents_eq]
  simp [enter, exit]

theorem collected_eq (r : Rule) (program : Program) :
    r.collected program = (Collector.enter program).addAll
      (((occurrences program.parts).filterMap (eventAt? program.parts)).flatMap r.causes) := by
  have inside : ∀ e ∈ (occurrences program.parts).filterMap (eventAt? program.parts) ++ [.exit 0],
      e ≠ .enter := by
    intro e he
    rcases List.mem_append.1 he with he | he
    · rcases List.mem_filterMap.1 he with ⟨o, -, ho⟩
      rintro rfl
      exact eventAt?_ne_enter ho
    · simp_all
  have exit : r.causes (.exit 0) = [] := by cases r <;> rfl
  rw [collected, programEvents_eq, List.cons_append, List.foldl_cons,
    foldl_onEvent r program inside]
  simp [onEvent, exit]

/-- What a rule makes of a whole walk. -/
def outcome (r : Rule) (file : FileInfo) (program : Program) : Option Finding :=
  ((r.collected program).finish r.reporting file).2

theorem outcome_of_any {program : Program} (h : (scanDirectives program).any = true) (r : Rule)
    (file : FileInfo) : r.outcome file program = none := by
  have still : (Collector.enter program).isScanning = false := by
    simp [Collector.enter, Collector.isScanning, h]
  have collected : r.collected program = Collector.enter program := by
    rw [collected_eq, Collector.addAll_of_not_scanning still]
  simp [outcome, collected, Collector.finish, Collector.enter]

theorem outcome_of_bare {program : Program} (h : (scanDirectives program).any = false) (r : Rule)
    (file : FileInfo) :
    r.outcome file program =
      if r.allCauses program = [] then none else some (r.report file (r.allCauses program)) := by
  have scanning : (Collector.enter program).isScanning = true := by
    simp [Collector.enter, Collector.isScanning, h]
  have nothing : (Collector.enter program).causes = ([] : List String).eraseDups := rfl
  have causes : (r.collected program).causes = r.allCauses program := by
    rw [collected_eq, allCauses_eq]
    exact Collector.addAll_causes scanning nothing _
  have directives : (r.collected program).directives.client = false := by
    rw [collected_eq, Collector.addAll_directives]
    simp [DirectiveState.any] at h
    simp [Collector.enter, h]
  -- a rule without a cause is silent at the exit, and no rule finds the directive there
  by_cases empty : r.allCauses program = []
  · simp [outcome, Collector.finish, causes, directives, empty]
  · simp [outcome, Collector.finish, causes, directives, empty, report, reporting]
    rfl

/-- A rule without a cause reports nothing, with or without a directive. -/
theorem outcome_of_quiet {r : Rule} {program : Program} (h : r.allCauses program = [])
    (file : FileInfo) : r.outcome file program = none := by
  cases any : (scanDirectives program).any with
  | true => exact outcome_of_any any r file
  | false => rw [outcome_of_bare any, if_pos h]

end Rule

/-! ## All rules on one walk -/

/-- Every rule is sent all events, and none of them changes what another one collects. -/
theorem foldl_sendAll (program : Program) (events : List Event)
    (states : List (Rule × Collector)) :
    events.foldl (sendAll program) states =
      states.map fun s => (s.1, events.foldl (s.1.onEvent program) s.2) := by
  induction events generalizing states with
  | nil => simp
  | cons e more ih =>
      rw [List.foldl_cons, ih]
      simp [sendAll]

/-- Running rules side by side is running each of them alone. -/
theorem runAll_eq (file : FileInfo) (program : Program) (rules : List Rule) :
    runAll file program rules = rules.filterMap fun r => r.outcome file program := by
  rw [runAll, foldl_sendAll]
  simp [List.filterMap_map, Rule.outcome, Rule.collected]

theorem runAll_of_any {program : Program} (h : (scanDirectives program).any = true)
    (file : FileInfo) (rules : List Rule) : runAll file program rules = [] := by
  rw [runAll_eq, List.filterMap_eq_nil_iff]
  intro r _
  exact Rule.outcome_of_any h r file

/-- Without a leading directive a rule with a cause reports, and no other rule does. -/
theorem mem_runAll_of_bare {program : Program} (h : (scanDirectives program).any = false)
    {file : FileInfo} {rules : List Rule} {f : Finding} :
    f ∈ runAll file program rules ↔
      ∃ r ∈ rules, r.allCauses program ≠ [] ∧ f = r.report file (r.allCauses program) := by
  rw [runAll_eq, List.mem_filterMap]
  constructor
  · rintro ⟨r, mem, hr⟩
    rw [Rule.outcome_of_bare h] at hr
    split at hr
    · simp at hr
    · rename_i some
      exact ⟨r, mem, some, (Option.some.inj hr).symm⟩
  · rintro ⟨r, mem, some, rfl⟩
    exact ⟨r, mem, by rw [Rule.outcome_of_bare h, if_neg some]⟩

/-! ## Programs without a directive -/

/-- No leading string of a program is a directive. -/
def Bare (program : Program) : Prop :=
  ∀ value ∈ leadingStrings program, value ≠ "use client" ∧ value ≠ "use server"

instance (program : Program) : Decidable (Bare program) :=
  inferInstanceAs (Decidable (∀ value ∈ leadingStrings program, _))

/-- The scan finds something if and only if one of the strings is a directive. -/
theorem ofStrings_any_eq_false_iff {values : List String} :
    (DirectiveState.ofStrings values).any = false ↔
      ∀ value ∈ values, value ≠ "use client" ∧ value ≠ "use server" := by
  induction values with
  | nil => simp [DirectiveState.ofStrings, DirectiveState.none, DirectiveState.any]
  | cons value more ih =>
      have here : (DirectiveState.ofString value).any = false ↔
          value ≠ "use client" ∧ value ≠ "use server" := by
        simp [DirectiveState.ofString, DirectiveState.any]
      rw [DirectiveState.ofStrings, List.forall_mem_cons, ← here, ← ih]
      cases silent : (DirectiveState.ofString value).any with
      | true => simp [silent]
      | false => simp

theorem bare_iff {program : Program} : Bare program ↔ (scanDirectives program).any = false :=
  ofStrings_any_eq_false_iff.symm

theorem Bare.scan {program : Program} (h : Bare program) :
    (scanDirectives program).any = false :=
  bare_iff.1 h

/-- A rule reports all of its causes if it has one and no leading string is a directive, and nothing
otherwise. -/
theorem Rule.outcome_eq_some_iff {r : Rule} {file : FileInfo} {program : Program} {f : Finding} :
    r.outcome file program = some f ↔
      Bare program ∧ r.allCauses program ≠ [] ∧ f = r.report file (r.allCauses program) := by
  rw [bare_iff]
  cases any : (scanDirectives program).any with
  | true => simp [outcome_of_any any]
  | false =>
      rw [outcome_of_bare any, Option.ite_none_left_eq_some, Option.some.injEq, eq_comm (a := f)]
      exact (and_iff_right rfl).symm

theorem Rule.outcome_ne_none_iff {r : Rule} {file : FileInfo} {program : Program} :
    r.outcome file program ≠ none ↔ Bare program ∧ r.allCauses program ≠ [] := by
  simp [Option.ne_none_iff_exists', Rule.outcome_eq_some_iff]

/-- What is found in a program, by the rules that are active. -/
theorem mem_lintProgram_iff {c : Config} {path source : String} {program : Program} {f : Finding} :
    f ∈ c.lintProgram path source program ↔
      Bare program ∧ ∃ r ∈ c.activeRules path, r.allCauses program ≠ [] ∧
        f = r.report (.of path source program) (r.allCauses program) := by
  rw [Config.lintProgram, runAll_eq, List.mem_filterMap]
  simp only [Rule.outcome_eq_some_iff]
  constructor
  · rintro ⟨r, active, bare, found⟩
    exact ⟨bare, r, active, found⟩
  · rintro ⟨bare, r, active, found⟩
    exact ⟨r, active, bare, found⟩

/-- The findings of a rule have all of its causes. -/
theorem causes_of_mem_lintProgram {c : Config} {path source : String} {program : Program}
    {r : Rule} {f : Finding} (h : f ∈ c.lintProgram path source program) (name : f.rule = r.name) :
    r.allCauses program ≠ [] ∧ f.causes = r.allCauses program := by
  rcases mem_lintProgram_iff.1 h with ⟨-, q, -, some, rfl⟩
  rcases Rule.name_injective name with rfl
  exact ⟨some, rfl⟩

/-- What one active rule reports on a program without a directive. -/
theorem lintProgram_of_bare {c : Config} {path source : String} {program : Program} {r : Rule}
    (bare : Bare program) (active : r ∈ c.activeRules path) :
    ((∃ f ∈ c.lintProgram path source program, f.rule = r.name) ↔ r.allCauses program ≠ []) ∧
      ∀ f ∈ c.lintProgram path source program, f.rule = r.name →
        f.causes = r.allCauses program := by
  refine ⟨⟨?_, ?_⟩, fun f found name => (causes_of_mem_lintProgram found name).2⟩
  · rintro ⟨f, found, name⟩
    exact (causes_of_mem_lintProgram found name).1
  · intro some
    exact ⟨_, mem_lintProgram_iff.2 ⟨bare, r, active, some, rfl⟩, rfl⟩

/-- A program is clean if no active rule has a cause in it. -/
theorem lintProgram_of_allCauses {c : Config} {path source : String} {program : Program}
    (h : ∀ r ∈ c.activeRules path, r.allCauses program = []) :
    c.lintProgram path source program = [] := by
  rw [Config.lintProgram, runAll_eq, List.filterMap_eq_nil_iff]
  intro r active
  exact Rule.outcome_of_quiet (h r active) _

/-! ## Rules that look for occurrences -/

/-- What a rule names at an occurrence, for every occurrence of a program. -/
def Rule.Names (r : Rule) (program : Program) (names : Occurrence → List String) : Prop :=
  ∀ o, (eventAt? program.parts o).toList.flatMap r.causes = names o

theorem Rule.Names.allCauses_eq {r : Rule} {program : Program} {names : Occurrence → List String}
    (h : r.Names program names) :
    r.allCauses program = ((occurrences program.parts).flatMap names).eraseDups := by
  rw [Rule.allCauses_eq, List.filterMap_eq_flatMap_toList, List.flatMap_assoc]
  exact congrArg List.eraseDups (List.flatMap_congr fun o _ => h o)

theorem Rule.Names.allCauses_ne_nil_iff {r : Rule} {program : Program}
    {names : Occurrence → List String} (h : r.Names program names) :
    r.allCauses program ≠ [] ↔ ∃ o ∈ occurrences program.parts, ∃ name, name ∈ names o := by
  rw [h.allCauses_eq]
  constructor
  · intro some
    rcases List.exists_mem_of_ne_nil _ some with ⟨name, mem⟩
    have listed := List.mem_flatMap.1 (List.mem_eraseDups.1 mem)
    rcases listed with ⟨o, ho, named⟩
    exact ⟨o, ho, name, named⟩
  · rintro ⟨o, ho, name, named⟩ none
    have mem : name ∈ ((occurrences program.parts).flatMap names).eraseDups :=
      List.mem_eraseDups.2 (List.mem_flatMap.2 ⟨o, ho, named⟩)
    simp [none] at mem

/-- A rule reports if and only if it names something at some occurrence, and its causes are what it
names in pre-order, each once. -/
theorem lintProgram_of_names {c : Config} {path source : String} {program : Program} {r : Rule}
    {names : Occurrence → List String} (bare : Bare program) (active : r ∈ c.activeRules path)
    (h : r.Names program names) :
    ((∃ f ∈ c.lintProgram path source program, f.rule = r.name) ↔
        ∃ o ∈ occurrences program.parts, ∃ name, name ∈ names o) ∧
      ∀ f ∈ c.lintProgram path source program, f.rule = r.name →
        f.causes = ((occurrences program.parts).flatMap names).eraseDups := by
  rw [← h.allCauses_ne_nil_iff, ← h.allCauses_eq]
  exact lintProgram_of_bare bare active

/-- A rule names the occurrences that it looks for, and nothing else. -/
def Rule.Picks (r : Rule) (program : Program) (pick : Occurrence → Option String) : Prop :=
  ∀ o, (eventAt? program.parts o).toList.flatMap r.causes = (pick o).toList

theorem Rule.Picks.names {r : Rule} {program : Program} {pick : Occurrence → Option String}
    (h : r.Picks program pick) : r.Names program fun o => (pick o).toList :=
  h

/-- A rule that looks for occurrences reports if and only if there is one, and its causes are their
names in pre-order, each once. -/
theorem lintProgram_of_picks {c : Config} {path source : String} {program : Program} {r : Rule}
    {pick : Occurrence → Option String} (bare : Bare program) (active : r ∈ c.activeRules path)
    (h : r.Picks program pick) :
    ((∃ f ∈ c.lintProgram path source program, f.rule = r.name) ↔
        ∃ o ∈ occurrences program.parts, (pick o).isSome) ∧
      ∀ f ∈ c.lintProgram path source program, f.rule = r.name →
        f.causes = ((occurrences program.parts).filterMap pick).eraseDups := by
  have picked (o : Occurrence) : (pick o).isSome ↔ ∃ name, name ∈ (pick o).toList := by
    simp [Option.isSome_iff_exists]
  simp only [picked, List.filterMap_eq_flatMap_toList]
  exact lintProgram_of_names bare active h.names

end Rules
end ClientBoundary
