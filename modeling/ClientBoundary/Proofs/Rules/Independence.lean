import ClientBoundary.Proofs.Rules.Configuring
import ClientBoundary.Proofs.Rules.LeadingRun

/-!
# Rules do not see each other

All active rules are run over one walk. Each of them reports what it would report alone, so what is
found by one rule depends on its own options and on the root, and on no other rule.

- `Config.only`: a configuration with one of its rules alone;
- `findingsOf`: the findings of one rule among those of all;
- `rules_independent`: running the rules together is running each of them alone.
-/

namespace ClientBoundary
namespace Rules

open Script (Program)

/-! ## One rule alone -/

namespace Config

/-- A configuration with one of its rules alone. -/
def only (c : Config) (r : Rule) : Config :=
  match c.settings r with
  | some s => (new c.root).put r.name s
  | none => new c.root

theorem root_only (c : Config) (r : Rule) : (c.only r).root = c.root := by
  unfold only
  split <;> rfl

theorem rule?_only (c : Config) (r : Rule) (name : String) :
    (c.only r).rule? name = if name = r.name then c.rule? name else none := by
  unfold only
  split
  · rename_i s on
    rw [rule?_put]
    by_cases here : name = r.name
    · rw [if_pos here, if_pos here, here]
      exact on.symm
    · rw [if_neg here, if_neg here, rule?_new]
  · rename_i off
    by_cases here : name = r.name
    · rw [if_pos here, rule?_new, here]
      exact off.symm
    · rw [if_neg here, rule?_new]

/-- The configuration with one rule alone is built from the options of that rule. -/
theorem Sound.set_new {c : Config} (h : c.Sound) {r : Rule} {s : Settings}
    (on : c.settings r = some s) : (new c.root).set r.name s.options = .ok (c.only r) := by
  rw [set_name (h.matcher on), only, on]

theorem isActive_only (c : Config) (path : String) (r q : Rule) :
    (c.only r).isActive path q = (decide (q = r) && c.isActive path q) := by
  unfold isActive settings
  rw [root_only, rule?_only]
  by_cases here : q = r
  · simp [here]
  · have other : q.name ≠ r.name := fun same => here (Rule.name_injective same)
    simp [here, other]

/-- Alone, a rule is on for the files for which it is on among others. -/
theorem activeRules_only (c : Config) (path : String) (r : Rule) :
    (c.only r).activeRules path = if c.isActive path r then [r] else [] := by
  have itself : (c.only r).isActive path = fun q => decide (q = r) && c.isActive path r := by
    funext q
    rw [isActive_only]
    by_cases here : q = r
    · rw [here]
    · simp [here]
  rw [activeRules_eq, itself]
  cases c.isActive path r <;> cases r <;> decide

/-- Alone, a rule reports its own outcome if it is on for the file. -/
theorem lintProgram_only (c : Config) (path source : String) (program : Program) (r : Rule) :
    (c.only r).lintProgram path source program =
      if c.isActive path r then (r.outcome (.of path source program) program).toList else [] := by
  rw [lintProgram, runAll_eq, activeRules_only]
  split
  · rw [List.filterMap_eq_flatMap_toList, List.flatMap_singleton]
  · rfl

/-- The rules that are run together report what each of them reports alone, in their order. -/
theorem lintProgram_eq_flatMap (c : Config) (path source : String) (program : Program) :
    c.lintProgram path source program =
      (c.activeRules path).flatMap fun r => (c.only r).lintProgram path source program := by
  have alone : ∀ r ∈ c.activeRules path, (c.only r).lintProgram path source program =
      (r.outcome (.of path source program) program).toList := by
    intro r active
    rw [lintProgram_only, if_pos (mem_activeRules_iff.1 active)]
  calc c.lintProgram path source program
      = (c.activeRules path).filterMap fun r => r.outcome (.of path source program) program :=
          runAll_eq _ _ _
    _ = (c.activeRules path).flatMap fun r =>
          (r.outcome (.of path source program) program).toList :=
          List.filterMap_eq_flatMap_toList _ _
    _ = (c.activeRules path).flatMap fun r => (c.only r).lintProgram path source program :=
          (List.flatMap_congr alone).symm

end Config

/-! ## One rule among others -/

/-- The findings of one rule. -/
def findingsOf (r : Rule) (findings : List Finding) : List Finding :=
  findings.filter fun f => f.rule = r.name

theorem filter_outcome (file : FileInfo) (program : Program) (r q : Rule) :
    (q.outcome file program).filter (fun f => decide (f.rule = r.name)) =
      if q = r then q.outcome file program else none := by
  cases found : q.outcome file program with
  | none => simp
  | some f =>
      have name : f.rule = q.name := Rule.rule_of_outcome found
      by_cases here : q = r
      · simp [here, name]
      · have other : q.name ≠ r.name := fun same => here (Rule.name_injective same)
        simp [here, name, other]

/-- What is found of a rule among others is what it reports alone. -/
theorem findingsOf_lintProgram (c : Config) (path source : String) (program : Program) (r : Rule) :
    findingsOf r (c.lintProgram path source program) =
      (c.only r).lintProgram path source program := by
  have chosen : (c.only r).activeRules path =
      (c.activeRules path).filter fun q => decide (q = r) := by
    have itself := funext (c.isActive_only path r)
    rw [Config.activeRules_eq, Config.activeRules_eq, itself, List.filter_filter]
  rw [findingsOf, Config.lintProgram, Config.lintProgram, runAll_eq, runAll_eq, chosen,
    List.filter_filterMap, List.filterMap_filter]
  simp only [filter_outcome, decide_eq_true_eq]

/-- Two configurations find the same in a program if and only if every rule that reports there is on
in both or in none. -/
theorem lintProgram_eq_iff {c d : Config} {path source : String} {program : Program} :
    c.lintProgram path source program = d.lintProgram path source program ↔
      ∀ r : Rule, r.outcome (.of path source program) program ≠ none →
        c.isActive path r = d.isActive path r := by
  constructor
  · intro same r reports
    -- a rule that reports tells by its findings whether it is on
    have alone := congrArg (findingsOf r) same
    rw [findingsOf_lintProgram, findingsOf_lintProgram, Config.lintProgram_only,
      Config.lintProgram_only] at alone
    rcases Option.ne_none_iff_exists'.1 reports with ⟨f, found⟩
    cases here : c.isActive path r <;> cases there : d.isActive path r <;>
      simp [here, there, found] at alone ⊢
  · intro active
    -- a rule that is silent adds nothing, whether it is on or not
    have each : ∀ r ∈ Rule.all,
        (if c.isActive path r then r.outcome (.of path source program) program else none) =
          if d.isActive path r then r.outcome (.of path source program) program else none := by
      intro r _
      cases found : r.outcome (.of path source program) program with
      | none => simp
      | some f =>
          have reports : r.outcome (.of path source program) program ≠ none := by simp [found]
          rw [active r reports]
    rw [Config.lintProgram, Config.lintProgram, runAll_eq, runAll_eq, Config.activeRules_eq,
      Config.activeRules_eq, List.filterMap_filter, List.filterMap_filter]
    exact List.filterMap_congr each

/-- What is found of a rule depends on the root and on the settings of that rule alone. -/
theorem findingsOf_lint {c d : Config} {r : Rule} (root : c.root = d.root)
    (settings : c.settings r = d.settings r) (path source : String) :
    (c.lint path source).map (findingsOf r) = (d.lint path source).map (findingsOf r) := by
  have alone : c.only r = d.only r := by rw [Config.only, Config.only, root, settings]
  unfold Config.lint
  split
  · rfl
  · rename_i program read
    have same : findingsOf r (c.lintProgram path source program) =
        findingsOf r (d.lintProgram path source program) := by
      rw [findingsOf_lintProgram, findingsOf_lintProgram, alone]
    exact congrArg Except.ok same

/-- Running the active rules together is running each of them alone, one after the other in the
order of their names. What is found of a rule depends on the root and on its own options, whatever
else is turned on, turned off or ignored. -/
theorem rules_independent (c : Config) (built : c.Reachable) :
    (∀ path source program,
      ((c.activeRules path).Pairwise fun r q => r.name < q.name) ∧
      c.lintProgram path source program =
        (c.activeRules path).flatMap fun r => (c.only r).lintProgram path source program) ∧
    (∀ r s, c.settings r = some s →
      (Config.new c.root).set r.name s.options = .ok (c.only r)) ∧
    ∀ d : Config, d.Reachable → c.root = d.root → ∀ r : Rule,
      (c.settings r).map Settings.options = (d.settings r).map Settings.options →
        ∀ path source,
          (c.lint path source).map (findingsOf r) = (d.lint path source).map (findingsOf r) := by
  refine ⟨?_, ?_, ?_⟩
  · intro path source program
    exact ⟨c.activeRules_increasing path, c.lintProgram_eq_flatMap path source program⟩
  · intro r s on
    exact built.sound.set_new on
  · intro d other root r options
    have settings := built.sound.settings_eq other.sound options
    exact findingsOf_lint root settings

/-- Where browser globals are ignored, the handler is found as before. -/
theorem rules_independent_ignored :
    ∃ d, (Config.recommended "/").set "browser-api" (.ignoring ["**"]) = .ok d ∧
      (Config.recommended "/").lint "/app/page.tsx" "<a onClick={alert()} />" ≠
        d.lint "/app/page.tsx" "<a onClick={alert()} />" ∧
      ((Config.recommended "/").lint "/app/page.tsx" "<a onClick={alert()} />").map
          (findingsOf .eventHandler) =
        (d.lint "/app/page.tsx" "<a onClick={alert()} />").map (findingsOf .eventHandler) := by
  let c := Config.recommended "/"
  let names (d : Config) : Option (List String) :=
    (d.lint "/app/page.tsx" "<a onClick={alert()} />").toOption.map fun found =>
      found.map (·.rule)
  have both : names c = some ["browser-api", "event-handler"] := by decide +kernel
  have rest : (c.set "browser-api" (.ignoring ["**"])).toOption.bind names =
      some ["event-handler"] := by
    decide +kernel
  cases turned : c.set "browser-api" (.ignoring ["**"]) with
  | error e => simp [turned, Except.toOption] at rest
  | ok d =>
      have one : names d = some ["event-handler"] := by
        simpa [turned, Except.toOption] using rest
      rcases Config.set_eq_ok_iff.1 turned with ⟨r, ignore, -, -, rfl⟩
      let s : Settings := ⟨.ignoring ["**"], ignore⟩
      have kept : (c.put "browser-api" s).settings .eventHandler = c.settings .eventHandler :=
        c.settings_put .browserApi s .eventHandler
      have options : (c.settings .eventHandler).map Settings.options =
          ((c.put "browser-api" s).settings .eventHandler).map Settings.options := by
        rw [kept]
      have built : c.Reachable := .recommended "/"
      refine ⟨_, rfl, ?_, ?_⟩
      · intro same
        have equal : names c = names (c.put "browser-api" s) := by
          simp only [names]
          rw [same]
        rw [both, one] at equal
        simp at equal
      · exact (rules_independent c built).2.2 _ (built.set turned) rfl .eventHandler options _ _

end Rules
end ClientBoundary
