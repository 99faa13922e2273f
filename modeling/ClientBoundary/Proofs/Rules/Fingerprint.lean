import ClientBoundary.Proofs.Json.RoundTrip
import ClientBoundary.Proofs.Rules.Independence
import Mathlib.Data.Option.Basic

/-!
# What a fingerprint tells

The fingerprint of a configuration tells which rules are on and with which options, but not the root
to which their globs are relative.

- `Options.ofSorted_toValue`: options are read back from their description;
- `Config.fingerprint_eq_iff`: a fingerprint tells the settings of all rules;
- `lint_eq_iff_of_fingerprint_eq`: when two configurations with one fingerprint find the same.
-/

namespace ClientBoundary
namespace Rules

open Json (Value maxDepth mapM_map_of_reads)
open Script (Program)

/-! ## Options as values -/

namespace Options

/-- Options are read back from the object that describes them. -/
theorem ofSorted_toValue (o : Options) : ofSorted o.toValue = .ok o := by
  have read : ignorePathOf? (ignorePathValue o.ignorePath) = some o.ignorePath := by
    cases o.ignorePath with
    | single p => rfl
    | multiple ps =>
        have strings : (ps.map Value.string).mapM Value.asString? = some ps :=
          mapM_map_of_reads fun _ _ => rfl
        simp [ignorePathValue, Value.ofStrings, ignorePathOf?, strings]
  simp [toValue, ofSorted, ofMembers, read]

theorem toValue_injective : Function.Injective toValue := by
  intro o p same
  have read := ofSorted_toValue o
  rw [same, ofSorted_toValue p] at read
  exact (Except.ok.inj read).symm

theorem writable_toValue (depth : Nat) (o : Options) : o.toValue.Writable (depth + 2) := by
  intro m mem
  rw [List.mem_singleton.1 mem]
  cases path : o.ignorePath with
  | single p => exact trivial
  | multiple ps => exact Value.writable_ofStrings depth ps

end Options

/-! ## Fingerprints -/

namespace Config

theorem writable_toValue (depth : Nat) (c : Config) : c.toValue.Writable (depth + 3) := by
  intro m mem
  rcases List.mem_map.1 mem with ⟨⟨r, s⟩, -, rfl⟩
  exact s.options.writable_toValue depth

/-- The description of a configuration has the options of a rule under its name. -/
theorem member?_toValue (c : Config) (name : String) :
    c.toValue.member? name = (c.rule? name).map fun s => s.options.toValue :=
  Json.lookup_mapValues (fun s : Settings => s.options.toValue) c.enabled name

/-- The text of a fingerprint tells the description that it is made of. -/
theorem toValue_eq_of_fingerprint {c d : Config} (same : c.fingerprint = d.fingerprint) :
    c.toValue = d.toValue := by
  -- a description has three brackets inside each other, and a reader takes many more
  have depth : maxDepth = 124 + 3 := rfl
  have left : Value.parse? c.fingerprint = some c.toValue :=
    Value.parse?_render (depth ▸ c.writable_toValue 124)
  have right : Value.parse? d.fingerprint = some d.toValue :=
    Value.parse?_render (depth ▸ d.writable_toValue 124)
  rw [same, right] at left
  exact (Option.some.inj left).symm

/-- The description of a configuration tells the options under every name. -/
theorem options_eq_of_toValue {c d : Config} (same : c.toValue = d.toValue) (name : String) :
    (c.rule? name).map Settings.options = (d.rule? name).map Settings.options := by
  have told (e : Config) : e.toValue.member? name =
      ((e.rule? name).map Settings.options).map Options.toValue :=
    (e.member?_toValue name).trans (Option.map_map Options.toValue Settings.options _).symm
  have values : ((c.rule? name).map Settings.options).map Options.toValue =
      ((d.rule? name).map Settings.options).map Options.toValue :=
    calc ((c.rule? name).map Settings.options).map Options.toValue
        = c.toValue.member? name := (told c).symm
      _ = d.toValue.member? name := by rw [same]
      _ = ((d.rule? name).map Settings.options).map Options.toValue := told d
  exact Option.map_injective Options.toValue_injective values

/-- Two configurations have one fingerprint if and only if the same rules are on in them, with the
same options and globs. -/
theorem fingerprint_eq_iff {c d : Config} (hc : c.Sound) (hd : d.Sound) :
    c.fingerprint = d.fingerprint ↔ c.settings = d.settings := by
  constructor
  · intro same
    have values := toValue_eq_of_fingerprint same
    funext r
    exact hc.settings_eq hd (options_eq_of_toValue values r.name)
  · intro same
    simp only [fingerprint, toValue, enabled, hc.rules_eq hd same]

end Config

/-! ## One fingerprint, two roots -/

/-- Configurations with one fingerprint have the same rules on, with the same globs, and may differ
in their roots. They find the same in a file if and only if it is no program, or begins with a
directive, or the globs of every rule with a cause in it tell the same of its path under both
roots. -/
theorem lint_eq_iff_of_fingerprint_eq (c d : Config) (hc : c.Reachable) (hd : d.Reachable)
    (same : c.fingerprint = d.fingerprint) :
    c.settings = d.settings ∧
      ∀ path source, c.lint path source = d.lint path source ↔
        ∀ program, Program.parse? (.ofPath path) source = some program → Bare program →
          ∀ r s, c.settings r = some s → r.allCauses program ≠ [] →
            s.ignore.ignores (Path.relative c.root path) =
              s.ignore.ignores (Path.relative d.root path) := by
  have settings := (Config.fingerprint_eq_iff hc.sound hd.sound).1 same
  have agree (r : Rule) : c.settings r = d.settings r := congrFun settings r
  refine ⟨settings, ?_⟩
  intro path source
  unfold Config.lint
  cases read : Program.parse? (.ofPath path) source with
  | none => simp
  | some program =>
      calc Except.ok (c.lintProgram path source program) =
              (Except.ok (d.lintProgram path source program) : Except Failure _)
          ↔ c.lintProgram path source program = d.lintProgram path source program :=
            ⟨Except.ok.inj, congrArg Except.ok⟩
        _ ↔ ∀ r : Rule, r.outcome (.of path source program) program ≠ none →
              c.isActive path r = d.isActive path r := lintProgram_eq_iff
        _ ↔ ∀ found, some program = some found → Bare found →
              ∀ r s, c.settings r = some s → r.allCauses found ≠ [] →
                s.ignore.ignores (Path.relative c.root path) =
                  s.ignore.ignores (Path.relative d.root path) := by
            simp only [Rule.outcome_ne_none_iff, Config.isActive_eq_iff (agree _),
              Option.some.injEq, forall_eq']
            constructor
            · intro active bare r s on causes
              exact active r ⟨bare, causes⟩ s on
            · rintro globs r ⟨bare, causes⟩ s on
              exact globs bare r s on causes

/-- A glob that holds under the one root, and not under the other. -/
theorem lint_ne_of_fingerprint_eq_legacy :
    ∃ c d, (Config.new "p").set "browser-api" (.ignoring ["legacy/**"]) = .ok c ∧
      (Config.new "p/legacy").set "browser-api" (.ignoring ["legacy/**"]) = .ok d ∧
      c.fingerprint = d.fingerprint ∧
      c.lint "p/legacy/a.tsx" "window.x" ≠ d.lint "p/legacy/a.tsx" "window.x" := by
  let options := Options.ignoring ["legacy/**"]
  let path := "p/legacy/a.tsx"
  have matched : (options.matcher.toOption.map fun m =>
      (m.ignores (Path.relative "p" path), m.ignores (Path.relative "p/legacy" path))) =
      some (true, false) := by
    decide +kernel
  have read : ((Program.parse? (.ofPath path) "window.x").any fun program =>
      Bare program && Rule.browserApi.allCauses program ≠ []) = true := by
    decide +kernel
  cases globs : options.matcher with
  | error e => simp [globs, Except.toOption] at matched
  | ok ignore =>
      have sides : ignore.ignores (Path.relative "p" path) = true ∧
          ignore.ignores (Path.relative "p/legacy" path) = false := by
        simpa [globs, Except.toOption] using matched
      let c := (Config.new "p").put "browser-api" ⟨options, ignore⟩
      let d := (Config.new "p/legacy").put "browser-api" ⟨options, ignore⟩
      have left : (Config.new "p").set "browser-api" options = .ok c :=
        Config.set_name (r := .browserApi) globs
      have right : (Config.new "p/legacy").set "browser-api" options = .ok d :=
        Config.set_name (r := .browserApi) globs
      have hc : c.Reachable := .set (.new "p") left
      have hd : d.Reachable := .set (.new "p/legacy") right
      have same : c.fingerprint = d.fingerprint :=
        (Config.fingerprint_eq_iff hc.sound hd.sound).2 rfl
      refine ⟨c, d, left, right, same, ?_⟩
      -- with equal results the glob would have to tell the same of both relative paths
      intro equal
      have agree := ((lint_eq_iff_of_fingerprint_eq c d hc hd same).2 path "window.x").1 equal
      cases parsed : Program.parse? (.ofPath path) "window.x" with
      | none => simp [parsed] at read
      | some program =>
          have reports : Bare program ∧ Rule.browserApi.allCauses program ≠ [] := by
            simpa [parsed] using read
          have verdicts : ignore.ignores (Path.relative "p" path) =
              ignore.ignores (Path.relative "p/legacy" path) :=
            agree program parsed reports.1 .browserApi ⟨options, ignore⟩ rfl reports.2
          simp [sides] at verdicts

end Rules
end ClientBoundary
