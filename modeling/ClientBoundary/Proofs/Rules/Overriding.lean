import ClientBoundary.Proofs.Rules.Configuring
import Mathlib.Data.List.Basic

/-!
# Calls that turn rules on

Rules are turned on by calls that may fail. After any calls the settings under a name are those of
the last successful call for it, so calls for different names may be made in any order.

- `Config.setRule`: a rule is turned on in place; `Config.run_setRule`: a failure changes nothing;
- `Config.Call`, `Config.after`, `Config.afterAll`: calls, and the configuration after them;
- `Config.Call.setting?`: what a call sets under a name;
- `afterAll_overrides`: what holds after any calls.
-/

namespace ClientBoundary
namespace Rules
namespace Config

/-! ## One call -/

/-- Turn the rule of a name on in place: the name is looked up and the globs are compiled, then the
configuration changes. -/
def setRule (name : String) (options : Options) : ExceptT Failure (StateM Config) Unit := do
  match Rule.ofName? name with
  | none => throw (.unknownRule name)
  | some _ =>
      let ignore ← options.matcher
      modify fun c => c.put name ⟨options, ignore⟩

/-- The answer to a call and the configuration after it. -/
theorem run_setRule (c : Config) (name : String) (options : Options) :
    (setRule name options).run.run c =
      match c.set name options with
      | .ok next => (.ok (), next)
      | .error e => (.error e, c) := by
  unfold setRule set
  cases Rule.ofName? name with
  | none => rfl
  | some r =>
      cases options.matcher with
      | error e => rfl
      | ok ignore => rfl

theorem set_eq_error_iff {c : Config} {name : String} {options : Options} {e : Failure} :
    c.set name options = .error e ↔
      Rule.ofName? name = none ∧ e = .unknownRule name ∨
        Rule.ofName? name ≠ none ∧ options.matcher = .error e := by
  unfold set
  cases Rule.ofName? name with
  | none => simp [eq_comm]
  | some r =>
      cases options.matcher with
      | error e' => simp
      | ok ignore => simp

/-- A call that turns a rule on, or tries to. -/
structure Call where
  name : String
  options : Options

/-- The configuration after a call, whatever the answer. -/
def after (c : Config) (call : Call) : Config :=
  ((setRule call.name call.options).run.run c).2

/-- What a call sets under a name: nothing if it is for another one, or fails. -/
def Call.setting? (name : String) (call : Call) : Option Settings :=
  if call.name = name ∧ (Rule.ofName? name).isSome then
    call.options.matcher.toOption.map fun ignore => ⟨call.options, ignore⟩
  else
    none

theorem after_root (c : Config) (call : Call) : (c.after call).root = c.root := by
  rw [after, run_setRule]
  cases done : c.set call.name call.options with
  | error e => rfl
  | ok next =>
      rcases set_eq_ok_iff.1 done with ⟨r, ignore, -, -, rfl⟩
      rfl

/-- A successful call changes the settings under its name, and no others. -/
theorem after_rule? (c : Config) (call : Call) (name : String) :
    (c.after call).rule? name = (call.setting? name).or (c.rule? name) := by
  rw [after, run_setRule, set, Call.setting?]
  by_cases here : call.name = name
  · subst here
    cases Rule.ofName? call.name with
    | none => simp
    | some r => cases call.options.matcher <;> simp [rule?_put, Except.toOption]
  · have other : name ≠ call.name := fun same => here same.symm
    cases Rule.ofName? call.name with
    | none => simp [here]
    | some r => cases call.options.matcher <;> simp [rule?_put, here, other]

theorem Reachable.after {c : Config} (h : c.Reachable) (call : Call) :
    (c.after call).Reachable := by
  rw [Config.after, run_setRule]
  cases done : c.set call.name call.options with
  | error e => exact h
  | ok next => exact .set h done

/-! ## All calls -/

/-- The configuration after calls, one after the other. -/
def afterAll (c : Config) (calls : List Call) : Config :=
  calls.foldl after c

/-- The last successful setting under a name. -/
def lastSetting? (calls : List Call) (name : String) : Option Settings :=
  (calls.filterMap (Call.setting? name)).getLast?

theorem Reachable.afterAll {c : Config} (h : c.Reachable) (calls : List Call) :
    (c.afterAll calls).Reachable := by
  induction calls generalizing c with
  | nil => exact h
  | cons call more ih => exact ih (h.after call)

theorem afterAll_root (c : Config) (calls : List Call) : (c.afterAll calls).root = c.root := by
  induction calls generalizing c with
  | nil => rfl
  | cons call more ih =>
      calc ((c.after call).afterAll more).root
          = (c.after call).root := ih (c.after call)
        _ = c.root := c.after_root call

theorem afterAll_rule? (c : Config) (calls : List Call) (name : String) :
    (c.afterAll calls).rule? name = (lastSetting? calls name).or (c.rule? name) := by
  induction calls generalizing c with
  | nil => rfl
  | cons call more ih =>
      have last : lastSetting? (call :: more) name =
          (lastSetting? more name).or (call.setting? name) := by
        rw [lastSetting?, lastSetting?, List.filterMap_cons]
        cases call.setting? name with
        | none => simp
        | some s => simp [List.getLast?_cons, Option.or_some]
      calc ((c.after call).afterAll more).rule? name
          = (lastSetting? more name).or ((c.after call).rule? name) := ih (c.after call)
        _ = (lastSetting? more name).or ((call.setting? name).or (c.rule? name)) := by
              rw [after_rule?]
        _ = (lastSetting? (call :: more) name).or (c.rule? name) := by
              rw [last, Option.or_assoc]

/-- After any calls the last successful setting under each name stands in place of the old one. -/
theorem eq_afterAll_iff {c d : Config} {calls : List Call} :
    d = c.afterAll calls ↔
      d.root = c.root ∧ ∀ name, d.rule? name = (lastSetting? calls name).or (c.rule? name) := by
  constructor
  · rintro rfl
    exact ⟨c.afterAll_root calls, c.afterAll_rule? calls⟩
  · rintro ⟨root, settings⟩
    refine eq_of_rule? (root.trans (c.afterAll_root calls).symm) fun name => ?_
    rw [settings, afterAll_rule?]

/-! ## The order of calls -/

/-- What was last set under a name depends on the calls with this name only. -/
theorem lastSetting?_filter (calls : List Call) (name : String) :
    lastSetting? (calls.filter fun call => call.name = name) name = lastSetting? calls name := by
  have same : (calls.filter fun call => call.name = name).filterMap (Call.setting? name) =
      calls.filterMap (Call.setting? name) := by
    rw [List.filterMap_filter]
    refine List.filterMap_congr fun call _ => ?_
    by_cases named : call.name = name <;> simp [named, Call.setting?]
  rw [lastSetting?, same, lastSetting?]

/-- Calls may be put into another order that keeps those of each name in theirs. -/
theorem afterAll_eq_of_filter {calls others : List Call}
    (same : ∀ name, others.filter (fun call => call.name = name) =
      calls.filter fun call => call.name = name) (c : Config) :
    c.afterAll others = c.afterAll calls := by
  -- the configuration depends on the last settings, and these on the calls of one name each
  have last (name : String) : lastSetting? others name = lastSetting? calls name := by
    rw [← lastSetting?_filter others, ← lastSetting?_filter calls, same]
  exact eq_afterAll_iff.2 ⟨c.afterAll_root others, fun name => by rw [afterAll_rule?, last]⟩

end Config

/-- After any calls on a configuration that can be built, failing ones included: it is the old
configuration with the last successful setting under each name; under every name that is on a rule
is listed, the name makes this rule, which takes part for every file that its globs do not ignore,
and the globs are those of its options; a further call that fails has an unknown name or a glob that
does not compile, and changes nothing; and calls for different names may change places. -/
theorem afterAll_overrides (start : Config) (built : start.Reachable) (calls : List Config.Call) :
    (∀ p ∈ (start.afterAll calls).enabled,
      (∃ r, Rule.ofName? p.1 = some r ∧ Rule.create? p.1 = some r ∧
        ∀ path, r ∈ (start.afterAll calls).activeRules path ↔
          p.2.ignore.ignores (Path.relative start.root path) = false) ∧
        ∃ m, p.2.options.matcher = .ok m ∧ ∀ path, p.2.ignore.ignores path = m.ignores path) ∧
      (∀ next, next = start.afterAll calls ↔ next.root = start.root ∧
        ∀ name, next.rule? name = (Config.lastSetting? calls name).or (start.rule? name)) ∧
      (∀ name options e next,
        (Config.setRule name options).run.run (start.afterAll calls) = (.error e, next) →
          next = start.afterAll calls ∧ next.fingerprint = (start.afterAll calls).fingerprint ∧
            (Rule.ofName? name = none ∧ e = .unknownRule name ∨
              Rule.ofName? name ≠ none ∧ options.matcher = .error e)) ∧
      ∀ others : List Config.Call,
        (∀ name, others.filter (fun call => call.name = name) =
          calls.filter fun call => call.name = name) →
        start.afterAll others = start.afterAll calls := by
  have sound := (built.afterAll calls).sound
  refine ⟨?_, fun next => Config.eq_afterAll_iff, ?_, fun others same =>
    Config.afterAll_eq_of_filter same start⟩
  · rintro ⟨name, s⟩ mem
    have on := Config.mem_enabled_iff.1 mem
    refine ⟨?_, s.ignore, sound.compiled on, fun path => rfl⟩
    rcases sound.registered on with ⟨r, named⟩
    refine ⟨r, named, (Rule.create?_eq_ofName? name).trans named, fun path => ?_⟩
    rw [← Rule.ofName?_eq_some_iff.1 named] at on
    have set : (start.afterAll calls).settings r = some s := on
    rw [Config.mem_activeRules_iff, Config.isActive_iff, start.afterAll_root calls]
    simp [set]
  · intro name options e next run
    rw [Config.run_setRule] at run
    split at run
    · rcases Prod.mk.inj run with ⟨answer, -⟩
      cases answer
    · rename_i failed
      rcases Prod.mk.inj run with ⟨answer, rfl⟩
      rcases Except.error.inj answer with rfl
      exact ⟨rfl, rfl, Config.set_eq_error_iff.1 failed⟩

/-- Of three calls the last two fail, one for its name and one for its glob. -/
theorem afterAll_overrides_recommended :
    ∃ m, (Options.ignoring ["legacy/**"]).matcher = .ok m ∧
      (Config.recommended "/p").put "browser-api" ⟨.ignoring ["legacy/**"], m⟩ =
        (Config.recommended "/p").afterAll [⟨"browser-api", .ignoring ["legacy/**"]⟩,
          ⟨"no-such-rule", .default⟩, ⟨"use-client-hook", .ignoring ["["]⟩] := by
  have compiles : (Options.ignoring ["legacy/**"]).matcher.toOption.isSome := by decide +kernel
  have fails : (Options.ignoring ["["]).matcher.toOption = none :=
    Option.isNone_iff_eq_none.1 (by decide +kernel)
  have names : (Rule.ofName? "browser-api").isSome = true ∧
      (Rule.ofName? "no-such-rule").isSome = false := by
    decide +kernel
  cases globs : (Options.ignoring ["legacy/**"]).matcher with
  | error e => simp [globs, Except.toOption] at compiles
  | ok m =>
      have succeeds : (Options.ignoring ["legacy/**"]).matcher.toOption = some m := by
        rw [globs]
        rfl
      have last (name : String) : Config.lastSetting? [⟨"browser-api", .ignoring ["legacy/**"]⟩,
          ⟨"no-such-rule", .default⟩, ⟨"use-client-hook", .ignoring ["["]⟩] name =
            if name = "browser-api" then some ⟨.ignoring ["legacy/**"], m⟩ else none := by
        by_cases first : "browser-api" = name
        · subst first
          simp [Config.lastSetting?, Config.Call.setting?, names, succeeds]
        · have other : name ≠ "browser-api" := fun same => first same.symm
          by_cases second : "no-such-rule" = name
          · subst second
            simp [Config.lastSetting?, Config.Call.setting?, names]
          · simp [Config.lastSetting?, Config.Call.setting?, first, second, other, fails]
      refine ⟨m, rfl, ?_⟩
      refine ((afterAll_overrides (Config.recommended "/p") (.recommended "/p") _).2.1 _).2
        ⟨rfl, fun name => ?_⟩
      rw [last, Config.rule?_put]
      by_cases here : name = "browser-api" <;> simp [here]

end Rules
end ClientBoundary
