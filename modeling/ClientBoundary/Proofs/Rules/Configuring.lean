import ClientBoundary.Proofs.Json.Sorting
import ClientBoundary.Rules.Config

/-!
# Configurations that can be built

A configuration is built by a few operations. Whichever of them are used, every name that is on is
that of a rule, and its globs are those of its options.

- `Rule.ofName?_eq_some_iff`, `Rule.create?_eq_ofName?`: the rule of a name;
- `Config.Reachable`: what the operations build;
- `Config.Sound`, `Config.Reachable.sound`: in them names make rules, and options tell globs;
- `Config.isActive`, `Config.activeRules_eq`: the rules that are on for a file.
-/

namespace ClientBoundary
namespace Rules

open Json (Value)

/-! ## Names of rules -/

namespace Rule

theorem ofName?_name (r : Rule) : ofName? r.name = some r := by
  cases r <;> decide

theorem ofName?_eq_some_iff {name : String} {r : Rule} :
    ofName? name = some r ↔ r.name = name := by
  constructor
  · intro found
    simpa using List.find?_some found
  · rintro rfl
    exact r.ofName?_name

theorem name_injective {r q : Rule} (same : r.name = q.name) : r = q :=
  Option.some.inj ((ofName?_eq_some_iff.2 same).symm.trans q.ofName?_name)

theorem create?_name (r : Rule) : create? r.name = some r := by
  cases r <;> decide

theorem create?_eq_some_iff {name : String} {r : Rule} : create? name = some r ↔ r.name = name := by
  constructor
  · intro made
    unfold create? at made
    split at made
    · rename_i here
      rw [← Option.some.inj made, here]
    · split at made
      · rename_i here
        rw [← Option.some.inj made, here]
      · split at made
        · rename_i here
          rw [← Option.some.inj made, here]
        · cases made
  · rintro rfl
    exact r.create?_name

/-- A name makes a rule if and only if one is listed under it, and it makes this one. -/
theorem create?_eq_ofName? (name : String) : create? name = ofName? name := by
  ext r
  rw [create?_eq_some_iff, ofName?_eq_some_iff]

/-- All rules stand in the order of their names. -/
theorem all_increasing : all.Pairwise fun r q => r.name < q.name := by
  decide

/-- Rules in the order of their names are told by which rules they are. -/
theorem eq_of_mem_iff {rs qs : List Rule} (hr : rs.Pairwise fun r q => r.name < q.name)
    (hq : qs.Pairwise fun r q => r.name < q.name) (same : ∀ r, r ∈ rs ↔ r ∈ qs) : rs = qs := by
  let before (r q : Rule) : Prop := r.name < q.name
  have irrefl : Std.Irrefl before := ⟨fun r => lt_irrefl r.name⟩
  have antisymm : Std.Antisymm before := ⟨fun r q less more => absurd more (lt_asymm less)⟩
  exact List.Pairwise.eq_of_mem_iff (r := before) hr hq same

end Rule

namespace Config

/-! ## Settings under names -/

theorem rule?_new (root name : String) : (new root).rule? name = none :=
  rfl

theorem rule?_put (c : Config) (name : String) (s : Settings) (other : String) :
    (c.put name s).rule? other = if other = name then some s else c.rule? other :=
  c.rules.get?_insert name s other

theorem settings_put (c : Config) (r : Rule) (s : Settings) (q : Rule) :
    (c.put r.name s).settings q = if q = r then some s else c.settings q := by
  have same : q.name = r.name ↔ q = r := ⟨Rule.name_injective, congrArg Rule.name⟩
  rw [settings, rule?_put]
  exact if_congr same rfl rfl

/-- A configuration is told by its root and the settings under all names. -/
theorem eq_of_rule? {c d : Config} (root : c.root = d.root)
    (same : ∀ name, c.rule? name = d.rule? name) : c = d := by
  rcases c with ⟨root_, rules⟩
  rcases d with ⟨root', rules'⟩
  obtain rfl : root_ = root' := root
  obtain rfl : rules = rules' := Json.Map.eq_of_get? same
  rfl

theorem mem_enabled_iff {c : Config} {p : String × Settings} :
    p ∈ c.enabled ↔ c.rule? p.1 = some p.2 :=
  Json.Map.get?_eq_some_iff.symm

theorem rule?_recommended (root name : String) :
    (recommended root).rule? name =
      if (Rule.ofName? name).isSome then some ⟨.default, .empty⟩ else none := by
  have puts : recommended root = (((new root).put Rule.eventHandler.name ⟨.default, .empty⟩).put
      Rule.clientHook.name ⟨.default, .empty⟩).put Rule.browserApi.name ⟨.default, .empty⟩ := rfl
  have listed : (Rule.ofName? name).isSome = true ↔ name = Rule.browserApi.name ∨
      name = Rule.clientHook.name ∨ name = Rule.eventHandler.name := by
    rw [Option.isSome_iff_exists]
    constructor
    · rintro ⟨r, named⟩
      rw [← Rule.ofName?_eq_some_iff.1 named]
      cases r <;> simp
    · rintro (rfl | rfl | rfl) <;> exact ⟨_, Rule.ofName?_name _⟩
  rw [puts, rule?_put, rule?_put, rule?_put, rule?_new, if_congr listed rfl rfl]
  by_cases browser : name = Rule.browserApi.name <;> by_cases hook : name = Rule.clientHook.name <;>
    by_cases handler : name = Rule.eventHandler.name <;> simp [browser, hook, handler]

theorem settings_recommended (root : String) (r : Rule) :
    (recommended root).settings r = some ⟨.default, .empty⟩ := by
  rw [settings, rule?_recommended, r.ofName?_name]
  rfl

/-! ## Building -/

/-- The configurations that can be built: an empty one, the recommended one, that of a document, and
one in which a further rule is turned on. -/
inductive Reachable : Config → Prop where
  | new (root : String) : Reachable (new root)
  | recommended (root : String) : Reachable (recommended root)
  | ofJson {text defaultRoot : String} {c : Config} (read : ofJson text defaultRoot = .ok c) :
      Reachable c
  | set {c next : Config} {name : String} {options : Options} (h : Reachable c)
      (done : c.set name options = .ok next) : Reachable next

/-- Turning a rule on needs a registered name and globs that compile, and changes nothing but the
settings under that name. -/
theorem set_eq_ok_iff {c next : Config} {name : String} {options : Options} :
    c.set name options = .ok next ↔
      ∃ r ignore, Rule.ofName? name = some r ∧ options.matcher = .ok ignore ∧
        next = c.put name ⟨options, ignore⟩ := by
  unfold set
  cases Rule.ofName? name with
  | none => simp
  | some r =>
      cases options.matcher with
      | error e => simp
      | ok ignore => simp [eq_comm]

theorem set_name {c : Config} {r : Rule} {options : Options} {ignore : IgnoreMatcher}
    (globs : options.matcher = .ok ignore) :
    c.set r.name options = .ok (c.put r.name ⟨options, ignore⟩) :=
  set_eq_ok_iff.2 ⟨r, ignore, r.ofName?_name, globs, rfl⟩

/-! ## Registered names and compiled globs -/

/-- Every name that is on is registered, and its globs are those of its options. -/
structure Sound (c : Config) : Prop where
  registered : ∀ {name s}, c.rule? name = some s → ∃ r, Rule.ofName? name = some r
  compiled : ∀ {name s}, c.rule? name = some s → s.options.matcher = .ok s.ignore

theorem sound_new (root : String) : (new root).Sound where
  registered on := nomatch on
  compiled on := nomatch on

theorem sound_recommended (root : String) : (recommended root).Sound where
  registered on := by
    rw [rule?_recommended, Option.ite_none_right_eq_some] at on
    exact Option.isSome_iff_exists.1 on.1
  compiled on := by
    rw [rule?_recommended, Option.ite_none_right_eq_some] at on
    rw [← Option.some.inj on.2]
    rfl

/-- Turning a rule on keeps all names registered and the globs of all rules compiled. -/
theorem Sound.set {c next : Config} {name : String} {options : Options} (h : c.Sound)
    (done : c.set name options = .ok next) : next.Sound := by
  rcases set_eq_ok_iff.1 done with ⟨r, ignore, named, globs, rfl⟩
  have on {other : String} {s : Settings}
      (here : (c.put name ⟨options, ignore⟩).rule? other = some s) :
      other = name ∧ ⟨options, ignore⟩ = s ∨ c.rule? other = some s := by
    rw [rule?_put] at here
    split at here
    · rename_i same
      exact .inl ⟨same, Option.some.inj here⟩
    · exact .inr here
  constructor
  · intro other s here
    rcases on here with ⟨rfl, -⟩ | old
    · exact ⟨r, named⟩
    · exact h.registered old
  · intro other s here
    rcases on here with ⟨-, rfl⟩ | old
    · exact globs
    · exact h.compiled old

theorem Sound.setAll {c next : Config} {members : List (String × Value)} (h : c.Sound)
    (done : c.setAll members = .ok next) : next.Sound := by
  -- along the members, up to the first fault
  induction members generalizing c with
  | nil =>
      have same : c = next := by simpa [Config.setAll] using done
      rw [← same]
      exact h
  | cons member more ih =>
      rw [Config.setAll] at done
      split at done
      · simp at done
      · split at done
        · simp at done
        · rename_i middle turned
          exact ih (h.set turned) done

theorem sound_ofSorted {document : Value} {defaultRoot : String} {c : Config}
    (read : ofSorted document defaultRoot = .ok c) : c.Sound := by
  unfold ofSorted at read
  split at read
  · have empty := Except.ok.inj read
    rw [← empty]
    exact sound_new _
  · have empty := Except.ok.inj read
    rw [← empty]
    exact sound_new _
  · exact (sound_new _).setAll read
  · simp at read

/-- Whichever operations build a configuration, its names are registered, and the options of a rule
tell its globs. -/
theorem Reachable.sound {c : Config} (h : c.Reachable) : c.Sound := by
  induction h with
  | new root => exact sound_new root
  | recommended root => exact sound_recommended root
  | ofJson read =>
      unfold Config.ofJson at read
      split at read
      · simp at read
      · exact sound_ofSorted read
  | set h done ih => exact ih.set done

namespace Sound

variable {c d : Config}

theorem matcher (h : c.Sound) {r : Rule} {s : Settings} (on : c.settings r = some s) :
    s.options.matcher = .ok s.ignore :=
  h.compiled on

/-- Two settings with the same options are the same where globs are compiled. -/
theorem settings_eq (hc : c.Sound) (hd : d.Sound) {r : Rule}
    (same : (c.settings r).map Settings.options = (d.settings r).map Settings.options) :
    c.settings r = d.settings r := by
  cases here : c.settings r with
  | none =>
      cases there : d.settings r with
      | none => rfl
      | some t => simp [here, there] at same
  | some s =>
      cases there : d.settings r with
      | none => simp [here, there] at same
      | some t =>
          have options : s.options = t.options := by simpa [here, there] using same
          have globs : s.ignore = t.ignore := by
            have left := hc.matcher here
            have right := hd.matcher there
            rw [options, right] at left
            exact (Except.ok.inj left).symm
          have equal : s = t :=
            calc s = ⟨s.options, s.ignore⟩ := rfl
              _ = ⟨t.options, t.ignore⟩ := by rw [options, globs]
              _ = t := rfl
          rw [equal]

/-- Under a name that is that of no rule there is nothing, so the settings of the rules tell all. -/
theorem rules_eq (hc : c.Sound) (hd : d.Sound) (same : c.settings = d.settings) :
    c.rules = d.rules := by
  refine Json.Map.eq_of_get? fun name => ?_
  show c.rule? name = d.rule? name
  cases named : Rule.ofName? name with
  | some r =>
      rw [← Rule.ofName?_eq_some_iff.1 named]
      exact congrFun same r
  | none =>
      have bare {e : Config} (he : e.Sound) : e.rule? name = none := by
        by_contra on
        rcases Option.ne_none_iff_exists'.1 on with ⟨s, on⟩
        rcases he.registered on with ⟨r, named'⟩
        rw [named] at named'
        cases named'
      rw [bare hc, bare hd]

end Sound

/-! ## Rules that are on for a file -/

/-- Whether a rule is on for a file: it is on, and none of its globs matches. -/
def isActive (c : Config) (path : String) (r : Rule) : Bool :=
  (c.settings r).any fun s => !s.ignore.ignores (Path.relative c.root path)

theorem isActive_iff {c : Config} {path : String} {r : Rule} :
    c.isActive path r = true ↔
      ∃ s, c.settings r = some s ∧ s.ignore.ignores (Path.relative c.root path) = false := by
  unfold isActive
  cases c.settings r with
  | none => simp
  | some s => simp

/-- Rules with the same settings are on for the same files as far as their globs tell the same of
the file under both roots. -/
theorem isActive_eq_iff {c d : Config} {r : Rule} (same : c.settings r = d.settings r)
    (path : String) :
    c.isActive path r = d.isActive path r ↔
      ∀ s, c.settings r = some s →
        s.ignore.ignores (Path.relative c.root path) =
          s.ignore.ignores (Path.relative d.root path) := by
  unfold isActive
  rw [← same]
  cases c.settings r with
  | none => simp
  | some s => simp

/-- A rule is made for a file if and only if it is on for it. -/
theorem mem_activeRules_iff {c : Config} {path : String} {r : Rule} :
    r ∈ c.activeRules path ↔ c.isActive path r = true := by
  rw [isActive_iff, activeRules, List.mem_filterMap]
  simp only [Option.ite_none_left_eq_some, Rule.create?_eq_some_iff, Bool.not_eq_true]
  constructor
  · rintro ⟨⟨name, s⟩, mem, free, rfl⟩
    exact ⟨s, mem_enabled_iff.1 mem, free⟩
  · rintro ⟨s, on, free⟩
    exact ⟨(r.name, s), mem_enabled_iff.2 on, free, rfl⟩

/-- The active rules stand in the order of their names, each once. -/
theorem activeRules_increasing (c : Config) (path : String) :
    (c.activeRules path).Pairwise fun r q => r.name < q.name := by
  refine List.Pairwise.filterMap _ ?_ (List.pairwise_map.1 c.rules.increasing)
  simp only [Option.ite_none_left_eq_some, Rule.create?_eq_some_iff]
  rintro p p' less r ⟨-, made⟩ q ⟨-, made'⟩
  rw [made, made']
  exact less

/-- The active rules are among all rules in their order. -/
theorem activeRules_eq (c : Config) (path : String) :
    c.activeRules path = Rule.all.filter (c.isActive path) := by
  refine Rule.eq_of_mem_iff (c.activeRules_increasing path)
    (Rule.all_increasing.filter _) fun r => ?_
  rw [mem_activeRules_iff, List.mem_filter, and_iff_right (Rule.mem_all r)]

/-- All rules are on for every file. -/
theorem activeRules_recommended (root path : String) :
    (recommended root).activeRules path = Rule.all := by
  rw [activeRules_eq, List.filter_eq_self]
  intro r _
  refine isActive_iff.2 ⟨_, settings_recommended root r, ?_⟩
  simp [IgnoreMatcher.ignores, IgnoreMatcher.empty]

end Config
end Rules
end ClientBoundary
