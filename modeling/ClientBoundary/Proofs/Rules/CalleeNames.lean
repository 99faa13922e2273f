import ClientBoundary.Proofs.Rules.HookCalls
import Mathlib.Logic.Relation

/-!
# How callees are displayed

A hook is displayed by its name, or by its name behind that of the library. Parentheses play no
part in it. In the display name of any other callee they are passed over as well, except where they
stand around a key in brackets.

- `Regroups`, `SameButParens`: trees that differ in parentheses alone;
- `Spells e name`: the name of a callee with all parentheses passed over;
- `KeyInParens`: a key in parentheses, which takes the display name away;
- `sameButParens_names`: what parentheses can change about a callee;
- `IsHookText`, `hookCallee_named`: the names by which hooks are displayed and reported.
-/

namespace ClientBoundary
namespace Rules

open Script (Node Program Occurs mem_occurrences_iff)

/-! ## Parentheses -/

/-- A pair of parentheses is put around a part of a tree, or taken away. The last link of a chain is
no expression by itself, so none stand around it. -/
inductive Regroups : Node → Node → Prop where
  | add (e : Node) : Regroups e (.paren e)
  | remove (e : Node) : Regroups (.paren e) e
  | paren {e f : Node} (h : Regroups e f) : Regroups (.paren e) (.paren f)
  | member {e f : Node} {property : String} (h : Regroups e f) :
      Regroups (.member e property) (.member f property)
  | indexObject {e f key : Node} (h : Regroups e f) : Regroups (.index e key) (.index f key)
  | indexKey {object e f : Node} (h : Regroups e f) : Regroups (.index object e) (.index object f)
  | privateMember {e f : Node} {name : String} (h : Regroups e f) :
      Regroups (.privateMember e name) (.privateMember f name)
  | callee {e f : Node} {arguments : List Node} (h : Regroups e f) :
      Regroups (.call e arguments) (.call f arguments)
  | argument {callee e f : Node} {before after : List Node} (h : Regroups e f) :
      Regroups (.call callee (before ++ e :: after)) (.call callee (before ++ f :: after))
  | chain {e f : Node} (h : Regroups e f) (bare : ∀ inner, e ≠ .paren inner)
      (still_bare : ∀ inner, f ≠ .paren inner) : Regroups (.chain e) (.chain f)
  | function {name : Option String} {isDeclaration : Bool} {e f : Node} {before after : List Node}
      (h : Regroups e f) :
      Regroups (.function name isDeclaration (before ++ e :: after))
        (.function name isDeclaration (before ++ f :: after))
  | arrow {e f : Node} {before after : List Node} (h : Regroups e f) :
      Regroups (.arrow (before ++ e :: after)) (.arrow (before ++ f :: after))
  | target {name : Option String} {init : Option Node} {e f : Node} {before after : List Node}
      (h : Regroups e f) :
      Regroups (.declarator name (before ++ e :: after) init)
        (.declarator name (before ++ f :: after) init)
  | init {name : Option String} {target : List Node} {e f : Node} (h : Regroups e f) :
      Regroups (.declarator name target (some e)) (.declarator name target (some f))
  | opening {tag : Option String} {e f : Node} {before after : List Node} (h : Regroups e f) :
      Regroups (.opening tag (before ++ e :: after)) (.opening tag (before ++ f :: after))
  | prop {name : String} {e f : Node} {before after : List Node} (h : Regroups e f) :
      Regroups (.prop name (before ++ e :: after)) (.prop name (before ++ f :: after))
  | statement {e f : Node} (h : Regroups e f) : Regroups (.statement e) (.statement f)
  | scope {kind : Script.ScopeKind} {e f : Node} {before after : List Node} (h : Regroups e f) :
      Regroups (.scope kind (before ++ e :: after)) (.scope kind (before ++ f :: after))
  | group {e f : Node} {before after : List Node} (h : Regroups e f) :
      Regroups (.group (before ++ e :: after)) (.group (before ++ f :: after))

/-- Trees that come from each other by putting in and taking away parentheses, any number of
times. -/
def SameButParens : Node → Node → Prop :=
  Relation.ReflTransGen Regroups

theorem Regroups.symm {e f : Node} (h : Regroups e f) : Regroups f e := by
  induction h with
  | add e => exact .remove e
  | remove e => exact .add e
  | paren h ih => exact .paren ih
  | member h ih => exact .member ih
  | indexObject h ih => exact .indexObject ih
  | indexKey h ih => exact .indexKey ih
  | privateMember h ih => exact .privateMember ih
  | callee h ih => exact .callee ih
  | argument h ih => exact .argument ih
  | chain h bare still_bare ih => exact .chain ih still_bare bare
  | function h ih => exact .function ih
  | arrow h ih => exact .arrow ih
  | target h ih => exact .target ih
  | init h ih => exact .init ih
  | opening h ih => exact .opening ih
  | prop h ih => exact .prop ih
  | statement h ih => exact .statement ih
  | scope h ih => exact .scope ih
  | group h ih => exact .group ih

/-- What every single step keeps is the same in trees that differ in parentheses alone. -/
theorem SameButParens.iff_of_keeps {e f : Node} (h : SameButParens e f) (p : Node → Prop)
    (keeps : ∀ {a b : Node}, p a → Regroups a b → p b) : p e ↔ p f := by
  induction h with
  | refl => exact Iff.rfl
  | tail _ step ih =>
      exact ih.trans ⟨fun before => keeps before step, fun after => keeps after step.symm⟩

/-! ## Names and hooks -/

theorem IsName.regrouped {e f : Node} {name : String} (h : IsName e name) (step : Regroups e f) :
    IsName f name := by
  induction h generalizing f with
  | reference name use =>
      cases step
      exact .paren (.reference name use)
  | paren h ih =>
      cases step with
      | add => exact .paren (.paren h)
      | remove => exact h
      | paren step => exact .paren (ih step)

theorem HookCallee.regrouped {e f : Node} {name : String} (h : HookCallee e name)
    (step : Regroups e f) :
    HookCallee f name := by
  induction h generalizing f with
  | plain hook =>
      cases step
      exact .paren (.plain hook)
  | member object_name library hook_name =>
      cases step with
      | add => exact .paren (.member object_name library hook_name)
      | member step => exact .member (object_name.regrouped step) library hook_name
  | paren h ih =>
      cases step with
      | add => exact .paren (.paren h)
      | remove => exact h
      | paren step => exact .paren (ih step)

/-! ## Display names -/

/-- A chain ends in a call or in an access by name. -/
inductive IsNamedLink : Node → Prop where
  | call (callee : Node) (arguments : List Node) : IsNamedLink (.call callee arguments)
  | member (object : Node) (property : String) : IsNamedLink (.member object property)

/-- The name of a callee, with all parentheses passed over: the names in it with points between
them. A call stands for what it calls, and a key in brackets that is a plain name stands like a
member. -/
inductive Spells : Node → String → Prop where
  | reference (name : String) (use : Script.Use) : Spells (.reference name use) name
  | this : Spells .this "this"
  | super : Spells .super "super"
  | member {object : Node} {o property : String} (h : Spells object o) :
      Spells (.member object property) (o ++ "." ++ property)
  | index {object key : Node} {o property : String} (h : Spells object o)
      (key_name : IsName key property) : Spells (.index object key) (o ++ "." ++ property)
  | call {callee : Node} {arguments : List Node} {name : String} (h : Spells callee name) :
      Spells (.call callee arguments) name
  | chain {link : Node} {name : String} (named : IsNamedLink link) (h : Spells link name) :
      Spells (.chain link) name
  | paren {inner : Node} {name : String} (h : Spells inner name) : Spells (.paren inner) name

/-- On the way down to the first name of a callee there is a key in parentheses. -/
inductive KeyInParens : Node → Prop where
  | key (object inner : Node) : KeyInParens (.index object (.paren inner))
  | index {object key : Node} (h : KeyInParens object) : KeyInParens (.index object key)
  | member {object : Node} {property : String} (h : KeyInParens object) :
      KeyInParens (.member object property)
  | call {callee : Node} {arguments : List Node} (h : KeyInParens callee) :
      KeyInParens (.call callee arguments)
  | chain {link : Node} (h : KeyInParens link) : KeyInParens (.chain link)
  | paren {inner : Node} (h : KeyInParens inner) : KeyInParens (.paren inner)

theorem IsNamedLink.regrouped {e f : Node} (h : IsNamedLink e) (step : Regroups e f)
    (bare : ∀ inner, f ≠ .paren inner) : IsNamedLink f := by
  cases h with
  | call callee arguments =>
      cases step with
      | add => exact absurd rfl (bare _)
      | callee step => exact .call _ _
      | argument step => exact .call _ _
  | member object property =>
      cases step with
      | add => exact absurd rfl (bare _)
      | member step => exact .member _ _

theorem Spells.regrouped {e f : Node} {name : String} (h : Spells e name) (step : Regroups e f) :
    Spells f name := by
  induction h generalizing f with
  | reference name use =>
      cases step
      exact .paren (.reference name use)
  | this =>
      cases step
      exact .paren .this
  | super =>
      cases step
      exact .paren .super
  | member h ih =>
      cases step with
      | add => exact .paren (.member h)
      | member step => exact .member (ih step)
  | index h key_name ih =>
      cases step with
      | add => exact .paren (.index h key_name)
      | indexObject step => exact .index (ih step) key_name
      -- a key is a name up to parentheses, so a step in it leaves it the same name
      | indexKey step => exact .index h (key_name.regrouped step)
  | call h ih =>
      cases step with
      | add => exact .paren (.call h)
      | callee step => exact .call (ih step)
      | argument step => exact .call h
  | chain named h ih =>
      cases step with
      | add => exact .paren (.chain named h)
      | chain step bare still_bare => exact .chain (named.regrouped step still_bare) (ih step)
  | paren h ih =>
      cases step with
      | add => exact .paren (.paren h)
      | remove => exact h
      | paren step => exact .paren (ih step)

/-- What is displayed is spelled out. -/
theorem spells_of_calleeName? {e : Node} {name : String} (h : calleeName? e = some name) :
    Spells e name := by
  fun_induction calleeName? e generalizing name with
  | case1 first use =>
      rcases Option.some.inj h with rfl
      exact .reference first use
  | case2 =>
      rcases Option.some.inj h with rfl
      exact .this
  | case3 =>
      rcases Option.some.inj h with rfl
      exact .super
  | case4 object property ih =>
      rcases Option.map_eq_some_iff.1 h with ⟨o, object_name, rfl⟩
      exact .member (ih object_name)
  | case5 object property use ih =>
      rcases Option.map_eq_some_iff.1 h with ⟨o, object_name, rfl⟩
      exact .index (ih object_name) (.reference property use)
  | case6 => simp at h
  | case7 callee arguments ih => exact .call (ih h)
  | case8 callee arguments ih => exact .chain (.call callee arguments) (.call (ih h))
  | case9 object property ih =>
      rcases Option.map_eq_some_iff.1 h with ⟨o, object_name, rfl⟩
      exact .chain (.member object property) (.member (ih object_name))
  | case10 inner ih => exact .paren (ih h)
  | case11 => simp at h

/-- A callee with a key in parentheses has no display name. -/
theorem KeyInParens.calleeName?_eq {e : Node} (h : KeyInParens e) : calleeName? e = none := by
  induction h with
  | key object inner => simp [calleeName?]
  | @index object key h ih => cases key <;> simp [calleeName?, ih]
  | member h ih => simp [calleeName?, ih]
  | call h ih => simpa [calleeName?] using ih
  | @chain link h ih => cases link <;> simp_all [calleeName?]
  | paren h ih => simpa [calleeName?] using ih

theorem Spells.calleeName?_eq {e : Node} {name : String} (h : Spells e name)
    (plain : ¬KeyInParens e) : calleeName? e = some name := by
  induction h with
  | reference name use => rfl
  | this => rfl
  | super => rfl
  | member h ih =>
      have object := ih fun inside => plain (.member inside)
      simp [calleeName?, object]
  | index h key_name ih =>
      have object := ih fun inside => plain (.index inside)
      cases key_name with
      | reference name use => simp [calleeName?, object]
      | paren key_name => exact absurd (.key _ _) plain
  | call h ih =>
      have callee := ih fun inside => plain (.call inside)
      simpa [calleeName?] using callee
  | chain named h ih =>
      have link := ih fun inside => plain (.chain inside)
      cases named with
      | call callee arguments => simpa [calleeName?] using link
      | member object property => simpa [calleeName?] using link
  | paren h ih =>
      have inner := ih fun inside => plain (.paren inside)
      simpa [calleeName?] using inner

/-- A callee is displayed by the name that it spells out, unless a key in it is in parentheses. -/
theorem calleeName?_eq_some_iff {e : Node} {name : String} :
    calleeName? e = some name ↔ Spells e name ∧ ¬KeyInParens e := by
  refine ⟨fun h => ⟨spells_of_calleeName? h, ?_⟩, fun h => h.1.calleeName?_eq h.2⟩
  intro key
  rw [key.calleeName?_eq] at h
  cases h

theorem calleeName?_eq_none_iff {e : Node} :
    calleeName? e = none ↔ (∀ name, ¬Spells e name) ∨ KeyInParens e := by
  rw [Option.eq_none_iff_forall_ne_some]
  simp only [ne_eq, calleeName?_eq_some_iff, not_and_not_right, ← forall_or_right]
  exact forall_congr' fun name => imp_iff_not_or

/-- Two callees that spell out the same are displayed alike if and only if they spell out nothing,
or both of them have a key in parentheses, or none has. -/
theorem calleeName?_eq_iff {e f : Node} (names : ∀ name, Spells e name ↔ Spells f name) :
    calleeName? e = calleeName? f ↔
      (∀ name, ¬Spells e name) ∨ (KeyInParens e ↔ KeyInParens f) := by
  by_cases nameless : ∀ name, ¬Spells e name
  · have left : calleeName? e = none := calleeName?_eq_none_iff.2 (.inl nameless)
    have right : calleeName? f = none :=
      calleeName?_eq_none_iff.2 (.inl fun name => mt (names name).2 (nameless name))
    simp [left, right, nameless]
  · constructor
    · intro equal
      -- with a name to lose, what is not displayed has a key in parentheses
      have lost : ∀ name, Spells e name → (KeyInParens e ↔ KeyInParens f) := by
        intro name spelled
        have left := calleeName?_eq_some_iff.trans (and_iff_right spelled)
        have right := calleeName?_eq_some_iff.trans (and_iff_right ((names name).1 spelled))
        rw [← not_iff_not, ← left, ← right, equal]
      rcases not_forall_not.1 nameless with ⟨name, spelled⟩
      exact .inr (lost name spelled)
    · rintro (nothing | keys)
      · exact absurd nothing nameless
      · ext name
        rw [calleeName?_eq_some_iff, calleeName?_eq_some_iff, names, keys]

/-! ## Callees that differ in parentheses alone -/

theorem SameButParens.hookCallee_iff {e f : Node} (h : SameButParens e f) (name : String) :
    HookCallee e name ↔ HookCallee f name :=
  h.iff_of_keeps (HookCallee · name) HookCallee.regrouped

theorem SameButParens.spells_iff {e f : Node} (h : SameButParens e f) (name : String) :
    Spells e name ↔ Spells f name :=
  h.iff_of_keeps (Spells · name) Spells.regrouped

/-- Parentheses do not change whether a callee is a hook, nor how a hook is displayed. Any other
callee is displayed alike in two trees that differ in parentheses alone if and only if it has no
name, or a key on the way down to its first name is in parentheses in both trees or in neither. -/
theorem sameButParens_names {e f : Node} (same : SameButParens e f) :
    isHookCallee e = isHookCallee f ∧
      (isHookCallee e = true → calleeName? e = calleeName? f) ∧
      (calleeName? e = calleeName? f ↔
        (∀ name, ¬Spells e name) ∨ (KeyInParens e ↔ KeyInParens f)) := by
  refine ⟨?_, ?_, calleeName?_eq_iff same.spells_iff⟩
  · rw [Bool.eq_iff_iff, isHookCallee_iff, isHookCallee_iff]
    exact exists_congr same.hookCallee_iff
  · intro hook
    rcases isHookCallee_iff.1 hook with ⟨name, hook⟩
    have other : HookCallee f name := (same.hookCallee_iff name).1 hook
    rw [hook.calleeName?_eq, other.calleeName?_eq]

/-- `a[b]` -/
def plainKey : Node :=
  .index (.reference "a" .value) (.reference "b" .value)

/-- `a[(b)]` -/
def wrappedKey : Node :=
  .index (.reference "a" .value) (.paren (.reference "b" .value))

/-- `React.useState` -/
def plainHook : Node :=
  .member (.reference "React" .value) "useState"

/-- `((React).useState)` -/
def wrappedHook : Node :=
  .paren (.member (.paren (.reference "React" .value)) "useState")

/-- Parentheses around a key take the name of a callee away, and those in a hook do not. -/
theorem sameButParens_names_key :
    (SameButParens plainKey wrappedKey ∧ calleeName? plainKey ≠ calleeName? wrappedKey) ∧
      SameButParens plainHook wrappedHook ∧ isHookCallee plainHook = true ∧
        calleeName? plainHook = calleeName? wrappedHook := by
  have keys : SameButParens plainKey wrappedKey := .single (.indexKey (.add _))
  have hooks : SameButParens plainHook wrappedHook :=
    .tail (.single (.member (.add _))) (.add _)
  have named : Spells plainKey ("a" ++ "." ++ "b") := .index (.reference _ _) (.reference _ _)
  have plain : ¬KeyInParens plainKey := by
    intro inside
    cases inside with
    | index inside => cases inside
  have hook : isHookCallee plainHook = true := by decide
  refine ⟨⟨keys, ?_⟩, hooks, hook, (sameButParens_names hooks).2.1 hook⟩
  intro equal
  rcases (sameButParens_names keys).2.2.1 equal with nameless | alike
  · exact nameless _ named
  · exact plain (alike.2 (.key _ _))

/-! ## Names of hooks -/

/-- A text by which a hook is displayed: its name, or its name behind that of the library. -/
def IsHookText (text : String) : Prop :=
  ∃ hook, HookName hook ∧
    (text = hook ∨ text = "React." ++ hook ∨ text = "react." ++ hook)

theorem IsHookText.ne_empty {text : String} (h : IsHookText text) : text ≠ "" := by
  rintro rfl
  rcases h with ⟨hook, hook_name, plain | library | library⟩
  · rw [← plain] at hook_name
    exact absurd hook_name (by decide)
  · simp at library
  · simp at library

theorem HookCallee.isHookText {e : Node} {name : String} (h : HookCallee e name) :
    IsHookText name := by
  induction h with
  | @plain name _ hook => exact ⟨name, hook, .inl rfl⟩
  | @member _ _ hook _ library hook_name =>
      rcases library with rfl | rfl
      · exact ⟨hook, hook_name, .inr (.inl rfl)⟩
      · exact ⟨hook, hook_name, .inr (.inr rfl)⟩
  | paren h ih => exact ih

/-- A cause of the rule is the display name of a hook that is called. -/
theorem hookCallee_of_mem_causes {event : Event} {cause : String}
    (h : cause ∈ Rule.clientHook.causes event) :
    ∃ callee frames, event = .call callee frames ∧ HookCallee callee cause := by
  cases event with
  | call callee frames =>
      simp only [Rule.causes, Bool.and_eq_true, List.mem_ite_nil_right, List.mem_singleton] at h
      rcases h with ⟨⟨hook, -⟩, rfl⟩
      rcases hookCallee_of_isHookCallee hook with ⟨name, hook⟩
      rw [hook.calleeName?_eq]
      exact ⟨callee, frames, rfl, hook⟩
  | _ => simp [Rule.causes] at h

/-- In a finding of the rule, the causes are the display names of hooks that the program calls. -/
theorem hookCallee_of_mem_lintProgram {c : Config} {path source : String} {program : Program}
    {f : Finding} (found : f ∈ c.lintProgram path source program)
    (rule : f.rule = Rule.clientHook.name) {cause : String} (mem : cause ∈ f.causes) :
    ∃ above callee arguments,
      Occurs program.parts above (.call callee arguments) ∧ HookCallee callee cause := by
  rw [(causes_of_mem_lintProgram found rule).2, (clientHook_picks program).names.allCauses_eq,
    List.mem_eraseDups] at mem
  rcases List.mem_flatMap.1 mem with ⟨⟨above, n⟩, listed, picked⟩
  rcases hookCall?_eq_some_iff.1 (Option.mem_toList.1 picked) with ⟨callee, arguments, rfl, hook, -⟩
  exact ⟨above, callee, arguments, mem_occurrences_iff.1 listed, hook⟩

/-- Every hook has a display name, which is its own name or that behind the name of the library. So
the rule never falls back on an empty cause, and what it reports on a program are such names of
hooks that the program calls. -/
theorem hookCallee_named :
    (∀ callee, isHookCallee callee = true →
        ∃ name, calleeName? callee = some name ∧ IsHookText name) ∧
      (∀ event, ∀ cause ∈ Rule.clientHook.causes event,
        ∃ callee frames, event = .call callee frames ∧ calleeName? callee = some cause) ∧
      ∀ (c : Config) path source program, ∀ f ∈ c.lintProgram path source program,
        f.rule = Rule.clientHook.name → ∀ cause ∈ f.causes,
          cause ≠ "" ∧ IsHookText cause ∧
            ∃ above callee arguments, Occurs program.parts above (.call callee arguments) ∧
              isHookCallee callee = true ∧ calleeName? callee = some cause := by
  refine ⟨?_, ?_, ?_⟩
  · intro callee hook
    rcases hookCallee_of_isHookCallee hook with ⟨name, hook⟩
    exact ⟨name, hook.calleeName?_eq, hook.isHookText⟩
  · intro event cause mem
    rcases hookCallee_of_mem_causes mem with ⟨callee, frames, call, hook⟩
    exact ⟨callee, frames, call, hook.calleeName?_eq⟩
  · intro c path source program f found rule cause mem
    rcases hookCallee_of_mem_lintProgram found rule mem with
      ⟨above, callee, arguments, occurs, hook⟩
    exact ⟨hook.isHookText.ne_empty, hook.isHookText, above, callee, arguments, occurs,
      hook.isHookCallee, hook.calleeName?_eq⟩

/-- A hook in parentheses, and a finding of two hooks, one in the arguments of the other. -/
theorem hookCallee_named_nested :
    (isHookCallee wrappedHook = true ∧
        ∃ name, calleeName? wrappedHook = some name ∧ IsHookText name) ∧
      ∃ f ∈ (Config.recommended "/").lintProgram "/app/page.tsx" "" hookProgram,
        f.rule = Rule.clientHook.name ∧ f.causes = ["React.useMemo", "useId"] ∧
          ∀ cause ∈ f.causes, cause ≠ "" ∧ IsHookText cause := by
  have hook : isHookCallee wrappedHook = true := by decide
  have bare : Bare hookProgram := by decide
  have active : .clientHook ∈ (Config.recommended "/").activeRules "/app/page.tsx" := by
    rw [Config.activeRules_recommended]
    decide
  have causes : Rule.clientHook.allCauses hookProgram = ["React.useMemo", "useId"] := by
    decide +kernel
  have found : Rule.clientHook.report (.of "/app/page.tsx" "" hookProgram)
      (Rule.clientHook.allCauses hookProgram) ∈
        (Config.recommended "/").lintProgram "/app/page.tsx" "" hookProgram :=
    mem_lintProgram_iff.2 ⟨bare, _, active, by simp [causes], rfl⟩
  refine ⟨⟨hook, hookCallee_named.1 wrappedHook hook⟩, _, found, rfl, causes, ?_⟩
  intro cause mem
  have named := hookCallee_named.2.2 _ _ _ _ _ found rfl cause mem
  exact ⟨named.1, named.2.1⟩

end Rules
end ClientBoundary
