import ClientBoundary.Proofs.Rules.Collecting
import ClientBoundary.Proofs.Rules.Configuring

/-!
# Directives first, one finding for each rule

The strings that a program begins with decide whether anything is reported. If none of them is a
directive, the findings stand in the order of the rules, and all of them ask for the same line at
the same place.

- `InLeadingRun`: a string is among those that a program begins with;
- `StartsAt`: where the first directive or statement of a program begins;
- `IsReport`: what a finding of a rule says;
- `lintProgram_leadingRun`: what is reported, by the strings that a program begins with.
-/

namespace ClientBoundary
namespace Rules

open Script (Node Directive Item Program)

/-! ## The leading run -/

/-- An expression is a string, up to parentheses. -/
inductive IsString : Node → String → Prop where
  | string (value : String) : IsString (.string value) value
  | paren {inner : Node} {value : String} (h : IsString inner value) :
      IsString (.paren inner) value

/-- A statement is just a string. -/
inductive IsStringStatement : Node → String → Prop where
  | statement {e : Node} {value : String} (h : IsString e value) :
      IsStringStatement (.statement e) value

/-- A string is in the leading run of a program: it is one of the directives that the parser found,
or a statement of the body with nothing but strings before it. -/
inductive InLeadingRun (program : Program) : String → Prop where
  | directive {d : Directive} (mem : d ∈ program.directives) : InLeadingRun program d.value
  | statement {before after : List Node} {n : Node} {value : String}
      (parts : program.parts = before ++ n :: after)
      (strings : ∀ m ∈ before, ∃ v, IsStringStatement m v) (here : IsStringStatement n value) :
      InLeadingRun program value

/-- The leading run of a program has a directive. -/
def HasDirective (program : Program) : Prop :=
  InLeadingRun program "use client" ∨ InLeadingRun program "use server"

theorem isString_iff {e : Node} {value : String} :
    IsString e value ↔ e.withoutParens = .string value := by
  constructor
  · intro h
    induction h with
    | string value => rfl
    | paren h ih => simpa [Node.withoutParens] using ih
  · intro h
    have bare : IsString e.withoutParens value := by
      rw [h]
      exact .string value
    exact Node.of_withoutParens e (fun _ h => .paren h) bare

theorem statementString?_eq_some_iff {n : Node} {value : String} :
    statementString? n = some value ↔ IsStringStatement n value := by
  constructor
  · intro h
    unfold statementString? at h
    split at h
    · rename_i e
      split at h
      · rename_i found string
        have same : found = value := Option.some.inj h
        rw [same] at string
        exact .statement (isString_iff.2 string)
      · simp at h
    · simp at h
  · rintro ⟨string⟩
    simp [statementString?, isString_iff.1 string]

theorem mem_leadingStatements_iff {parts : List Node} {value : String} :
    value ∈ leadingStatements parts ↔
      ∃ before n after, parts = before ++ n :: after ∧
        (∀ m ∈ before, ∃ v, IsStringStatement m v) ∧ IsStringStatement n value := by
  induction parts with
  | nil => simp [leadingStatements]
  | cons first more ih =>
      constructor
      · intro h
        cases string : statementString? first with
        | none => simp [leadingStatements, string] at h
        | some v =>
            have head : IsStringStatement first v := statementString?_eq_some_iff.1 string
            have h : value = v ∨ value ∈ leadingStatements more := by
              simpa [leadingStatements, string] using h
            rcases h with rfl | later
            · exact ⟨[], first, more, rfl, by simp, head⟩
            · rcases ih.1 later with ⟨before, n, after, rfl, strings, here⟩
              refine ⟨first :: before, n, after, rfl, ?_, here⟩
              intro m mem
              rcases List.mem_cons.1 mem with rfl | mem
              · exact ⟨v, head⟩
              · exact strings m mem
      · rintro ⟨before, n, after, shape, strings, here⟩
        cases before with
        | nil =>
            rcases List.cons.inj shape with ⟨rfl, rfl⟩
            simp [leadingStatements, statementString?_eq_some_iff.2 here]
        | cons m before =>
            rcases List.cons.inj shape with ⟨rfl, rfl⟩
            rcases strings first List.mem_cons_self with ⟨v, head⟩
            have rest : ∀ m ∈ before, ∃ v, IsStringStatement m v :=
              fun m mem => strings m (List.mem_cons_of_mem _ mem)
            have later : value ∈ leadingStatements (before ++ n :: after) :=
              ih.2 ⟨before, n, after, rfl, rest, here⟩
            simp [leadingStatements, statementString?_eq_some_iff.2 head, later]

/-- What is scanned is the leading run. -/
theorem mem_leadingStrings_iff {program : Program} {value : String} :
    value ∈ leadingStrings program ↔ InLeadingRun program value := by
  rw [leadingStrings, List.mem_append, List.mem_map, mem_leadingStatements_iff]
  constructor
  · rintro (⟨d, mem, rfl⟩ | ⟨before, n, after, parts, strings, here⟩)
    · exact .directive mem
    · exact .statement parts strings here
  · intro h
    cases h with
    | directive mem => exact .inl ⟨_, mem, rfl⟩
    | statement parts strings here => exact .inr ⟨_, _, _, parts, strings, here⟩

theorem bare_iff_not_hasDirective {program : Program} : Bare program ↔ ¬ HasDirective program := by
  constructor
  · rintro bare (client | server)
    · exact (bare _ (mem_leadingStrings_iff.2 client)).1 rfl
    · exact (bare _ (mem_leadingStrings_iff.2 server)).2 rfl
  · intro none value mem
    have leading := mem_leadingStrings_iff.1 mem
    constructor
    · rintro rfl
      exact none (.inl leading)
    · rintro rfl
      exact none (.inr leading)

instance (program : Program) : Decidable (HasDirective program) :=
  decidable_of_iff (¬ Bare program) (by rw [bare_iff_not_hasDirective, not_not])

/-! ## The first node -/

/-- The first directive of a program, or its first statement if there is none, begins at an
offset. -/
inductive StartsAt (program : Program) : Nat → Prop where
  | directive {d : Directive} {more : List Directive} (first : program.directives = d :: more) :
      StartsAt program d.start
  | statement {item : Item} {more : List Item} (none : program.directives = [])
      (first : program.body = item :: more) : StartsAt program item.start

theorem StartsAt.eq_start {program : Program} {offset : Nat} (h : StartsAt program offset) :
    offset = program.start := by
  cases h with
  | directive first => rw [Program.start, first]
  | statement none first => rw [Program.start, none, first]

/-- A program without a node has no cause. -/
theorem startsAt_start {r : Rule} {program : Program} (h : r.allCauses program ≠ []) :
    StartsAt program program.start := by
  rcases program with ⟨directives, body⟩
  cases directives with
  | cons d more => exact .directive rfl
  | nil =>
      cases body with
      | cons item more => exact .statement rfl rfl
      | nil =>
          refine absurd ?_ h
          rw [Rule.allCauses_eq]
          rfl

/-! ## Reports -/

/-- A finding of a rule for a program: the rule is on for the file, and the finding has its causes,
each once, its message of them, the file, and the line that is missing where the program begins. -/
structure IsReport (c : Config) (path source : String) (program : Program) (r : Rule)
    (f : Finding) : Prop where
  rule : f.rule = r.name
  enabled : ∃ s, c.settings r = some s ∧ s.ignore.ignores (Path.relative c.root path) = false
  causes : f.causes ≠ []
  distinct : f.causes.Nodup
  message : f.message = r.message (", ".intercalate f.causes)
  file : f.file = path
  starts : StartsAt program program.start
  location : f.location = .ofOffset source program.start
  fix : f.fix = some ⟨program.start, "'use client'\n"⟩

theorem isReport_report {c : Config} {path source : String} {program : Program} {r : Rule}
    (active : r ∈ c.activeRules path) (some_ : r.allCauses program ≠ []) :
    IsReport c path source program r
      (r.report (.of path source program) (r.allCauses program)) where
  rule := rfl
  enabled := Config.isActive_iff.1 (Config.mem_activeRules_iff.1 active)
  causes := some_
  distinct := nodup_eraseDups _
  message := rfl
  file := rfl
  starts := startsAt_start some_
  location := rfl
  fix := rfl

theorem Rule.rule_of_outcome {r : Rule} {file : FileInfo} {program : Program} {f : Finding}
    (h : r.outcome file program = some f) : f.rule = r.name := by
  rcases outcome_eq_some_iff.1 h with ⟨-, -, rfl⟩
  rfl

/-- The findings stand in the order of the names of their rules, at most one for each. -/
theorem lintProgram_increasing (c : Config) (path source : String) (program : Program) :
    (c.lintProgram path source program).Pairwise fun f g => f.rule < g.rule := by
  rw [Config.lintProgram, runAll_eq]
  apply List.Pairwise.filterMap _ _ (c.activeRules_increasing path)
  intro r q less f hf g hg
  have first : f.rule = r.name := Rule.rule_of_outcome hf
  have second : g.rule = q.name := Rule.rule_of_outcome hg
  rw [first, second]
  exact less

/-- With a directive in the leading run nothing is reported. Without one, the findings are those of
the active rules that have a cause, in the order of their names, at most one for each rule, and all
of them ask for the line where the program begins. -/
theorem lintProgram_leadingRun (c : Config) (path source : String) (program : Program) :
    (HasDirective program → c.lintProgram path source program = []) ∧
      (¬ HasDirective program →
        ((c.lintProgram path source program).Pairwise fun f g => f.rule < g.rule) ∧
        (∀ f ∈ c.lintProgram path source program, ∃ r, IsReport c path source program r f) ∧
        ∀ r ∈ c.activeRules path, r.allCauses program ≠ [] →
          ∃ f ∈ c.lintProgram path source program, IsReport c path source program r f) := by
  constructor
  · intro directive
    have scanned : (scanDirectives program).any = true := by
      by_contra none
      have bare : Bare program := bare_iff.2 (by simpa using none)
      exact bare_iff_not_hasDirective.1 bare directive
    exact runAll_of_any scanned _ _
  · intro none
    have scanned := (bare_iff_not_hasDirective.2 none).scan
    refine ⟨lintProgram_increasing c path source program, ?_, ?_⟩
    · intro f mem
      rcases (mem_runAll_of_bare scanned).1 mem with ⟨r, active, some_, rfl⟩
      exact ⟨r, isReport_report active some_⟩
    · intro r active some_
      exact ⟨_, (mem_runAll_of_bare scanned).2 ⟨r, active, some_, rfl⟩,
        isReport_report active some_⟩

/-- `('use strict'); ('use server'); alert()` -/
def serverProgram : Program where
  directives := []
  body := [
    ⟨0, .statement (.paren (.string "use strict"))⟩,
    ⟨16, .statement (.paren (.string "use server"))⟩,
    ⟨32, .statement (.call (.reference "alert" .value) [])⟩]

/-- `'use strict'; <a onClick={alert()} />` -/
def strictProgram : Program where
  directives := [⟨"use strict", 0⟩]
  body := [
    ⟨14, .statement (.opening (some "a") [
      .prop "onClick" [.call (.reference "alert" .value) []]])⟩]

/-- A directive in parentheses counts, and other strings before it do not matter. -/
theorem lintProgram_leadingRun_server :
    (HasDirective serverProgram ∧
      (Config.recommended "/").lintProgram "/app/page.tsx" "" serverProgram = []) ∧
    ¬ HasDirective strictProgram ∧
      ∃ f ∈ (Config.recommended "/").lintProgram "/app/page.tsx" "" strictProgram,
        IsReport (.recommended "/") "/app/page.tsx" "" strictProgram .eventHandler f := by
  have server : HasDirective serverProgram := by decide
  have strict : ¬ HasDirective strictProgram := by decide
  have silent := (lintProgram_leadingRun (.recommended "/") "/app/page.tsx" "" serverProgram).1
  have found := (lintProgram_leadingRun (.recommended "/") "/app/page.tsx" "" strictProgram).2
  have active : .eventHandler ∈ (Config.recommended "/").activeRules "/app/page.tsx" := by
    rw [Config.activeRules_recommended]
    decide
  have causes : Rule.eventHandler.allCauses strictProgram ≠ [] := by decide +kernel
  exact ⟨⟨server, silent server⟩, strict, (found strict).2.2 .eventHandler active causes⟩

end Rules
end ClientBoundary
