import ClientBoundary.Proofs.Rules.Collecting

/-!
# Which calls of hooks are reported

The rule follows the walk, with the frames around a call handed down from node to node. What it
reports can be said of the tree alone.

- `ComponentName`, `HookName`: a name of a component, and one of a hook;
- `HookCallee e name`: the expression is a hook, written out as `name`;
- `DefinesComponent`: a function declaration or a declared arrow function with the name of a
  component;
- `clientHook_reports_iff`: the findings of the rule, by the calls of hooks inside components.
-/

namespace ClientBoundary
namespace Rules

open Script (Node Use Program Step Occurrence Occurs occurrences mem_occurrences_iff)

/-! ## Shapes of names -/

/-- A name is a capital letter of ASCII, and behind it there are letters and digits of ASCII
alone. -/
def ComponentName (name : String) : Prop :=
  ∃ c rest, name.toList = c :: rest ∧ ('A' ≤ c ∧ c ≤ 'Z') ∧
    ∀ d ∈ rest, ('A' ≤ d ∧ d ≤ 'Z') ∨ ('a' ≤ d ∧ d ≤ 'z') ∨ ('0' ≤ d ∧ d ≤ '9')

/-- A name is `use`, or `use` with a capital letter or a digit of ASCII and anything behind it. -/
def HookName (name : String) : Prop :=
  name = "use" ∨ ∃ c rest, name.toList = 'u' :: 's' :: 'e' :: c :: rest ∧
    (('A' ≤ c ∧ c ≤ 'Z') ∨ ('0' ≤ c ∧ c ≤ '9'))

theorem componentName_iff {name : String} : ComponentName name ↔ isComponentName name = true := by
  constructor
  · rintro ⟨c, rest, shape, capital, tail⟩
    simpa [isComponentName, shape, isCapital, isSmall, isDigit, capital, or_assoc] using tail
  · intro component
    unfold isComponentName at component
    split at component
    · rename_i c rest shape
      have letters : ('A' ≤ c ∧ c ≤ 'Z') ∧ ∀ d ∈ rest,
          ('A' ≤ d ∧ d ≤ 'Z') ∨ ('a' ≤ d ∧ d ≤ 'z') ∨ ('0' ≤ d ∧ d ≤ '9') := by
        simpa [isCapital, isSmall, isDigit, or_assoc] using component
      exact ⟨c, rest, shape, letters⟩
    · simp at component

theorem hookName_iff {name : String} : HookName name ↔ isHookName name = true := by
  constructor
  · rintro (rfl | ⟨c, rest, shape, first⟩)
    · decide
    · simpa [isHookName, shape, isCapital, isDigit] using first
  · intro hook
    unfold isHookName at hook
    split at hook
    · rename_i shape
      exact .inl (String.toList_inj.1 shape)
    · rename_i c rest shape
      have first : ('A' ≤ c ∧ c ≤ 'Z') ∨ ('0' ≤ c ∧ c ≤ '9') := by
        simpa [isCapital, isDigit] using hook
      exact .inr ⟨c, rest, shape, first⟩
    · simp at hook

instance : DecidablePred ComponentName :=
  fun _ => decidable_of_iff _ componentName_iff.symm

instance : DecidablePred HookName :=
  fun _ => decidable_of_iff _ hookName_iff.symm

/-! ## Hooks -/

/-- An expression is a name, up to parentheses. -/
inductive IsName : Node → String → Prop where
  | reference (name : String) (use : Use) : IsName (.reference name use) name
  | paren {inner : Node} {name : String} (h : IsName inner name) : IsName (.paren inner) name

/-- An expression is a hook, up to parentheses: the name of one, or a hook taken from the
library's namespace. The text is how it is displayed. -/
inductive HookCallee : Node → String → Prop where
  | plain {name : String} {use : Use} (hook : HookName name) :
      HookCallee (.reference name use) name
  | member {object : Node} {space hook : String} (object_name : IsName object space)
      (library : space = "React" ∨ space = "react") (hook_name : HookName hook) :
      HookCallee (.member object hook) (space ++ "." ++ hook)
  | paren {inner : Node} {name : String} (h : HookCallee inner name) :
      HookCallee (.paren inner) name

theorem IsName.withoutParens {e : Node} {name : String} (h : IsName e name) :
    ∃ use, e.withoutParens = .reference name use := by
  induction h with
  | reference name use => exact ⟨use, rfl⟩
  | paren h ih => simpa [Node.withoutParens] using ih

theorem IsName.calleeName?_eq {e : Node} {name : String} (h : IsName e name) :
    calleeName? e = some name := by
  induction h with
  | reference name use => rfl
  | paren h ih => simpa [calleeName?] using ih

theorem isName_of_withoutParens {e : Node} {name : String} {use : Use}
    (h : e.withoutParens = .reference name use) : IsName e name := by
  have bare : IsName e.withoutParens name := by
    rw [h]
    exact .reference name use
  exact Node.of_withoutParens e (fun _ h => .paren h) bare

/-- A hook has its display name. -/
theorem HookCallee.calleeName?_eq {e : Node} {name : String} (h : HookCallee e name) :
    calleeName? e = some name := by
  induction h with
  | plain hook => rfl
  | member object_name library hook_name => simp [calleeName?, object_name.calleeName?_eq]
  | paren h ih => simpa [calleeName?] using ih

theorem HookCallee.isHookCallee {e : Node} {name : String} (h : HookCallee e name) :
    isHookCallee e = true := by
  induction h with
  | plain hook => simpa [Rules.isHookCallee, Node.withoutParens] using hookName_iff.1 hook
  | member object_name library hook_name =>
      rcases object_name.withoutParens with ⟨use, object_eq⟩
      have shape := hookName_iff.1 hook_name
      rcases library with rfl | rfl
      · simp [Rules.isHookCallee, Node.withoutParens, object_eq, isReactNamespace, shape]
      · simp [Rules.isHookCallee, Node.withoutParens, object_eq, isReactNamespace, shape]
  | paren h ih => simpa [Rules.isHookCallee, Node.withoutParens] using ih

theorem hookCallee_of_isHookCallee {e : Node} (h : isHookCallee e = true) :
    ∃ name, HookCallee e name := by
  -- the rule takes the parentheses off before it looks
  have bare : ∃ name, HookCallee e.withoutParens name := by
    unfold isHookCallee at h
    split at h
    · rename_i name use shape
      rw [shape]
      exact ⟨name, .plain (hookName_iff.2 h)⟩
    · rename_i object property shape
      rw [shape]
      split at h
      · rename_i space use object_eq
        simp only [Bool.and_eq_true, isReactNamespace, Bool.or_eq_true, decide_eq_true_eq] at h
        exact ⟨_, .member (isName_of_withoutParens object_eq) h.1 (hookName_iff.2 h.2)⟩
      · simp at h
    · simp at h
  refine Node.of_withoutParens e ?_ bare
  rintro inner ⟨name, hook⟩
  exact ⟨name, .paren hook⟩

theorem hookCallee_iff {e : Node} {name : String} :
    HookCallee e name ↔ isHookCallee e = true ∧ calleeName? e = some name := by
  constructor
  · intro h
    exact ⟨h.isHookCallee, h.calleeName?_eq⟩
  · rintro ⟨hook, name_eq⟩
    rcases hookCallee_of_isHookCallee hook with ⟨other, h⟩
    rcases Option.some.inj (name_eq.symm.trans h.calleeName?_eq) with rfl
    exact h

theorem isHookCallee_iff {e : Node} : isHookCallee e = true ↔ ∃ name, HookCallee e name :=
  ⟨hookCallee_of_isHookCallee, fun ⟨_, hook⟩ => hook.isHookCallee⟩

/-! ## Components -/

/-- An expression is an arrow function, up to parentheses. -/
inductive IsArrow : Node → Prop where
  | arrow (parts : List Node) : IsArrow (.arrow parts)
  | paren {inner : Node} (h : IsArrow inner) : IsArrow (.paren inner)

theorem isArrow_iff {e : Node} : IsArrow e ↔ e.isArrow = true := by
  constructor
  · intro h
    induction h with
    | arrow parts => rfl
    | paren h ih => simpa [Node.isArrow, Node.withoutParens] using ih
  · intro h
    unfold Node.isArrow at h
    split at h
    · rename_i parts arrow
      have bare : IsArrow e.withoutParens := by
        rw [arrow]
        exact .arrow parts
      exact Node.of_withoutParens e (fun _ h => .paren h) bare
    · simp at h

/-- A node defines a component: it declares a function, or a variable with an arrow function, of a
component's name. -/
inductive DefinesComponent : Node → Prop where
  | function {name : String} {parts : List Node} (component : ComponentName name) :
      DefinesComponent (.function (some name) true parts)
  | declarator {name : String} {target : List Node} {init : Node}
      (component : ComponentName name) (arrow : IsArrow init) :
      DefinesComponent (.declarator (some name) target (some init))

theorem definesComponent_iff {n : Node} :
    DefinesComponent n ↔ ((frame? n).bind Frame.component?).isSome = true := by
  constructor
  · intro h
    cases h with
    | function component => simp [frame?, Frame.component?, componentName_iff.1 component]
    | declarator component arrow =>
        simp [frame?, declaratorFrame, isArrow_iff.1 arrow, Frame.component?,
          componentName_iff.1 component]
  · intro h
    cases n with
    | function name isDeclaration parts =>
        cases name with
        | none => simp [frame?, Frame.component?] at h
        | some name =>
            cases isDeclaration with
            | false => simp [frame?, Frame.component?] at h
            | true =>
                exact .function (componentName_iff.2 (by simpa [frame?, Frame.component?] using h))
    | declarator name target init =>
        cases name with
        | none => simp [frame?, declaratorFrame, Frame.component?] at h
        | some name =>
            cases init with
            | none => simp [frame?, declaratorFrame, Frame.component?] at h
            | some init =>
                cases arrow : init.isArrow with
                | false => simp [frame?, declaratorFrame, arrow, Frame.component?] at h
                | true =>
                    refine .declarator (componentName_iff.2 ?_) (isArrow_iff.2 arrow)
                    simpa [frame?, declaratorFrame, arrow, Frame.component?] using h
    | _ => simp [frame?] at h

instance : DecidablePred DefinesComponent :=
  fun _ => decidable_of_iff _ definesComponent_iff.symm

/-- A call is inside a component if and only if a node above it defines one. -/
theorem enclosingComponent?_isSome_iff {above : List Step} :
    (enclosingComponent? (framesAround above)).isSome = true ↔
      ∃ s ∈ above, DefinesComponent s.node := by
  -- the rule looks from the innermost frame outwards, and any of them will do
  have frames : (enclosingComponent? (framesAround above)).isSome = true ↔
      ∃ f ∈ above.filterMap fun s => frame? s.node, f.component?.isSome = true := by
    rw [enclosingComponent?, framesAround, ← List.filterMap_reverse, List.reverse_reverse,
      List.findSome?_isSome_iff]
  rw [frames]
  constructor
  · rintro ⟨f, mem, component⟩
    rcases List.mem_filterMap.1 mem with ⟨s, hs, frame⟩
    exact ⟨s, hs, definesComponent_iff.2 (by simpa [frame] using component)⟩
  · rintro ⟨s, hs, defines⟩
    have component := definesComponent_iff.1 defines
    cases frame : frame? s.node with
    | none => simp [frame] at component
    | some f =>
        exact ⟨f, List.mem_filterMap.2 ⟨s, hs, frame⟩, by simpa [frame] using component⟩

/-! ## Calls -/

/-- The hook that an occurrence calls inside a component. -/
def hookCall? (o : Occurrence) : Option String :=
  match o.node with
  | .call callee _ =>
      if isHookCallee callee = true ∧ ∃ s ∈ o.above, DefinesComponent s.node then
        calleeName? callee
      else
        none
  | _ => none

/-- What is picked are the calls of hooks below a node that defines a component. -/
theorem hookCall?_eq_some_iff {o : Occurrence} {name : String} :
    hookCall? o = some name ↔
      ∃ callee arguments, o.node = .call callee arguments ∧ HookCallee callee name ∧
        ∃ s ∈ o.above, DefinesComponent s.node := by
  rcases o with ⟨above, n⟩
  cases n with
  | call callee arguments =>
      simp only [hookCall?, Option.ite_none_right_eq_some, Node.call.injEq, hookCallee_iff]
      constructor
      · rintro ⟨⟨hook, inside⟩, name_eq⟩
        exact ⟨callee, arguments, ⟨rfl, rfl⟩, ⟨hook, name_eq⟩, inside⟩
      · rintro ⟨_, _, ⟨rfl, rfl⟩, ⟨hook, name_eq⟩, inside⟩
        exact ⟨⟨hook, inside⟩, name_eq⟩
  | _ => simp [hookCall?]

/-- The rule looks for calls of hooks inside components. -/
theorem clientHook_picks (program : Program) : Rule.clientHook.Picks program hookCall? := by
  rintro ⟨above, n⟩
  cases n with
  | call callee arguments =>
      by_cases h : isHookCallee callee = true ∧ ∃ s ∈ above, DefinesComponent s.node
      · rcases hookCallee_of_isHookCallee h.1 with ⟨name, hook⟩
        have inside := enclosingComponent?_isSome_iff.2 h.2
        simp [eventAt?, ownEvent?, placeOf, Rule.causes, hook.isHookCallee, inside,
          hook.calleeName?_eq, hookCall?, h.2]
      · have silent : (isHookCallee callee &&
            (enclosingComponent? (framesAround above)).isSome) = false := by
          rw [Bool.eq_false_iff]
          intro all
          rw [Bool.and_eq_true] at all
          exact h ⟨all.1, enclosingComponent?_isSome_iff.1 all.2⟩
        simp [eventAt?, ownEvent?, placeOf, Rule.causes, silent, hookCall?, h]
  | reference name use => simp [eventAt?, ownEvent?, Rule.causes, hookCall?]
  | opening tag parts => simp [eventAt?, ownEvent?, Rule.causes, hookCall?]
  | _ => simp [eventAt?, ownEvent?, hookCall?]

/-- On a program without a directive the rule reports if and only if a hook is called inside a
component, at any depth, and its causes are the hooks that are so called, each once, in the order
of the tree. -/
theorem clientHook_reports_iff (c : Config) (path source : String) (program : Program)
    (bare : Bare program) (active : .clientHook ∈ c.activeRules path) :
    ((∃ f ∈ c.lintProgram path source program, f.rule = Rule.clientHook.name) ↔
        ∃ above callee arguments name,
          Occurs program.parts above (.call callee arguments) ∧ HookCallee callee name ∧
            ∃ s ∈ above, DefinesComponent s.node) ∧
      ∀ f ∈ c.lintProgram path source program, f.rule = Rule.clientHook.name →
        f.causes = ((occurrences program.parts).filterMap hookCall?).eraseDups := by
  have found : (∃ o ∈ occurrences program.parts, (hookCall? o).isSome) ↔
      ∃ above callee arguments name,
        Occurs program.parts above (.call callee arguments) ∧ HookCallee callee name ∧
          ∃ s ∈ above, DefinesComponent s.node := by
    constructor
    · rintro ⟨⟨above, n⟩, mem, some⟩
      rcases Option.isSome_iff_exists.1 some with ⟨name, some⟩
      rcases hookCall?_eq_some_iff.1 some with ⟨callee, arguments, rfl, hook, inside⟩
      exact ⟨above, callee, arguments, name, mem_occurrences_iff.1 mem, hook, inside⟩
    · rintro ⟨above, callee, arguments, name, occurs, hook, inside⟩
      refine ⟨⟨above, .call callee arguments⟩, mem_occurrences_iff.2 occurs, ?_⟩
      have picked : hookCall? ⟨above, .call callee arguments⟩ = some name :=
        hookCall?_eq_some_iff.2 ⟨callee, arguments, rfl, hook, inside⟩
      exact Option.isSome_iff_exists.2 ⟨name, picked⟩
  rw [← found]
  exact lintProgram_of_picks bare active (clientHook_picks program)

/-- A component that calls a hook in the arguments of another one. -/
def hookProgram : Program where
  directives := []
  body := [
    ⟨0, .declarator (some "Page") [.binding ⟨"Page", .value, false⟩] (some (.paren (.arrow
      [.call (.member (.reference "React" .value) "useMemo")
        [.call (.reference "useId" .value) []]])))⟩]

theorem clientHook_reports_nested :
    Bare hookProgram ∧ .clientHook ∈ (Config.recommended "/").activeRules "/app/page.tsx" ∧
      ∃ f ∈ (Config.recommended "/").lintProgram "/app/page.tsx" "" hookProgram,
        f.rule = Rule.clientHook.name := by
  have bare : Bare hookProgram := by decide
  have active : .clientHook ∈ (Config.recommended "/").activeRules "/app/page.tsx" := by
    rw [Config.activeRules_recommended]
    decide
  let inner := Node.call (.reference "useId" .value) []
  let outer := Node.call (.member (.reference "React" .value) "useMemo") [inner]
  let page := Node.declarator (some "Page") [.binding ⟨"Page", .value, false⟩]
    (some (.paren (.arrow [outer])))
  let above : List Step :=
    [⟨outer, .part⟩, ⟨.arrow [outer], .part⟩, ⟨.paren (.arrow [outer]), .parenthesized⟩,
      ⟨page, .initializer⟩]
  have occurs : Occurs hookProgram.parts above inner := by
    refine .child (.child (.child (.child (.top ?_) ?_) ?_) ?_) ?_
    · exact List.mem_singleton.2 rfl
    · exact List.mem_cons_of_mem _ List.mem_cons_self
    · exact List.mem_singleton.2 rfl
    · exact List.mem_singleton.2 rfl
    · exact List.mem_cons_of_mem _ List.mem_cons_self
  have component : DefinesComponent page := .declarator (by decide) (.paren (.arrow _))
  have hook : HookCallee (.reference "useId" .value) "useId" := .plain (by decide)
  exact ⟨bare, active, (clientHook_reports_iff (Config.recommended "/") "/app/page.tsx" ""
    hookProgram bare active).1.2 ⟨above, _, [], "useId", occurs, hook, ⟨page, .initializer⟩,
      by simp [above], component⟩⟩

end Rules
end ClientBoundary
