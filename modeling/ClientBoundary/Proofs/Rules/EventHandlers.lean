import ClientBoundary.Proofs.Rules.Collecting
import Mathlib.Data.List.Flatten

/-!
# Which event handlers are reported

The rule follows the walk and looks at opening tags alone. What it reports can be said of the tree.

- `NativeTag`, `HandlerName`: a tag of the host, and an attribute that takes a handler;
- `handlersOf`: the handlers on a native element, in source order;
- `InElement`: what stands in the element that an opening tag begins;
- `eventHandler_reports_iff`: the findings of the rule, by the handlers on native elements.
-/

namespace ClientBoundary
namespace Rules

open Script (Node Program Step Occurrence Occurs occurrences mem_occurrences_iff)

/-! ## Shapes of names -/

/-- A tag begins with a small letter of ASCII. -/
def NativeTag (tag : String) : Prop :=
  ∃ c rest, tag.toList = c :: rest ∧ 'a' ≤ c ∧ c ≤ 'z'

/-- The name of an attribute is `on`, a capital letter of ASCII and anything behind it. -/
def HandlerName (name : String) : Prop :=
  ∃ c rest, name.toList = 'o' :: 'n' :: c :: rest ∧ 'A' ≤ c ∧ c ≤ 'Z'

theorem nativeTag_iff {tag : String} : NativeTag tag ↔ isNativeTag tag = true := by
  constructor
  · rintro ⟨c, rest, shape, low, high⟩
    simp [isNativeTag, shape, isSmall, low, high]
  · intro native
    unfold isNativeTag at native
    split at native
    · rename_i c rest shape
      have letter : 'a' ≤ c ∧ c ≤ 'z' := by simpa [isSmall] using native
      exact ⟨c, rest, shape, letter⟩
    · simp at native

theorem handlerName_iff {name : String} : HandlerName name ↔ isEventHandlerName name = true := by
  constructor
  · rintro ⟨c, rest, shape, low, high⟩
    simp [isEventHandlerName, shape, isCapital, low, high]
  · intro handler
    unfold isEventHandlerName at handler
    split at handler
    · rename_i c rest shape
      have letter : 'A' ≤ c ∧ c ≤ 'Z' := by simpa [isCapital] using handler
      exact ⟨c, rest, shape, letter⟩
    · simp at handler

instance : DecidablePred NativeTag :=
  fun _ => decidable_of_iff _ nativeTag_iff.symm

instance : DecidablePred HandlerName :=
  fun _ => decidable_of_iff _ handlerName_iff.symm

/-! ## Handlers -/

/-- The handlers that an opening tag of a native element sets, in source order. -/
def handlersOf (o : Occurrence) : List String :=
  match o.node with
  | .opening (some tag) parts =>
      if NativeTag tag then (Node.propNames parts).filter fun name => HandlerName name else []
  | _ => []

theorem mem_propNames_iff {parts : List Node} {name : String} :
    name ∈ Node.propNames parts ↔ ∃ value, Node.prop name value ∈ parts := by
  rw [Node.propNames, List.mem_filterMap]
  constructor
  · rintro ⟨n, mem, named⟩
    cases n with
    | prop other value =>
        have same : other = name := by simpa using named
        rw [same] at mem
        exact ⟨value, mem⟩
    | _ => simp at named
  · rintro ⟨value, mem⟩
    exact ⟨.prop name value, mem, rfl⟩

/-- The handlers are the plain attributes with the name of one. -/
theorem mem_handlersOf_iff {o : Occurrence} {name : String} :
    name ∈ handlersOf o ↔
      ∃ tag parts value, o.node = .opening (some tag) parts ∧ NativeTag tag ∧
        Node.prop name value ∈ parts ∧ HandlerName name := by
  rcases o with ⟨above, n⟩
  cases n with
  | opening tag parts =>
      cases tag with
      | none => simp [handlersOf]
      | some tag =>
          by_cases native : NativeTag tag
          · simp [handlersOf, native, mem_propNames_iff]
          · simp [handlersOf, native]
  | _ => simp [handlersOf]

/-- The rule names the handlers on native elements. -/
theorem eventHandler_names (program : Program) : Rule.eventHandler.Names program handlersOf := by
  rintro ⟨above, n⟩
  cases n with
  | opening tag parts =>
      cases tag with
      | none => simp [eventAt?, ownEvent?, Rule.causes, handlersOf]
      | some tag =>
          have names : (fun name => decide (HandlerName name)) = isEventHandlerName := by
            funext name
            rw [Bool.eq_iff_iff, decide_eq_true_iff, handlerName_iff]
          simp [eventAt?, ownEvent?, Rule.causes, handlersOf, nativeTag_iff, names]
  | reference name use => simp [eventAt?, ownEvent?, Rule.causes, handlersOf]
  | call callee arguments => simp [eventAt?, ownEvent?, Rule.causes, handlersOf]
  | _ => simp [eventAt?, ownEvent?, handlersOf]

/-! ## Elements in elements -/

/-- An occurrence stands in the element that an opening tag begins: inside the tag, as in the value
of an attribute, or in a child, which the element has behind its tag. -/
inductive InElement (tag : Occurrence) : Occurrence → Prop where
  | inTag {inner : List Step} {n : Node} (inside : Occurs [tag.node] inner n)
      (below : inner ≠ []) : InElement tag ⟨inner ++ tag.above, n⟩
  | inChild {up inner : List Step} {others : List Node} {child n : Node}
      (element : tag.above = ⟨.group (tag.node :: others), .part⟩ :: up) (mem : child ∈ others)
      (inside : Occurs [child] inner n) : InElement tag ⟨inner ++ tag.above, n⟩

/-- An opening tag comes before everything else in its element. -/
theorem InElement.sublist {parts : List Node} {tag o : Occurrence} (h : InElement tag o)
    (occurs : Occurs parts tag.above tag.node) : List.Sublist [tag, o] (occurrences parts) := by
  rcases tag with ⟨above, n⟩
  cases h with
  | inTag inside below => exact Script.sublist_of_inside occurs inside below
  | inChild element mem inside =>
      -- the tag is a part of the element, so the element occurs above it
      dsimp only at element
      subst element
      cases occurs with
      | child up _ => exact Script.sublist_of_beside up mem inside

/-- On a program without a directive the rule reports if and only if a native element has an event
handler, at any depth. Its causes are the handlers of all native elements, each once, in the order
of the opening tags; those of an element come before those of the elements in it. -/
theorem eventHandler_reports_iff (c : Config) (path source : String) (program : Program)
    (bare : Bare program) (active : .eventHandler ∈ c.activeRules path) :
    ((∃ f ∈ c.lintProgram path source program, f.rule = Rule.eventHandler.name) ↔
        ∃ above tag parts name value, Occurs program.parts above (.opening (some tag) parts) ∧
          NativeTag tag ∧ Node.prop name value ∈ parts ∧ HandlerName name) ∧
      (∀ f ∈ c.lintProgram path source program, f.rule = Rule.eventHandler.name →
        f.causes = ((occurrences program.parts).flatMap handlersOf).eraseDups) ∧
      ∀ tag o, Occurs program.parts tag.above tag.node → InElement tag o →
        List.Sublist (handlersOf tag ++ handlersOf o)
          ((occurrences program.parts).flatMap handlersOf) := by
  have found : (∃ o ∈ occurrences program.parts, ∃ name, name ∈ handlersOf o) ↔
      ∃ above tag parts name value, Occurs program.parts above (.opening (some tag) parts) ∧
        NativeTag tag ∧ Node.prop name value ∈ parts ∧ HandlerName name := by
    constructor
    · rintro ⟨⟨above, n⟩, mem, name, named⟩
      rcases mem_handlersOf_iff.1 named with ⟨tag, parts, value, rfl, native, plain, handler⟩
      exact ⟨above, tag, parts, name, value, mem_occurrences_iff.1 mem, native, plain, handler⟩
    · rintro ⟨above, tag, parts, name, value, occurs, native, plain, handler⟩
      have named : name ∈ handlersOf ⟨above, .opening (some tag) parts⟩ :=
        mem_handlersOf_iff.2 ⟨tag, parts, value, rfl, native, plain, handler⟩
      exact ⟨_, mem_occurrences_iff.2 occurs, name, named⟩
  have reports := @lintProgram_of_names c path source program .eventHandler handlersOf bare active
    (eventHandler_names program)
  rw [found] at reports
  refine ⟨reports.1, reports.2, ?_⟩
  intro tag o occurs inside
  have order := (inside.sublist occurs).flatMap handlersOf
  simpa using order

/-- `<ul header={<li onClick={f} />} onScroll={g} />` -/
def listProgram : Program where
  directives := []
  body := [
    ⟨0, .statement (.opening (some "ul") [
      .prop "header" [.opening (some "li") [.prop "onClick" [.reference "f" .value]]],
      .prop "onScroll" [.reference "g" .value]])⟩]

/-- The handler of the outer element comes first, though it is written behind the inner one. -/
theorem eventHandler_reports_nested :
    Bare listProgram ∧ .eventHandler ∈ (Config.recommended "/").activeRules "/app/page.tsx" ∧
      ∃ f ∈ (Config.recommended "/").lintProgram "/app/page.tsx" "" listProgram,
        f.rule = Rule.eventHandler.name ∧ f.causes = ["onScroll", "onClick"] := by
  have bare : Bare listProgram := by decide
  have active : .eventHandler ∈ (Config.recommended "/").activeRules "/app/page.tsx" := by
    rw [Config.activeRules_recommended]
    decide
  have reports := eventHandler_reports_iff (Config.recommended "/") "/app/page.tsx" "" listProgram
    bare active
  let inner := Node.opening (some "li") [.prop "onClick" [.reference "f" .value]]
  let scroll := Node.prop "onScroll" [.reference "g" .value]
  have occurs : Occurs listProgram.parts
      [⟨.statement (.opening (some "ul") [.prop "header" [inner], scroll]), .wholeStatement⟩]
      (.opening (some "ul") [.prop "header" [inner], scroll]) := by
    refine .child (.top ?_) ?_
    · exact List.mem_singleton.2 rfl
    · exact List.mem_singleton.2 rfl
  have native : NativeTag "ul" := by decide
  have handler : HandlerName "onScroll" := by decide
  have plain : scroll ∈ [.prop "header" [inner], scroll] := by simp
  rcases reports.1.2 ⟨_, "ul", _, "onScroll", _, occurs, native, plain, handler⟩ with
    ⟨f, mem, name⟩
  have causes := reports.2.1 f mem name
  have order : ((occurrences listProgram.parts).flatMap handlersOf).eraseDups =
      ["onScroll", "onClick"] := by
    decide +kernel
  exact ⟨bare, active, f, mem, name, causes.trans order⟩

end Rules
end ClientBoundary
