import ClientBoundary.Proofs.Rules.Collecting
import ClientBoundary.Proofs.Script.Declaring

/-!
# Which reads of browser globals are reported

The rule follows the walk, with a position handed down from node to node. What it reports can be
said of the tree alone.

- `Unresolved`: no scope around a name declares it for its use;
- `IsBrowserRead`: a name of a browser global that no scope declares, in one of four slots;
- `browserApi_reports_iff`: the findings of the rule, by these occurrences.
-/

namespace ClientBoundary
namespace Rules

open Script (Node Binding Use Program Slot Step Occurrence Occurs occurrences Declares
  mem_declared_iff mem_occurrences_iff)

/-! ## Names without a declaration -/

/-- No scope around a place declares a name for a use; `top` is the top level. -/
def Unresolved (top : List Node) (above : List Step) (name : String) (use : Use) : Prop :=
  ∀ parts ∈ scopesAround top above, ∀ b, Declares parts b → b.name = name →
    b.meaning.serves use = false

theorem unresolved_iff {top : List Node} {above : List Step} {name : String} {use : Use} :
    Unresolved top above name use ↔ isGlobal (placeOf top above).scopes name use = true := by
  have scope (parts : List Node) :
      (∀ b, Declares parts b → b.name = name → b.meaning.serves use = false) ↔
        (!(Node.declared parts).any fun b => b.name = name && b.meaning.serves use) = true := by
    rw [Bool.not_eq_true', List.any_eq_false]
    constructor
    · intro h b mem
      have := h b (mem_declared_iff.1 mem)
      simpa using this
    · intro h b declares name_eq
      have := h b (mem_declared_iff.2 declares)
      simpa [name_eq] using this
  simp only [Unresolved, scope, placeOf, isGlobal, List.all_map, List.all_eq_true]
  rfl

instance (top : List Node) (above : List Step) (name : String) (use : Use) :
    Decidable (Unresolved top above name use) :=
  decidable_of_iff _ unresolved_iff.symm

/-! ## Reads -/

/-- The slots in which a name is read. -/
def readSlots : List Slot :=
  [.object, .callee, .wholeStatement, .initializer]

/-- A reference to a browser global is read: the name is registered, no scope around declares it,
and up to parentheses it stands in a slot where names are read. -/
structure IsBrowserRead (top : List Node) (above : List Step) (name : String) (use : Use) :
    Prop where
  registered : name ∈ browserGlobals
  unresolved : Unresolved top above name use
  read : ∃ slot ∈ readSlots, outerSlot? above = some slot

theorem isBrowserRead_iff {top : List Node} {above : List Step} {name : String} {use : Use} :
    IsBrowserRead top above name use ↔
      name ∈ browserGlobals ∧ Unresolved top above name use ∧
        ∃ slot ∈ readSlots, outerSlot? above = some slot :=
  ⟨fun h => ⟨h.registered, h.unresolved, h.read⟩, fun h => ⟨h.1, h.2.1, h.2.2⟩⟩

instance (top : List Node) (above : List Step) (name : String) (use : Use) :
    Decidable (IsBrowserRead top above name use) :=
  decidable_of_iff _ isBrowserRead_iff.symm

/-- The browser global that an occurrence reads. -/
def browserRead? (top : List Node) (o : Occurrence) : Option String :=
  match o.node with
  | .reference name use => if IsBrowserRead top o.above name use then some name else none
  | _ => none

theorem positionOf_isSome_iff {above : List Step} :
    (positionOf above).isSome = true ↔ ∃ slot ∈ readSlots, outerSlot? above = some slot := by
  cases h : outerSlot? above with
  | none => simp [positionOf, h]
  | some slot => cases slot <;> simp [positionOf, h, readIn?, readSlots]

/-- The rule looks for reads of browser globals. -/
theorem browserApi_picks (program : Program) :
    Rule.browserApi.Picks program (browserRead? program.parts) := by
  rintro ⟨above, n⟩
  cases n with
  | reference name use =>
      by_cases h : IsBrowserRead program.parts above name use
      · have read : (positionOf above).isSome = true := positionOf_isSome_iff.2 h.read
        have here := unresolved_iff.1 h.unresolved
        simp [eventAt?, ownEvent?, Rule.causes, isBrowserGlobal, h.registered, read, here,
          browserRead?, h]
      · -- the three conditions of the rule are those of a read
        have silent : (isBrowserGlobal name && (positionOf above).isSome &&
            isGlobal (placeOf program.parts above).scopes name use) = false := by
          rw [Bool.eq_false_iff]
          intro all
          simp only [Bool.and_eq_true] at all
          rcases all with ⟨⟨registered, read⟩, here⟩
          refine h ⟨?_, unresolved_iff.2 here, positionOf_isSome_iff.1 read⟩
          simpa [isBrowserGlobal] using registered
        simp [eventAt?, ownEvent?, Rule.causes, silent, browserRead?, h]
  | call callee arguments => simp [eventAt?, ownEvent?, Rule.causes, browserRead?]
  | opening tag parts => simp [eventAt?, ownEvent?, Rule.causes, browserRead?]
  | _ => simp [eventAt?, ownEvent?, browserRead?]

/-- On a program without a directive the rule reports if and only if a browser global is read in
it, and its causes are the globals that are read, each once, in the order of the tree. -/
theorem browserApi_reports_iff (c : Config) (path source : String) (program : Program)
    (bare : Bare program) (active : .browserApi ∈ c.activeRules path) :
    ((∃ f ∈ c.lintProgram path source program, f.rule = Rule.browserApi.name) ↔
        ∃ above name use, Occurs program.parts above (.reference name use) ∧
          IsBrowserRead program.parts above name use) ∧
      ∀ f ∈ c.lintProgram path source program, f.rule = Rule.browserApi.name →
        f.causes = ((occurrences program.parts).filterMap
          (browserRead? program.parts)).eraseDups := by
  have found : (∃ o ∈ occurrences program.parts, (browserRead? program.parts o).isSome) ↔
      ∃ above name use, Occurs program.parts above (.reference name use) ∧
        IsBrowserRead program.parts above name use := by
    constructor
    · rintro ⟨⟨above, n⟩, mem, some⟩
      cases n with
      | reference name use =>
          have read : IsBrowserRead program.parts above name use := by
            simpa [browserRead?] using some
          exact ⟨above, name, use, mem_occurrences_iff.1 mem, read⟩
      | _ => simp [browserRead?] at some
    · rintro ⟨above, name, use, occurs, read⟩
      exact ⟨⟨above, .reference name use⟩, mem_occurrences_iff.2 occurs, by
        simp [browserRead?, read]⟩
  rw [← found]
  exact lintProgram_of_picks bare active (browserApi_picks program)

/-- `(window).location`, where a function has a parameter `document` that it reads. -/
def windowProgram : Program where
  directives := []
  body := [
    ⟨0, .statement (.member (.paren (.reference "window" .value)) "location")⟩,
    ⟨18, .function (some "title") true [.scope .function [.binding ⟨"document", .value, false⟩,
      .statement (.member (.reference "document" .value) "title")]]⟩]

/-- The finding of a program in which only `window` is read as a global. -/
theorem browserApi_reports_window :
    Bare windowProgram ∧ .browserApi ∈ (Config.recommended "/").activeRules "/app/page.tsx" ∧
      ∃ f ∈ (Config.recommended "/").lintProgram "/app/page.tsx" "" windowProgram,
        f.rule = Rule.browserApi.name ∧ f.causes = ["window"] := by
  have bare : Bare windowProgram := by decide
  have active : .browserApi ∈ (Config.recommended "/").activeRules "/app/page.tsx" := by
    rw [Config.activeRules_recommended]
    decide
  -- the last name of the list
  have registered : "window" ∈ browserGlobals := List.mem_of_getLast? (by decide +kernel)
  let name := Node.reference "window" .value
  let access := Node.member (.paren name) "location"
  let above : List Step :=
    [⟨.paren name, .parenthesized⟩, ⟨access, .object⟩, ⟨.statement access, .wholeStatement⟩]
  have occurs : Occurs windowProgram.parts above name := by
    refine .child (.child (.child (.top ?_) ?_) ?_) ?_
    · exact List.mem_cons_self
    all_goals exact List.mem_singleton.2 rfl
  have read : IsBrowserRead windowProgram.parts above "window" .value :=
    ⟨registered, by decide, by decide⟩
  -- the parameter hides the global of its name
  have reads : ((occurrences windowProgram.parts).filterMap
      (browserRead? windowProgram.parts)).eraseDups = ["window"] := by
    decide +kernel
  rcases browserApi_reports_iff (Config.recommended "/") "/app/page.tsx" "" windowProgram bare
    active with ⟨reported, causes⟩
  rcases reported.2 ⟨above, "window", .value, occurs, read⟩ with ⟨f, mem, rule⟩
  exact ⟨bare, active, f, mem, rule, (causes f mem rule).trans reads⟩

end Rules
end ClientBoundary
