import ClientBoundary.Proofs.Script.Occurrence

/-!
# What a scope declares

A scope declares the names whose bindings stand in it. A function inside it keeps its own, and a
block inside it keeps those that are not hoisted.

- `Declares parts b`: the binding stands in a list of trees, and nothing in between keeps it;
- `mem_declared_iff`: the list of declared names has exactly these.
-/

namespace ClientBoundary
namespace Script

/-! ## The bindings of a node and of its children -/

namespace Node

/-- Whether a node keeps a binding that stands in it. -/
def keeps (b : Binding) : Node → Bool
  | .scope .function _ => true
  | .scope .block _ => !b.hoisted
  | _ => false

/-- Whether what is inside a node is nested in a block. -/
def nests (nested : Bool) : Node → Bool
  | .scope .block _ => true
  | _ => nested

/-- The binding that a node itself hands on. -/
def ownBinding (nested : Bool) : Node → List Binding
  | .binding b => if nested && !b.hoisted then [] else [b]
  | _ => []

/-- The children whose bindings a node hands on. -/
def shownChildren : Node → List (Slot × Node)
  | .scope .function _ => []
  | n => n.children

theorem allBindings_eq (nested : Bool) (parts : List Node) :
    allBindings nested parts =
      (asParts parts).flatMap fun child => child.2.bindings nested := by
  induction parts with
  | nil => rfl
  | cons part more ih =>
      rw [allBindings, ih]
      rfl

/-- The bindings of a node are its own and those of the children that it shows. -/
theorem bindings_eq (nested : Bool) (n : Node) :
    n.bindings nested =
      n.ownBinding nested ++
        n.shownChildren.flatMap fun child => child.2.bindings (n.nests nested) := by
  cases n with
  | declarator name target init =>
      cases init <;>
        simp [bindings, ownBinding, shownChildren, children, nests, allBindings_eq,
          optionalBindings]
  | scope kind parts =>
      cases kind <;> simp [bindings, ownBinding, shownChildren, children, nests, allBindings_eq]
  | chain link => simp [bindings, ownBinding, shownChildren, children, nests, asParts]
  | _ => simp [bindings, ownBinding, shownChildren, children, nests, allBindings_eq]

theorem mem_ownBinding_iff {nested : Bool} {n : Node} {b : Binding} :
    b ∈ n.ownBinding nested ↔ n = .binding b ∧ (nested = true → b.hoisted = true) := by
  cases n with
  | binding c =>
      by_cases kept : nested = true ∧ c.hoisted = false
      · have nothing : (Node.binding c).ownBinding nested = [] := by simp [ownBinding, kept]
        rw [nothing]
        constructor
        · intro h
          simp at h
        · rintro ⟨same, hoisted⟩
          rcases Node.binding.inj same with rfl
          simp [kept.2] at hoisted
          exact absurd kept.1 (by simp [hoisted])
      · have itself : (Node.binding c).ownBinding nested = [c] := by
          simpa [ownBinding] using kept
        rw [itself, List.mem_singleton, Node.binding.injEq]
        constructor
        · rintro rfl
          exact ⟨rfl, by simpa using kept⟩
        · rintro ⟨rfl, -⟩
          rfl
  | _ => simp [ownBinding]

/-- A child is shown unless the node keeps everything; what is nested through it is then not kept
exactly if it may leave the node. -/
theorem mem_shownChildren_iff {nested : Bool} {n : Node} {b : Binding} {child : Slot × Node} :
    (child ∈ n.shownChildren ∧ (n.nests nested = true → b.hoisted = true)) ↔
      child ∈ n.children ∧ n.keeps b = false ∧ (nested = true → b.hoisted = true) := by
  cases n with
  | scope kind parts =>
      cases kind with
      | block =>
          simp only [shownChildren, nests, keeps]
          grind
      | function => simp [shownChildren, keeps]
  | _ => simp [shownChildren, nests, keeps]

end Node

/-! ## Declarations -/

/-- A binding stands in a list of trees, and no node above it keeps it. -/
def Declares (parts : List Node) (b : Binding) : Prop :=
  ∃ above, Occurs parts above (.binding b) ∧ ∀ s ∈ above, s.node.keeps b = false

theorem Node.mem_bindings_iff {n : Node} {b : Binding} :
    ∀ {nested : Bool}, b ∈ n.bindings nested ↔
      Declares [n] b ∧ (nested = true → b.hoisted = true) := by
  induction n using Node.childInduction with
  | step n ih =>
      intro nested
      rw [bindings_eq, List.mem_append, mem_ownBinding_iff, List.mem_flatMap]
      constructor
      · rintro (⟨rfl, free⟩ | ⟨child, shown, mem⟩)
        · exact ⟨⟨[], .top (by simp), by simp⟩, free⟩
        · -- the way through the child is continued by the root
          have here : child ∈ n.children := by
            cases n with
            | scope kind parts => cases kind <;> simp_all [shownChildren]
            | _ => exact shown
          rcases (ih child here).1 mem with ⟨⟨inner, occurs, open_⟩, free⟩
          rcases mem_shownChildren_iff.1 ⟨shown, free⟩ with ⟨-, passes, free⟩
          refine ⟨⟨inner ++ [⟨n, child.1⟩], ?_, ?_⟩, free⟩
          · exact occurs_singleton_iff.2 (.inr ⟨child, here, inner, rfl, occurs⟩)
          · intro s hs
            rcases List.mem_append.1 hs with hs | hs
            · exact open_ s hs
            · rcases List.mem_singleton.1 hs with rfl
              exact passes
      · rintro ⟨⟨above, occurs, open_⟩, free⟩
        rcases occurs_singleton_iff.1 occurs with ⟨rfl, root⟩ | ⟨child, here, inner, rfl, inside⟩
        · exact .inl ⟨root.symm, free⟩
        · have passes : n.keeps b = false := open_ ⟨n, child.1⟩ (by simp)
          rcases mem_shownChildren_iff.2 ⟨here, passes, free⟩ with ⟨shown, free⟩
          refine .inr ⟨child, shown, (ih child here).2 ⟨⟨inner, inside, ?_⟩, free⟩⟩
          intro s hs
          exact open_ s (List.mem_append.2 (.inl hs))

/-- The declared names of a scope are the bindings that stand in it and are not kept further
inside. -/
theorem mem_declared_iff {parts : List Node} {b : Binding} :
    b ∈ Node.declared parts ↔ Declares parts b := by
  rw [Node.declared, Node.allBindings_eq, List.mem_flatMap]
  constructor
  · rintro ⟨child, mem, hb⟩
    rcases List.mem_map.1 mem with ⟨n, hn, rfl⟩
    rcases Node.mem_bindings_iff.1 hb with ⟨⟨above, occurs, open_⟩, -⟩
    exact ⟨above, occurs_iff_exists.2 ⟨n, hn, occurs⟩, open_⟩
  · rintro ⟨above, occurs, open_⟩
    rcases occurs_iff_exists.1 occurs with ⟨n, hn, occurs⟩
    refine ⟨(.part, n), List.mem_map.2 ⟨n, hn, rfl⟩, ?_⟩
    exact Node.mem_bindings_iff.2 ⟨⟨above, occurs, open_⟩, by simp⟩

end Script
end ClientBoundary
