import ClientBoundary.Script.Tree

/-!
# Where nodes occur

Every node of a tree stands below other nodes, and in each of them in one of a few slots.

- `Node.children`: the nodes right below a node, in source order, with their slots;
- `Occurs parts above n`: below the nodes `above`, the innermost first, `n` stands in a list of
  trees;
- `occurrences`: all occurrences in pre-order, a node before everything inside it.

`mem_occurrences_iff` says that the list has exactly the occurrences, `sublist_of_inside` and
`sublist_of_beside` say in which order.
-/

namespace ClientBoundary
namespace Script

/-! ## Slots and children -/

/-- As what a node stands in the node right above it. -/
inductive Slot where
  /-- The object of a static, computed or private access. -/
  | object
  | callee
  /-- The value of a declared variable. -/
  | initializer
  /-- The whole expression of a statement. -/
  | wholeStatement
  | parenthesized
  | part
  deriving DecidableEq, Repr

namespace Node

/-- Nodes that stand for nothing in particular. -/
def asParts (parts : List Node) : List (Slot × Node) :=
  parts.map fun n => (.part, n)

/-- The nodes right below a node, in source order. -/
def children : Node → List (Slot × Node)
  | .paren inner => [(.parenthesized, inner)]
  | .member object _ => [(.object, object)]
  | .index object key => [(.object, object), (.part, key)]
  | .privateMember object _ => [(.object, object)]
  | .call callee arguments => (.callee, callee) :: asParts arguments
  | .chain link => asParts [link]
  | .function _ _ parts => asParts parts
  | .arrow parts => asParts parts
  | .declarator _ target init =>
      asParts target ++ init.toList.map fun value => (.initializer, value)
  | .opening _ parts => asParts parts
  | .prop _ value => asParts value
  | .statement expression => [(.wholeStatement, expression)]
  | .scope _ parts => asParts parts
  | .group parts => asParts parts
  | _ => []

theorem sizeOf_of_mem_asParts {parts : List Node} {child : Slot × Node}
    (h : child ∈ asParts parts) : sizeOf child.2 < sizeOf parts := by
  rcases List.mem_map.1 h with ⟨n, hn, rfl⟩
  exact List.sizeOf_lt_of_mem hn

/-- A child is smaller than its parent. -/
theorem sizeOf_child {n : Node} {child : Slot × Node} (h : child ∈ n.children) :
    sizeOf child.2 < sizeOf n := by
  cases n with
  | reference name use => simp [children] at h
  | binding b => simp [children] at h
  | this => simp [children] at h
  | super => simp [children] at h
  | string value => simp [children] at h
  | paren inner =>
      rcases List.mem_singleton.1 h with rfl
      simp only [paren.sizeOf_spec]
      omega
  | member object property =>
      rcases List.mem_singleton.1 h with rfl
      simp only [member.sizeOf_spec]
      omega
  | index object key =>
      have h : child = (.object, object) ∨ child = (.part, key) := by
        simpa [children] using h
      rcases h with rfl | rfl
      · simp only [index.sizeOf_spec]
        omega
      · simp only [index.sizeOf_spec]
        omega
  | privateMember object name =>
      rcases List.mem_singleton.1 h with rfl
      simp only [privateMember.sizeOf_spec]
      omega
  | call callee arguments =>
      rcases List.mem_cons.1 h with rfl | h
      · simp only [call.sizeOf_spec]
        omega
      · have := sizeOf_of_mem_asParts h
        simp only [call.sizeOf_spec]
        omega
  | chain link =>
      rcases List.mem_singleton.1 h with rfl
      simp only [chain.sizeOf_spec]
      omega
  | function name isDeclaration parts =>
      have := sizeOf_of_mem_asParts h
      simp only [function.sizeOf_spec]
      omega
  | arrow parts =>
      have := sizeOf_of_mem_asParts h
      simp only [arrow.sizeOf_spec]
      omega
  | declarator name target init =>
      rcases List.mem_append.1 h with h | h
      · have := sizeOf_of_mem_asParts h
        simp only [declarator.sizeOf_spec]
        omega
      · cases init with
        | none => simp at h
        | some value =>
            rcases List.mem_singleton.1 h with rfl
            simp only [declarator.sizeOf_spec, Option.some.sizeOf_spec]
            omega
  | opening tag parts =>
      have := sizeOf_of_mem_asParts h
      simp only [opening.sizeOf_spec]
      omega
  | prop name value =>
      have := sizeOf_of_mem_asParts h
      simp only [prop.sizeOf_spec]
      omega
  | statement expression =>
      rcases List.mem_singleton.1 h with rfl
      simp only [statement.sizeOf_spec]
      omega
  | scope kind parts =>
      have := sizeOf_of_mem_asParts h
      simp only [scope.sizeOf_spec]
      omega
  | group parts =>
      have := sizeOf_of_mem_asParts h
      simp only [group.sizeOf_spec]
      omega

/-- Induction from the children of a node to the node. -/
theorem childInduction {motive : Node → Prop}
    (step : ∀ n : Node, (∀ child ∈ n.children, motive child.2) → motive n) (n : Node) :
    motive n :=
  step n fun child _ => childInduction step child.2
termination_by sizeOf n
decreasing_by exact sizeOf_child (by assumption)

end Node

/-! ## Occurrences -/

/-- A node above another one, with the slot through which the way leads down. -/
structure Step where
  node : Node
  slot : Slot

/-- A node with the steps that lead to it, the innermost first. -/
structure Occurrence where
  above : List Step
  node : Node

/-- A node occurs below others in a list of trees. -/
inductive Occurs (parts : List Node) : List Step → Node → Prop where
  | top {n : Node} (mem : n ∈ parts) : Occurs parts [] n
  | child {above : List Step} {parent n : Node} {slot : Slot} (up : Occurs parts above parent)
      (mem : (slot, n) ∈ parent.children) : Occurs parts (⟨parent, slot⟩ :: above) n

/-- The occurrences in a node below others: the node itself, then those in its children. -/
def preorder (above : List Step) (n : Node) : List Occurrence :=
  ⟨above, n⟩ :: n.children.attach.flatMap fun child =>
    preorder (⟨n, child.1.1⟩ :: above) child.1.2
termination_by sizeOf n
decreasing_by exact Node.sizeOf_child child.2

/-- The occurrences in a list of trees, in pre-order. -/
def occurrences (parts : List Node) : List Occurrence :=
  parts.flatMap (preorder [])

theorem preorder_eq (above : List Step) (n : Node) :
    preorder above n =
      ⟨above, n⟩ :: n.children.flatMap fun child => preorder (⟨n, child.1⟩ :: above) child.2 := by
  rw [preorder]
  have h := List.attach_map_val (l := n.children)
    (f := fun child => preorder (⟨n, child.1⟩ :: above) child.2)
  rw [List.flatMap, h, List.flatMap]

theorem mem_preorder {above : List Step} {n : Node} {o : Occurrence} :
    o ∈ preorder above n ↔
      o = ⟨above, n⟩ ∨ ∃ child ∈ n.children, o ∈ preorder (⟨n, child.1⟩ :: above) child.2 := by
  rw [preorder_eq, List.mem_cons, List.mem_flatMap]

/-- What is listed for a node occurs below that node. -/
theorem Occurs.of_mem_preorder {parts : List Node} {n : Node} :
    ∀ {above : List Step}, Occurs parts above n →
      ∀ o ∈ preorder above n, Occurs parts o.above o.node := by
  induction n using Node.childInduction with
  | step n ih =>
      intro above here o ho
      rcases mem_preorder.1 ho with rfl | ⟨child, mem, ho⟩
      · exact here
      · exact ih child mem (.child here mem) o ho

/-- With a node its children are listed. -/
theorem child_mem_preorder {n : Node} :
    ∀ {above : List Step}, ∀ o ∈ preorder above n, ∀ child ∈ o.node.children,
      ⟨⟨o.node, child.1⟩ :: o.above, child.2⟩ ∈ preorder above n := by
  induction n using Node.childInduction with
  | step n ih =>
      intro above o ho child mem
      rcases mem_preorder.1 ho with rfl | ⟨first, hfirst, ho⟩
      · exact mem_preorder.2 (.inr ⟨child, mem, mem_preorder.2 (.inl rfl)⟩)
      · exact mem_preorder.2 (.inr ⟨first, hfirst, ih first hfirst o ho child mem⟩)

/-- The list has exactly the occurrences. -/
theorem mem_occurrences_iff {parts : List Node} {above : List Step} {n : Node} :
    ⟨above, n⟩ ∈ occurrences parts ↔ Occurs parts above n := by
  constructor
  · intro h
    rcases List.mem_flatMap.1 h with ⟨root, mem, h⟩
    exact Occurs.of_mem_preorder (.top mem) _ h
  · intro h
    induction h with
    | top mem => exact List.mem_flatMap.2 ⟨_, mem, mem_preorder.2 (.inl rfl)⟩
    | child up mem ih =>
        rcases List.mem_flatMap.1 ih with ⟨root, hroot, ih⟩
        exact List.mem_flatMap.2 ⟨root, hroot, child_mem_preorder _ ih _ mem⟩

/-- What occurs in a list of trees occurs in one of them. -/
theorem occurs_iff_exists {parts : List Node} {above : List Step} {m : Node} :
    Occurs parts above m ↔ ∃ n ∈ parts, Occurs [n] above m := by
  constructor
  · intro h
    induction h with
    | top mem => exact ⟨_, mem, .top (by simp)⟩
    | child up mem ih =>
        rcases ih with ⟨n, hn, ih⟩
        exact ⟨n, hn, .child ih mem⟩
  · rintro ⟨n, hn, h⟩
    induction h with
    | top mem =>
        rcases List.mem_singleton.1 mem with rfl
        exact .top hn
    | child up mem ih => exact .child ih mem

/-- What occurs in a tree is its root, or occurs in a child of the root. -/
theorem occurs_singleton_iff {n m : Node} {above : List Step} :
    Occurs [n] above m ↔
      (above = [] ∧ m = n) ∨
        ∃ child ∈ n.children, ∃ inner, above = inner ++ [⟨n, child.1⟩] ∧
          Occurs [child.2] inner m := by
  constructor
  · intro h
    induction h with
    | top mem => exact .inl ⟨rfl, List.mem_singleton.1 mem⟩
    | @child above parent m slot up mem ih =>
        -- a child of the root begins a way below it, any other one continues the way of its parent
        refine .inr ?_
        rcases ih with ⟨rfl, rfl⟩ | ⟨child, hchild, inner, rfl, ih⟩
        · exact ⟨(slot, m), mem, [], rfl, .top (by simp)⟩
        · exact ⟨child, hchild, ⟨parent, slot⟩ :: inner, rfl, .child ih mem⟩
  · rintro (⟨rfl, rfl⟩ | ⟨child, hchild, inner, rfl, h⟩)
    · exact .top (by simp)
    · induction h with
      | top mem =>
          rcases List.mem_singleton.1 mem with rfl
          exact .child (.top (by simp)) hchild
      | child up mem ih => exact .child ih mem

/-! ## The order of occurrences -/

/-- What occurs in a node is listed below it. -/
theorem mem_preorder_of_occurs {n m : Node} {inner : List Step} (h : Occurs [n] inner m)
    (above : List Step) : ⟨inner ++ above, m⟩ ∈ preorder above n := by
  induction h with
  | top mem =>
      have root := List.mem_singleton.1 mem
      rw [root]
      exact mem_preorder.2 (.inl rfl)
  | child up mem ih => exact child_mem_preorder _ ih _ mem

/-- What occurs in a node below others is listed without a gap. -/
theorem infix_preorder_of_occurs {parts : List Node} {above : List Step} {n : Node}
    (h : Occurs parts above n) : preorder above n <:+: occurrences parts := by
  induction h with
  | top mem => exact List.infix_of_mem_flatten (List.mem_map_of_mem mem)
  | @child above parent n slot up mem ih =>
      have listed : preorder (⟨parent, slot⟩ :: above) n ∈
          parent.children.map fun child => preorder (⟨parent, child.1⟩ :: above) child.2 :=
        List.mem_map.2 ⟨(slot, n), mem, rfl⟩
      have below : preorder (⟨parent, slot⟩ :: above) n <:+: preorder above parent := by
        rw [preorder_eq above parent]
        exact (List.infix_of_mem_flatten listed).trans (List.suffix_cons _ _).isInfix
      exact below.trans ih

/-- A node stands before everything inside it. -/
theorem sublist_of_inside {parts : List Node} {above inner : List Step} {n m : Node}
    (h : Occurs parts above n) (inside : Occurs [n] inner m) (below : inner ≠ []) :
    List.Sublist [⟨above, n⟩, ⟨inner ++ above, m⟩] (occurrences parts) := by
  rcases occurs_singleton_iff.1 inside with ⟨root, -⟩ | ⟨child, mem, deeper, rfl, occurs⟩
  · exact absurd root below
  · have listed : ⟨deeper ++ ⟨n, child.1⟩ :: above, m⟩ ∈
        n.children.flatMap fun child => preorder (⟨n, child.1⟩ :: above) child.2 :=
      List.mem_flatMap.2 ⟨child, mem, mem_preorder_of_occurs occurs _⟩
    have order : List.Sublist [⟨above, n⟩, ⟨deeper ++ ⟨n, child.1⟩ :: above, m⟩]
        (preorder above n) := by
      rw [preorder_eq above n]
      exact (List.singleton_sublist.2 listed).cons_cons _
    have path : deeper ++ [⟨n, child.1⟩] ++ above = deeper ++ ⟨n, child.1⟩ :: above := by simp
    rw [path]
    exact order.trans (infix_preorder_of_occurs h).sublist

/-- The first part of a group stands before everything in the other parts. -/
theorem sublist_of_beside {parts others : List Node} {up inner : List Step} {n other m : Node}
    (h : Occurs parts up (.group (n :: others))) (mem : other ∈ others)
    (inside : Occurs [other] inner m) :
    List.Sublist [⟨⟨.group (n :: others), .part⟩ :: up, n⟩,
      ⟨inner ++ ⟨.group (n :: others), .part⟩ :: up, m⟩] (occurrences parts) := by
  let above : List Step := ⟨.group (n :: others), .part⟩ :: up
  have first : List.Sublist [⟨above, n⟩] (preorder above n) :=
    List.singleton_sublist.2 (mem_preorder.2 (.inl rfl))
  have second : List.Sublist [⟨inner ++ above, m⟩] (others.flatMap (preorder above)) :=
    List.singleton_sublist.2 (List.mem_flatMap.2 ⟨other, mem, mem_preorder_of_occurs inside above⟩)
  have whole : preorder up (.group (n :: others)) =
      ⟨up, .group (n :: others)⟩ :: (preorder above n ++ others.flatMap (preorder above)) := by
    rw [preorder_eq]
    simp [Node.children, Node.asParts, List.flatMap_map, above]
  have order : List.Sublist ([⟨above, n⟩] ++ [⟨inner ++ above, m⟩])
      (preorder up (.group (n :: others))) := by
    rw [whole]
    exact (first.append second).cons _
  exact order.trans (infix_preorder_of_occurs h).sublist

end Script
end ClientBoundary
