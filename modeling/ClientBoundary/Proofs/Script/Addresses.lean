import ClientBoundary.Proofs.Script.Occurrence
import Mathlib.Data.List.Infix

/-!
# Addresses of nodes

A node has an address in the tree, which says level by level to which child the way goes. Unlike the
nodes themselves, no two addresses are the same, so they can tell how often a node is listed.

- `Node.at?`: the node at an address;
- `Node.addresses`: all addresses, a node before its children;
- `Node.mem_addresses_iff`, `Node.addresses_increasing`: each of them is listed once;
- `Node.around`: the nodes on the way to an address;
- `occurrenceAt?`: the occurrence at an address.
-/

namespace ClientBoundary
namespace Script

/-- The numbers of children, from the root down. -/
abbrev Address := List Nat

namespace Node

/-! ## Nodes at addresses -/

/-- The node at an address. -/
def at? : Node → Address → Option Node
  | n, [] => some n
  | n, i :: a => n.children[i]?.bind fun child => child.2.at? a

theorem at?_append (n : Node) (a b : Address) :
    n.at? (a ++ b) = (n.at? a).bind fun inner => inner.at? b := by
  induction a generalizing n with
  | nil => rfl
  | cons i a ih =>
      rw [List.cons_append, at?, at?]
      cases n.children[i]? with
      | none => rfl
      | some child => exact ih child.2

/-- The way to a child goes through its parent. -/
theorem at?_child {root n child : Node} {a : Address} {i : Nat} {slot : Slot}
    (here : root.at? a = some n) (inside : n.children[i]? = some (slot, child)) :
    root.at? (a ++ [i]) = some child := by
  rw [at?_append, here, Option.bind_some, at?, inside, Option.bind_some, at?]

/-- The addresses of a node and of everything inside it, the node first. -/
def addresses (n : Node) : List Address :=
  [] :: n.children.attach.zipIdx.flatMap fun entry =>
    (addresses entry.1.1.2).map (entry.2 :: ·)
termination_by sizeOf n
decreasing_by exact sizeOf_child entry.1.2

theorem addresses_eq (n : Node) : n.addresses =
    [] :: n.children.zipIdx.flatMap fun entry => entry.1.2.addresses.map (entry.2 :: ·) := by
  have plain : n.children.zipIdx = n.children.attach.zipIdx.map (Prod.map Subtype.val id) := by
    rw [← List.zipIdx_map, List.attach_map_subtype_val]
  rw [addresses, plain, List.flatMap_map]
  rfl

/-- Every node has its address in the list. -/
theorem mem_addresses_iff {n : Node} {a : Address} : a ∈ n.addresses ↔ (n.at? a).isSome := by
  induction a generalizing n with
  | nil =>
      rw [addresses_eq]
      simp [at?]
  | cons i a ih =>
      have below : i :: a ∈ n.addresses ↔
          ∃ child, n.children[i]? = some child ∧ a ∈ child.2.addresses := by
        rw [addresses_eq, List.mem_cons, List.mem_flatMap]
        constructor
        · rintro (root | ⟨⟨child, j⟩, mem, here⟩)
          · cases root
          · rcases List.mem_map.1 here with ⟨b, listed, same⟩
            rcases List.cons.inj same with ⟨rfl, rfl⟩
            exact ⟨child, List.mem_zipIdx_iff_getElem?.1 mem, listed⟩
        · rintro ⟨child, mem, listed⟩
          exact .inr ⟨(child, i), List.mem_zipIdx_iff_getElem?.2 mem,
            List.mem_map.2 ⟨a, listed, rfl⟩⟩
      rw [below, at?]
      cases n.children[i]? with
      | none => simp
      | some child => simp [ih]

/-- The addresses of the nodes of a kind can be found by going through all of them. -/
theorem mem_addresses_where {root n : Node} {a : Address} {p : Node → Bool}
    (here : root.at? a = some n) (holds : p n = true) :
    a ∈ root.addresses.filter fun a => (root.at? a).any p := by
  rw [List.mem_filter, mem_addresses_iff, here]
  exact ⟨rfl, holds⟩

/-- Addresses are listed in their order, so none of them twice and each before those inside it. -/
theorem addresses_increasing (n : Node) : n.addresses.Pairwise (· < ·) := by
  induction n using Node.childInduction with
  | step n ih =>
      rw [addresses_eq, List.pairwise_cons, List.pairwise_flatMap]
      refine ⟨?_, ?_, ?_⟩
      · intro a mem
        rcases List.mem_flatMap.1 mem with ⟨entry, -, mem⟩
        rcases List.mem_map.1 mem with ⟨b, -, rfl⟩
        exact List.nil_lt_cons _ _
      · intro entry mem
        have child := ih entry.1 (List.fst_mem_of_mem_zipIdx mem)
        exact List.pairwise_map.2 (child.imp fun less => List.cons_lt_cons_iff.2 (.inr ⟨rfl, less⟩))
      · -- what is in an earlier child stands before what is in a later one
        have numbers : (n.children.zipIdx.map (·.2)).Pairwise (· < ·) := by
          rw [List.zipIdx_map_snd]
          exact List.pairwise_lt_range'
        refine (List.pairwise_map.1 numbers).imp ?_
        intro entry later less a here b there
        rcases List.mem_map.1 here with ⟨a, -, rfl⟩
        rcases List.mem_map.1 there with ⟨b, -, rfl⟩
        exact List.cons_lt_cons_iff.2 (.inl less)

/-- An address comes before those inside it. -/
theorem lt_append_cons (a : Address) (i : Nat) (b : Address) : a < a ++ i :: b := by
  induction a with
  | nil => exact List.nil_lt_cons _ _
  | cons j a ih => exact List.cons_lt_cons_iff.2 (.inr ⟨rfl, ih⟩)

/-- The nodes on the way to an address, the outermost first. -/
def around (n : Node) (a : Address) : List Node :=
  a.inits.dropLast.filterMap n.at?

theorem around_cons {n : Node} {i : Nat} {child : Slot × Node} (here : n.children[i]? = some child)
    (a : Address) : n.around (i :: a) = n :: child.2.around a := by
  have fronts : (i :: a).inits.dropLast = [] :: a.inits.dropLast.map (i :: ·) := by
    have filled : (a.inits.map (i :: ·)) ≠ [] := by
      rw [← List.length_pos_iff, List.length_map, List.length_inits]
      exact Nat.succ_pos _
    rw [List.inits_cons, List.dropLast_cons_of_ne_nil filled, List.map_dropLast]
  have below : (n.at? ∘ fun b => i :: b) = child.2.at? := by
    funext b
    simp [at?, here]
  rw [around, fronts, List.filterMap_cons, List.filterMap_map, below]
  rfl

end Node

/-! ## Occurrences at addresses -/

/-- The occurrence at an address in a node below others. -/
def occurrenceAt? : List Step → Node → Address → Option Occurrence
  | above, n, [] => some ⟨above, n⟩
  | above, n, i :: a =>
      n.children[i]?.bind fun child => occurrenceAt? (⟨n, child.1⟩ :: above) child.2 a

/-- Occurrences are listed as their addresses are. -/
theorem filterMap_occurrenceAt? (n : Node) : ∀ above : List Step,
    n.addresses.filterMap (occurrenceAt? above n) = preorder above n := by
  induction n using Node.childInduction with
  | step n ih =>
      intro above
      have below : ∀ entry ∈ n.children.zipIdx,
          (entry.1.2.addresses.map (entry.2 :: ·)).filterMap (occurrenceAt? above n) =
            preorder (⟨n, entry.1.1⟩ :: above) entry.1.2 := by
        intro entry mem
        rw [← ih entry.1 (List.fst_mem_of_mem_zipIdx mem), List.filterMap_map]
        refine List.filterMap_congr fun a _ => ?_
        have here := List.mem_zipIdx_iff_getElem?.1 mem
        simp [occurrenceAt?, here]
      have children : n.children.flatMap (fun child => preorder (⟨n, child.1⟩ :: above) child.2) =
          n.children.zipIdx.flatMap fun entry =>
            preorder (⟨n, entry.1.1⟩ :: above) entry.1.2 := by
        have numbered : n.children = n.children.zipIdx.map (·.1) := (List.zipIdx_map_fst 0 _).symm
        conv_lhs => rw [numbered]
        exact List.flatMap_map _ _ _
      rw [Node.addresses_eq, preorder_eq, List.filterMap_cons, List.filterMap_flatMap,
        List.flatMap_congr below, children]
      rfl

theorem node_occurrenceAt? (above : List Step) (n : Node) (a : Address) :
    (occurrenceAt? above n a).map (·.node) = n.at? a := by
  induction a generalizing above n with
  | nil => rfl
  | cons i a ih =>
      rw [occurrenceAt?, Node.at?]
      cases n.children[i]? with
      | none => rfl
      | some child => exact ih (⟨n, child.1⟩ :: above) child.2

/-- The occurrence of a child stands one step below that of its parent. -/
theorem occurrenceAt?_child (above : List Step) (n : Node) (a : Address) (i : Nat) :
    occurrenceAt? above n (a ++ [i]) = (occurrenceAt? above n a).bind fun o =>
      o.node.children[i]?.map fun child => ⟨⟨o.node, child.1⟩ :: o.above, child.2⟩ := by
  induction a generalizing above n with
  | nil => cases h : n.children[i]? <;> simp [occurrenceAt?, h]
  | cons j a ih =>
      rw [List.cons_append, occurrenceAt?, occurrenceAt?]
      cases n.children[j]? with
      | none => rfl
      | some child => exact ih (⟨n, child.1⟩ :: above) child.2

/-- The steps to an occurrence lead through the nodes around its address. -/
theorem above_of_occurrenceAt? {n : Node} {a : Address} : ∀ {above : List Step} {o : Occurrence},
    occurrenceAt? above n a = some o →
      o.above.reverse.map (·.node) = above.reverse.map (·.node) ++ n.around a := by
  induction a generalizing n with
  | nil =>
      rintro above o here
      rcases Option.some.inj here with rfl
      simp [Node.around]
  | cons i a ih =>
      intro above o here
      rw [occurrenceAt?] at here
      rcases Option.bind_eq_some_iff.1 here with ⟨child, found, here⟩
      rw [ih here, Node.around_cons found]
      simp

end Script
end ClientBoundary
