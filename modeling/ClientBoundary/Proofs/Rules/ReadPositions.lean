import ClientBoundary.Proofs.Rules.Marking
import Mathlib.Data.List.Permutation

/-!
# Where names are read

The position that comes with a name says how the name is read where it stands in the tree, up to
parentheses. This holds of the walk with marks as well, at any nesting: also of a name in the target
of a declarator, in the parameters of a function or in a key, which is visited while something
around it is still marked or announced.

- `Reads`, `ReadAt`: how an expression is read by what is around it;
- `ToldOf`: what is told of a name;
- `visitProgram_positions`: the rules are told of every name and of its position, also in a walk
  with marks.
-/

namespace ClientBoundary
namespace Rules

open Script (Node Address Slot Step Occurrence Program occurrenceAt?)

/-! ## Reading -/

/-- A node reads the expression in one of its children. An expression that is the body of an arrow
function is no statement in the tree, so it is not read. -/
inductive Reads : Node → Nat → ReadPosition → Prop
  | member (object : Node) (property : String) : Reads (.member object property) 0 .member
  | index (object key : Node) : Reads (.index object key) 0 .member
  | privateMember (object : Node) (name : String) : Reads (.privateMember object name) 0 .member
  | callee (callee : Node) (arguments : List Node) : Reads (.call callee arguments) 0 .callee
  | init (name : Option String) (target : List Node) (value : Node) :
      Reads (.declarator name target (some value)) target.length .init
  | statement (expression : Node) : Reads (.statement expression) 0 .bare

/-- The expression at an address is read by the node right above it, or it stands in parentheses
that are read. -/
inductive ReadAt (root : Node) : Address → ReadPosition → Prop
  | direct {a : Address} {n : Node} {i : Nat} {q : ReadPosition} (here : root.at? a = some n)
      (reads : Reads n i q) : ReadAt root (a ++ [i]) q
  | paren {a : Address} {inner : Node} {q : ReadPosition} (here : root.at? a = some (.paren inner))
      (outside : ReadAt root a q) : ReadAt root (a ++ [0]) q

section slots

variable {n child : Node} {i : Nat} {slot : Slot} {q : ReadPosition}

theorem slot_of_asParts {parts : List Node}
    (here : (Node.asParts parts)[i]? = some (slot, child)) : slot = .part := by
  rw [Node.asParts, List.getElem?_map] at here
  rcases Option.map_eq_some_iff.1 here with ⟨_, -, ⟨⟩⟩
  rfl

/-- In front of mere parts, only the first child can be something else. -/
theorem first_slot {first : Slot} {e : Node} (parts : List Node)
    (here : ((first, e) :: Node.asParts parts)[i]? = some (slot, child)) (other : slot ≠ .part) :
    i = 0 ∧ first = slot := by
  cases i with
  | zero => exact ⟨rfl, congrArg Prod.fst (Option.some.inj here)⟩
  | succ i => exact absurd (slot_of_asParts here) other

/-- Behind mere parts, only the last child can be something else. -/
theorem last_slot {last : List (Slot × Node)} {parts : List Node}
    (here : (Node.asParts parts ++ last)[i]? = some (slot, child)) (other : slot ≠ .part) :
    parts.length ≤ i ∧ last[i - parts.length]? = some (slot, child) := by
  have length : (Node.asParts parts).length = parts.length := List.length_map _
  rcases Nat.lt_or_ge i parts.length with before | after
  · rw [List.getElem?_append_left (by omega)] at here
    exact absurd (slot_of_asParts here) other
  · rw [List.getElem?_append_right (by omega), length] at here
    exact ⟨after, here⟩

/-- A child stands in parentheses, or its parent reads it, or it is a mere part. -/
theorem slot_cases (here : n.children[i]? = some (slot, child)) (other : slot ≠ .part) :
    (slot = .parenthesized ∧ i = 0 ∧ ∃ inner, n = .paren inner) ∨
      ∃ q, readIn? slot = some q ∧ Reads n i q := by
  cases n with
  | paren inner =>
      rcases first_slot [] here other with ⟨rfl, rfl⟩
      exact .inl ⟨rfl, rfl, inner, rfl⟩
  | member object property =>
      rcases first_slot [] here other with ⟨rfl, rfl⟩
      exact .inr ⟨_, rfl, .member object property⟩
  | index object key =>
      rcases first_slot [key] here other with ⟨rfl, rfl⟩
      exact .inr ⟨_, rfl, .index object key⟩
  | privateMember object name =>
      rcases first_slot [] here other with ⟨rfl, rfl⟩
      exact .inr ⟨_, rfl, .privateMember object name⟩
  | call callee arguments =>
      rcases first_slot arguments here other with ⟨rfl, rfl⟩
      exact .inr ⟨_, rfl, .callee callee arguments⟩
  | statement expression =>
      rcases first_slot [] here other with ⟨rfl, rfl⟩
      exact .inr ⟨_, rfl, .statement expression⟩
  | declarator name target init =>
      rcases last_slot here other with ⟨after, last⟩
      cases init with
      | none => cases last
      | some value =>
          rcases first_slot [] last other with ⟨same, rfl⟩
          rw [Nat.le_antisymm (Nat.sub_eq_zero_iff_le.1 same) after]
          exact .inr ⟨_, rfl, .init name target value⟩
  | chain _ | function _ _ _ | arrow _ | opening _ _ | prop _ _ | scope _ _ | group _ =>
      exact absurd (slot_of_asParts here) other
  | reference _ _ | binding _ | this | super | string _ => cases here

theorem readIn?_of_reads (here : n.children[i]? = some (slot, child)) (reads : Reads n i q) :
    readIn? slot = some q := by
  cases reads with
  | init name target value =>
      have last : (Node.declarator name target (some value)).children[target.length]? =
          some (.initializer, value) := by
        simp [Node.children, Node.asParts]
      rw [last] at here
      rcases Option.some.inj here with ⟨⟩
      rfl
  | _ =>
      rcases Option.some.inj here with ⟨⟩
      rfl

/-- The slot of a child is the one in which its parent reads it. -/
theorem reads_iff (here : n.children[i]? = some (slot, child)) :
    Reads n i q ↔ readIn? slot = some q := by
  refine ⟨readIn?_of_reads here, fun read => ?_⟩
  have other : slot ≠ .part := by
    rintro rfl
    cases read
  rcases slot_cases here other with ⟨rfl, -⟩ | ⟨r, read', reads⟩
  · cases read
  · rw [read] at read'
    rcases Option.some.inj read' with rfl
    exact reads

end slots

/-! ## Positions -/

theorem not_readAt_nil {root : Node} {q : ReadPosition} : ¬ ReadAt root [] q := by
  generalize top : ([] : Address) = a
  rintro (⟨-, -⟩ | ⟨-, -⟩) <;> simp at top

/-- An expression is read by its parent, or its parent is parentheses that are read. -/
theorem readAt_child_iff {root n : Node} {a : Address} {i : Nat} {q : ReadPosition}
    (here : root.at? a = some n) : ReadAt root (a ++ [i]) q ↔
      Reads n i q ∨ i = 0 ∧ (∃ inner, n = .paren inner) ∧ ReadAt root a q := by
  constructor
  · generalize below : a ++ [i] = b
    rintro (⟨there, reads⟩ | ⟨there, outside⟩)
    · rcases List.append_inj' below rfl with ⟨rfl, ⟨⟩⟩
      rw [here] at there
      rcases Option.some.inj there with rfl
      exact .inl reads
    · rcases List.append_inj' below rfl with ⟨rfl, ⟨⟩⟩
      rw [here] at there
      rcases Option.some.inj there with rfl
      exact .inr ⟨rfl, ⟨_, rfl⟩, outside⟩
  · rintro (reads | ⟨rfl, ⟨inner, rfl⟩, outside⟩)
    · exact .direct here reads
    · exact .paren here outside

/-- A position is handed down to an occurrence just if it is read in that position. -/
theorem positionOf_iff_readAt {root : Node} {a : Address} (q : ReadPosition) :
    ∀ {o : Occurrence}, occurrenceAt? [] root a = some o →
      (positionOf o.above = some q ↔ ReadAt root a q) := by
  -- on the address from its end, so that what is handed down to the parent is known
  induction a using List.reverseRecOn with
  | nil =>
      intro o found
      rcases Option.some.inj found with rfl
      exact iff_of_false (fun position => nomatch position) not_readAt_nil
  | append_singleton a i ih =>
      intro o found
      rw [Script.occurrenceAt?_child] at found
      rcases Option.bind_eq_some_iff.1 found with ⟨parent, outer, found⟩
      rcases Option.map_eq_some_iff.1 found with ⟨⟨slot, child⟩, inside, rfl⟩
      have here : root.at? a = some parent.node := by
        rw [← Script.node_occurrenceAt? [], outer, Option.map_some]
      rw [positionOf_cons, positionBelow, readAt_child_iff here, reads_iff inside, ← ih outer]
      -- parentheses hand on their own position, every other slot has one of itself
      by_cases paren : slot = .parenthesized
      · subst paren
        rcases slot_cases inside (by simp) with ⟨-, rfl, shape⟩ | ⟨_, read, -⟩
        · simp [readIn?, shape]
        · cases read
      · have other : ¬ (i = 0 ∧ (∃ inner, parent.node = .paren inner) ∧
            positionOf parent.above = some q) := by
          rintro ⟨rfl, ⟨inner, shape⟩, -⟩
          rw [shape] at inside
          rcases Option.some.inj inside with ⟨⟩
          exact paren rfl
        rw [if_neg paren, or_iff_left other]

/-! ## What is told of names -/

/-- What is told of the name at an address: it comes with the position in which it is read there,
and with none if it is not read. -/
inductive ToldOf (root : Node) (a : Address) : Event → Prop
  | name {text : String} {use : Script.Use} {position : Option ReadPosition} {isGlobal : Bool}
      (here : root.at? a = some (.reference text use))
      (read : ∀ q, position = some q ↔ ReadAt root a q) :
      ToldOf root a (.reference text position isGlobal)

/-- Events that tell of names. -/
def tellsOfName : Event → Bool
  | .reference _ _ _ => true
  | _ => false

theorem toldOf_of_announcement? {program : Program} {a : Address} {e : Event}
    (h : (announcement? program a).filter tellsOfName = some e) : ToldOf (rootOf program) a e := by
  rcases Option.filter_eq_some_iff.1 h with ⟨told, name⟩
  rcases Option.bind_eq_some_iff.1 told with ⟨⟨above, n⟩, found, own⟩
  have here : (rootOf program).at? a = some n := by
    rw [← Script.node_occurrenceAt? [], found, Option.map_some]
  cases n with
  | reference text use =>
      rcases Option.some.inj own with rfl
      exact .name here fun q => positionOf_iff_readAt q found
  | call callee arguments =>
      rcases Option.some.inj own with rfl
      cases name
  | opening tag parts =>
      rcases Option.some.inj own with rfl
      cases name
  | _ => cases own

theorem isSome_filter_announcement? {program : Program} {a : Address} :
    ((announcement? program a).filter tellsOfName).isSome ↔ IsNameAt (rootOf program) a := by
  constructor
  · intro told
    rcases Option.isSome_iff_exists.1 told with ⟨e, told⟩
    rcases toldOf_of_announcement? told with ⟨here, -⟩
    exact ⟨_, _, here⟩
  · rintro ⟨text, use, here⟩
    rw [← Script.node_occurrenceAt? []] at here
    rcases Option.map_eq_some_iff.1 here with ⟨⟨above, n⟩, found, rfl⟩
    rw [announcement?, found]
    rfl

/-- The rules are told of every name once, in source order, with the position in which it is read.
A walk with marks finds the same positions, and in the end no mark is left and no announced body. -/
theorem visitProgram_positions (program : Program) :
    ∃ names, names.Pairwise (· < ·) ∧ (∀ a, a ∈ names ↔ IsNameAt (rootOf program) a) ∧
      List.Forall₂ (ToldOf (rootOf program)) names ((programEvents program).filter tellsOfName) ∧
      ∀ {σ : Type} [DecidableEq σ] (span : Address → σ), TellsApart span (rootOf program) →
        visitProgram span program = (programEvents program, .none) := by
  let name? a := (announcement? program a).filter tellsOfName
  refine ⟨(rootOf program).addresses.filter fun a => (name? a).isSome,
    (rootOf program).addresses_increasing.filter _, ?_, ?_, fun _ => visitProgram_eq⟩
  · intro a
    rw [List.mem_filter, isSome_filter_announcement?, Node.mem_addresses_iff]
    constructor
    · exact And.right
    · rintro ⟨text, use, here⟩
      exact ⟨by rw [here]; rfl, text, use, here⟩
  · -- neither the beginning nor the end tells of a name
    have names : (programEvents program).filter tellsOfName =
        (rootOf program).addresses.filterMap name? := by
      rw [programEvents_eq_announcements, List.filter_append,
        List.filter_cons_of_neg (by simp [tellsOfName]), List.filter_filterMap]
      exact List.append_nil _
    rw [names]
    exact (forall₂_filterMap name? _).imp fun a e => toldOf_of_announcement?

/-- The program `const {a = (x = c.d) => b} = (window); document;`, in which the value of the
declarator is still marked and the body of the function still announced when `c` is marked. -/
def nestedReads : Program :=
  ⟨[], [⟨0, .group [.declarator none
    [.group [.group [.binding ⟨"a", .value, false⟩, .arrow [.scope .function
      [.group [.binding ⟨"x", .value, false⟩, .member (.reference "c" .value) "d"],
        .reference "b" .value]]]]]
    (some (.paren (.reference "window" .value)))]⟩,
    ⟨39, .statement (.reference "document" .value)⟩]⟩

/-- Where its names and its statements begin and end. -/
def nestedSpans : Address → Nat × Nat
  | [0, 0, 0, 0, 1, 0, 0, 1, 0] => (16, 17)
  | [0, 0, 0, 0, 1, 0, 1] => (24, 25)
  | [0, 0, 1, 0] => (30, 36)
  | [1, 0] => (39, 47)
  | [1] => (39, 48)
  | _ => (0, 38)

/-- The addresses of its names. -/
def nestedNames : List Address :=
  [[0, 0, 0, 0, 1, 0, 0, 1, 0], [0, 0, 0, 0, 1, 0, 1], [0, 0, 1, 0], [1, 0]]

/-- The addresses of its statements, with the one of the body of the function. -/
def nestedStatements : List Address :=
  [[0, 0, 0, 0, 1, 0, 1], [1]]

/-- Expressions that stand as statements. -/
def isStatement : Node → Bool
  | .statement _ => true
  | _ => false

theorem mem_nestedNames {a : Address} (name : IsNameAt (rootOf nestedReads) a) :
    a ∈ nestedNames := by
  have all : (rootOf nestedReads).addresses.filter
      (fun a => ((rootOf nestedReads).at? a).any isAnnounced) = nestedNames := by
    cbv
  rcases name with ⟨text, use, here⟩
  rw [← all]
  exact Node.mem_addresses_where here rfl

theorem mem_nestedStatements {a : Address} (statement : IsStatementAt (rootOf nestedReads) a) :
    a ∈ nestedStatements := by
  cases statement with
  | expression here =>
      have all : (rootOf nestedReads).addresses.filter
          (fun a => ((rootOf nestedReads).at? a).any isStatement) = [[1]] := by
        cbv
      have mem := Node.mem_addresses_where (p := isStatement) here rfl
      rw [all] at mem
      exact List.mem_cons_of_mem _ mem
  | body here body =>
      have all : (rootOf nestedReads).addresses.filter
          (fun a => ((rootOf nestedReads).at? a).any Node.isArrow) = [[0, 0, 0, 0, 1]] := by
        cbv
      have mem := Node.mem_addresses_where (p := Node.isArrow) here rfl
      rw [all] at mem
      rcases List.mem_singleton.1 mem with rfl
      rcases Option.some.inj here with ⟨⟩
      rcases Option.some.inj body with ⟨⟩
      exact List.mem_cons_self

theorem tellsApart_nestedSpans : TellsApart nestedSpans (rootOf nestedReads) where
  names := by
    intro a b first second
    have different : ∀ a ∈ nestedNames, ∀ b ∈ nestedNames,
        nestedSpans a = nestedSpans b → a = b := by
      decide
    exact different a (mem_nestedNames first) b (mem_nestedNames second)
  statements := by
    intro a b first second
    have different : ∀ a ∈ nestedStatements, ∀ b ∈ nestedStatements,
        nestedSpans a = nestedSpans b → a = b := by
      decide
    exact different a (mem_nestedStatements first) b (mem_nestedStatements second)

theorem visitProgram_positions_nested : TellsApart nestedSpans (rootOf nestedReads) ∧
    ∃ names, names.Pairwise (· < ·) ∧ (∀ a, a ∈ names ↔ IsNameAt (rootOf nestedReads) a) ∧
      List.Forall₂ (ToldOf (rootOf nestedReads)) names
        ((programEvents nestedReads).filter tellsOfName) ∧
      visitProgram nestedSpans nestedReads = (programEvents nestedReads, .none) := by
  rcases visitProgram_positions nestedReads with ⟨names, order, all, told, walk⟩
  exact ⟨tellsApart_nestedSpans, names, order, all, told,
    walk nestedSpans tellsApart_nestedSpans⟩

example : visitProgram nestedSpans nestedReads =
    ([.enter, .reference "c" (some .member) true, .reference "b" none true,
      .reference "window" (some .init) true, .reference "document" (some .bare) true, .exit 0],
      .none) := by
  rfl

end Rules
end ClientBoundary
