import ClientBoundary.Proofs.Rules.Collecting
import ClientBoundary.Proofs.Script.Addresses
import Mathlib.Data.List.Forall2

/-!
# What the rules are told

A walk tells the rules of every name that is used, every call and every opening tag of a program,
each of them once. A call comes with the functions and declarators that contain it.

- `isAnnounced`, `makesFrame`: the nodes that are told of, and those that are frames around them;
- `FrameOf`, `Announces`: what is told of a node;
- `announcement?`, `programEvents_eq_announcements`: the events of a walk, address by address;
- `programEvents_deliver`: which events there are, and in which order.
-/

namespace ClientBoundary
namespace Rules

open Script (Node Address Occurrence Step Program occurrenceAt?)

/-! ## Events and nodes -/

/-- Names that are used, calls and opening tags are announced. -/
def isAnnounced : Node → Bool
  | .reference _ _ => true
  | .call _ _ => true
  | .opening _ _ => true
  | _ => false

/-- Functions and declarators are frames around what they contain. -/
def makesFrame : Node → Bool
  | .function _ _ _ => true
  | .declarator _ _ _ => true
  | _ => false

/-- The frame of a function or a declarator. -/
inductive FrameOf : Node → Frame → Prop
  | function (name : Option String) (isDeclaration : Bool) (parts : List Node) :
      FrameOf (.function name isDeclaration parts) (.function name isDeclaration)
  | declarator (name : Option String) (target : List Node) {init : Option Node} {flag : Bool}
      (arrow : flag = true ↔
        ∃ value parts, init = some value ∧ value.withoutParens = .arrow parts) :
      FrameOf (.declarator name target init) (.declarator name flag)

/-- An event tells of the node at an address, a call with the frames around it. -/
inductive Announces (root : Node) (a : Address) : Event → Prop
  | reference {name : String} {use : Script.Use} {position : Option ReadPosition} {isGlobal : Bool}
      (here : root.at? a = some (.reference name use)) :
      Announces root a (.reference name position isGlobal)
  | call {callee : Node} {arguments : List Node} {frames : List Frame}
      (here : root.at? a = some (.call callee arguments))
      (stack : List.Forall₂ FrameOf ((root.around a).filter makesFrame) frames) :
      Announces root a (.call callee frames)
  | opening {tag : Option String} {parts : List Node}
      (here : root.at? a = some (.opening tag parts)) :
      Announces root a (.opening tag (Node.propNames parts))

theorem frameOf_declarator (name : Option String) (target : List Node) (init : Option Node) :
    FrameOf (.declarator name target init) (declaratorFrame name init) := by
  apply FrameOf.declarator
  cases init with
  | none => simp
  | some value =>
      simp only [Option.any_some, Node.isArrow, Option.some.injEq]
      cases shape : value.withoutParens <;> simp [shape]

/-- Of any nodes, those that make frames have theirs. -/
theorem forall₂_frameOf (nodes : List Node) :
    List.Forall₂ FrameOf (nodes.filter makesFrame) (nodes.filterMap frame?) := by
  induction nodes with
  | nil => exact .nil
  | cons n more ih =>
      cases n with
      | function name isDeclaration parts => exact .cons (.function name isDeclaration parts) ih
      | declarator name target init => exact .cons (frameOf_declarator name target init) ih
      | _ => exact ih

theorem isSome_ownEvent? (p : Place) (position : Option ReadPosition) (n : Node) :
    (ownEvent? p position n).isSome = isAnnounced n := by
  cases n <;> rfl

/-! ## Events and addresses -/

/-- A program as one node. -/
def rootOf (program : Program) : Node :=
  .group program.parts

/-- The event for an address, if there is one. -/
def announcement? (program : Program) (a : Address) : Option Event :=
  (occurrenceAt? [] (rootOf program) a).bind (eventAt? program.parts)

/-- A walk goes through the addresses in their order. -/
theorem programEvents_eq_announcements (program : Program) :
    programEvents program =
      .enter :: (rootOf program).addresses.filterMap (announcement? program) ++ [.exit 0] := by
  have place : topPlace program = placeOf program.parts [] := rfl
  have events : listEvents (topPlace program) program.parts =
      (rootOf program).addresses.filterMap (announcement? program) :=
    calc listEvents (topPlace program) program.parts
        = nodeEvents (placeOf program.parts []) (positionOf []) (rootOf program) := by
          rw [place, rootOf, nodeEvents]
      _ = (Script.preorder [] (rootOf program)).filterMap (eventAt? program.parts) :=
          nodeEvents_eq program.parts (rootOf program) []
      _ = (rootOf program).addresses.filterMap (announcement? program) := by
          rw [← Script.filterMap_occurrenceAt?, List.filterMap_filterMap]
          rfl
  rw [programEvents_eq_listEvents, events]

theorem isSome_announcement? (program : Program) (a : Address) :
    (announcement? program a).isSome = ((rootOf program).at? a).any isAnnounced := by
  rw [announcement?, ← Script.node_occurrenceAt? []]
  cases occurrenceAt? [] (rootOf program) a with
  | none => rfl
  | some o => exact isSome_ownEvent? _ _ o.node

/-- The event for an address tells of the node there. -/
theorem announces_of_announcement? {program : Program} {a : Address} {e : Event}
    (h : announcement? program a = some e) : Announces (rootOf program) a e := by
  rcases Option.bind_eq_some_iff.1 h with ⟨⟨above, n⟩, found, own⟩
  have here : (rootOf program).at? a = some n := by
    rw [← Script.node_occurrenceAt? [], found, Option.map_some]
  have around : above.reverse.map (·.node) = (rootOf program).around a :=
    Script.above_of_occurrenceAt? found
  have frames : framesAround above = ((rootOf program).around a).filterMap frame? := by
    rw [framesAround, ← around, List.filterMap_map]
    rfl
  cases n with
  | reference name use =>
      rcases Option.some.inj own with rfl
      exact .reference here
  | opening tag parts =>
      rcases Option.some.inj own with rfl
      exact .opening here
  | call callee arguments =>
      rcases Option.some.inj own with rfl
      refine .call here ?_
      show List.Forall₂ FrameOf _ (framesAround above)
      rw [frames]
      exact forall₂_frameOf _
  | _ => cases own

/-! ## The whole walk -/

theorem forall₂_filterMap {α β : Type} (f : α → Option β) (as : List α) :
    List.Forall₂ (fun a b => f a = some b) (as.filter fun a => (f a).isSome) (as.filterMap f) := by
  induction as with
  | nil => exact .nil
  | cons a more ih =>
      cases here : f a with
      | none => simpa [here] using ih
      | some b => simpa [here] using ih

/-- Of two members of an increasing list, the less one stands in front. -/
theorem pair_sublist {l : List Address} (increasing : l.Pairwise (· < ·)) {a b : Address}
    (ha : a ∈ l) (hb : b ∈ l) (less : a < b) : [a, b].Sublist l := by
  rcases List.append_of_mem ha with ⟨front, rest, rfl⟩
  have order := List.pairwise_append.1 increasing
  rcases List.mem_append.1 hb with before | after
  · exact absurd (order.2.2 b before a List.mem_cons_self) (List.lt_asymm less)
  · rcases List.mem_cons.1 after with rfl | after
    · exact absurd less (List.lt_irrefl b)
    · exact ((List.singleton_sublist.2 after).cons_cons a).trans (List.sublist_append_right _ _)

/-- From any stack on, a part of the walk comes back to it. -/
theorem walk_stack (scopes : List (List Script.Binding)) (position : Option ReadPosition) (n : Node)
    (stack : Stack) : (walk scopes position n stack).2 = stack :=
  congrArg Prod.snd (walk_eq n ⟨stack, scopes⟩ position)

/-- The rules are told of the beginning of a program, of every name that is used, every call and
every opening tag in it, and of the end, with an empty stack, as every part of the walk leaves the
stack that it began with. Each rule gets all that is told, whichever rules run beside it. -/
theorem programEvents_deliver (program : Program) :
    (∃ visited events, programEvents program = .enter :: events ++ [.exit 0] ∧
      List.Forall₂ (Announces (rootOf program)) visited events ∧
      visited.Pairwise (· < ·) ∧
      (∀ a, a ∈ visited ↔ ((rootOf program).at? a).any isAnnounced = true) ∧
      ∀ a i b, a ∈ visited → a ++ i :: b ∈ visited → [a, a ++ i :: b].Sublist visited) ∧
      (∀ scopes position n stack, (walk scopes position n stack).2 = stack) ∧
      ∀ file rules, runAll file program rules = rules.filterMap fun r =>
        (((programEvents program).foldl (r.onEvent program) .empty).finish r.reporting file).2 := by
  refine ⟨?_, walk_stack, fun file rules => runAll_eq file program rules⟩
  let visited := (rootOf program).addresses.filter fun a => (announcement? program a).isSome
  have increasing : visited.Pairwise (· < ·) := (rootOf program).addresses_increasing.filter _
  refine ⟨visited, _, programEvents_eq_announcements program, ?_, increasing, ?_, ?_⟩
  · have told := forall₂_filterMap (announcement? program) (rootOf program).addresses
    exact told.imp fun a e => announces_of_announcement?
  · intro a
    rw [List.mem_filter, Node.mem_addresses_iff, isSome_announcement?]
    cases (rootOf program).at? a <;> simp
  · intro a i b ha hb
    exact pair_sublist increasing ha hb (Node.lt_append_cons a i b)

example : programEvents ⟨[], [⟨0, .declarator (some "App") [] (some (.paren (.arrow
    [.call (.reference "f" .value) [.function none false [.call .this []]]])))⟩]⟩ =
      [.enter, .call (.reference "f" .value) [.declarator (some "App") true],
        .reference "f" (some .callee) true,
        .call .this [.declarator (some "App") true, .function none false], .exit 0] := by
  rfl

end Rules
end ClientBoundary
