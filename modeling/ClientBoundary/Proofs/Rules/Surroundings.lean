import ClientBoundary.Proofs.Script.Occurrence
import ClientBoundary.Rules.Walk
import Mathlib.Data.List.Basic

/-!
# Events from what is around a node

The walk pushes frames and pops them again, and hands down scopes and a position. A part of the walk
leaves the stack as it was, so the frames can be handed down as well. Then all of this is read off
the nodes above an occurrence instead, so that an event of the walk says where its node stands.

- `Place`, `nodeEvents`: the walk with its frames handed down;
- `walk_eq`: the events of a part of the walk, and the stack that it leaves;
- `outerSlot?`: the slot of a node outside the parentheses around it;
- `framesAround`, `scopesAround`: the frames and the scopes that contain a node;
- `programEvents_eq`: the walk passes the occurrences in pre-order, each with what is around it.
-/

namespace ClientBoundary
namespace Rules

open Script (Node Binding Program Slot Step Occurrence occurrences preorder)

/-! ## Frames handed down -/

/-- What is around a part of the tree: frames, the outermost first, and the names declared by the
scopes, the innermost first. -/
structure Place where
  frames : Stack
  scopes : List (List Binding)

namespace Place

def push (p : Place) (f : Frame) : Place :=
  { p with frames := p.frames.push f }

def enter (p : Place) (declared : List Binding) : Place :=
  { p with scopes := declared :: p.scopes }

end Place

mutual

/-- The events of a part of the tree at a place. -/
def nodeEvents (p : Place) (position : Option ReadPosition) : Node → List Event
  | .reference name use => [.reference name position (isGlobal p.scopes name use)]
  | .binding _ => []
  | .this => []
  | .super => []
  | .string _ => []
  | .paren inner => nodeEvents p position inner
  | .member object _ => nodeEvents p (some .member) object
  | .index object key => nodeEvents p (some .member) object ++ nodeEvents p none key
  | .privateMember object _ => nodeEvents p (some .member) object
  | .call callee arguments =>
      .call callee p.frames :: nodeEvents p (some .callee) callee ++ listEvents p arguments
  | .chain link => nodeEvents p none link
  | .function name isDeclaration parts => listEvents (p.push (.function name isDeclaration)) parts
  | .arrow parts => listEvents p parts
  | .declarator name target init =>
      let inside := p.push (declaratorFrame name init)
      listEvents inside target ++ initEvents inside init
  | .opening tag parts => .opening tag (Node.propNames parts) :: listEvents p parts
  | .prop _ value => listEvents p value
  | .statement expression => nodeEvents p (some .bare) expression
  | .scope _ parts => listEvents (p.enter (Node.declared parts)) parts
  | .group parts => listEvents p parts

def listEvents (p : Place) : List Node → List Event
  | [] => []
  | part :: more => nodeEvents p none part ++ listEvents p more

def initEvents (p : Place) : Option Node → List Event
  | none => []
  | some value => nodeEvents p (some .init) value

end

/-- The place of the top level of a program. -/
def topPlace (p : Program) : Place :=
  ⟨[], topScopes p⟩

namespace Visit

theorem append_eq {α : Type} {v w : Visit α} {s t u : α} {events more : List Event}
    (first : v s = (events, t)) (second : w t = (more, u)) : (v ++ w) s = (events ++ more, u) := by
  show append v w s = _
  simp only [append, first, second]

theorem pop_push (f : Frame) (stack : Stack) : pop (stack.push f) = ([], stack) := by
  have popped : Stack.pop (stack.push f) = stack := List.dropLast_concat
  rw [pop, change, popped]

/-- What is pushed before a visit is what is popped after it. -/
theorem framed_eq {f : Frame} {v : Visit Stack} {stack : Stack} {events : List Event}
    (h : v (stack.push f) = (events, stack.push f)) :
    (push f ++ v ++ pop) stack = (events, stack) := by
  have all := append_eq (append_eq (show push f stack = ([], stack.push f) from rfl) h)
    (pop_push f stack)
  rwa [List.nil_append, List.append_nil] at all

theorem append_assoc {α : Type} (u v w : Visit α) : u ++ v ++ w = u ++ (v ++ w) := by
  funext s
  show ((u s).1 ++ (v (u s).2).1 ++ (w (v (u s).2).2).1, _) = _
  rw [List.append_assoc]
  rfl

end Visit

mutual

/-- A part of the walk leaves the stack as it was, and its calls are told of with what was on
it. -/
theorem walk_eq : ∀ (n : Node) (p : Place) (position : Option ReadPosition),
    walk p.scopes position n p.frames = (nodeEvents p position n, p.frames)
  | .reference _ _, p, position | .binding _, p, position | .this, p, position
  | .super, p, position | .string _, p, position => by
      rw [walk, nodeEvents]
      rfl
  | .paren inner, p, position => by
      rw [walk, nodeEvents]
      exact walk_eq inner p position
  | .member object _, p, position | .privateMember object _, p, position => by
      rw [walk, nodeEvents]
      exact walk_eq object p _
  | .index object key, p, position => by
      rw [walk, nodeEvents]
      exact Visit.append_eq (walk_eq object p _) (walk_eq key p _)
  | .call callee arguments, p, position => by
      have told : Visit.call callee p.frames = ([.call callee p.frames], p.frames) := rfl
      rw [walk, nodeEvents]
      exact Visit.append_eq (Visit.append_eq told (walk_eq callee p _)) (walkAll_eq arguments p)
  | .chain link, p, position => by
      rw [walk, nodeEvents]
      exact walk_eq link p _
  | .function name isDeclaration parts, p, position => by
      rw [walk, nodeEvents]
      exact Visit.framed_eq (walkAll_eq parts (p.push (.function name isDeclaration)))
  | .arrow parts, p, position | .prop _ parts, p, position | .group parts, p, position => by
      rw [walk, nodeEvents]
      exact walkAll_eq parts p
  | .declarator name target init, p, position => by
      let inside := p.push (declaratorFrame name init)
      rw [walk, nodeEvents, Visit.append_assoc (.push _)]
      exact Visit.framed_eq (Visit.append_eq (walkAll_eq target inside) (walkInit_eq init inside))
  | .opening tag parts, p, position => by
      rw [walk, nodeEvents]
      exact Visit.append_eq rfl (walkAll_eq parts p)
  | .statement expression, p, position => by
      rw [walk, nodeEvents]
      exact walk_eq expression p _
  | .scope _ parts, p, position => by
      rw [walk, nodeEvents]
      exact walkAll_eq parts (p.enter (Node.declared parts))

theorem walkAll_eq : ∀ (parts : List Node) (p : Place),
    walkAll p.scopes parts p.frames = (listEvents p parts, p.frames)
  | [], p => by
      rw [walkAll, listEvents]
      rfl
  | part :: more, p => by
      rw [walkAll, listEvents]
      exact Visit.append_eq (walk_eq part p none) (walkAll_eq more p)

theorem walkInit_eq : ∀ (init : Option Node) (p : Place),
    walkInit p.scopes init p.frames = (initEvents p init, p.frames)
  | none, p => by
      rw [walkInit, initEvents]
      rfl
  | some value, p => by
      rw [walkInit, initEvents]
      exact walk_eq value p _

end

/-- At the end of a program no frame is left. -/
theorem programEvents_eq_listEvents (program : Program) :
    programEvents program = .enter :: listEvents (topPlace program) program.parts ++ [.exit 0] := by
  have walked : walkAll (topScopes program) program.parts [] =
      (listEvents (topPlace program) program.parts, []) :=
    walkAll_eq program.parts (topPlace program)
  rw [programEvents, walked]
  rfl

/-! ## What is around an occurrence -/

/-- The slot in which a node stands, with the parentheses around it. -/
def outerSlot? : List Step → Option Slot
  | [] => none
  | s :: above => if s.slot = .parenthesized then outerSlot? above else some s.slot

/-- The way in which a name is read in a slot. -/
def readIn? : Slot → Option ReadPosition
  | .object => some .member
  | .callee => some .callee
  | .wholeStatement => some .bare
  | .initializer => some .init
  | .parenthesized => none
  | .part => none

def positionOf (above : List Step) : Option ReadPosition :=
  (outerSlot? above).bind readIn?

/-- The frame that a node makes for what is inside it. -/
def frame? : Node → Option Frame
  | .function name isDeclaration _ => some (.function name isDeclaration)
  | .declarator name _ init => some (declaratorFrame name init)
  | _ => none

/-- The frames around an occurrence, the outermost first. -/
def framesAround (above : List Step) : Stack :=
  above.reverse.filterMap fun s => frame? s.node

/-- The parts of a scope. -/
def scopeParts? : Node → Option (List Node)
  | .scope _ parts => some parts
  | _ => none

/-- The parts of the scopes around an occurrence, the innermost first; `top` is the top level. -/
def scopesAround (top : List Node) (above : List Step) : List (List Node) :=
  (above.filterMap fun s => scopeParts? s.node) ++ [top]

def placeOf (top : List Node) (above : List Step) : Place :=
  ⟨framesAround above, (scopesAround top above).map Node.declared⟩

/-! ## One step of the walk -/

/-- The place of the children of a node. -/
def Place.below (p : Place) (n : Node) : Place :=
  ⟨p.frames ++ (frame? n).toList, ((scopeParts? n).map Node.declared).toList ++ p.scopes⟩

/-- The position of a child: parentheses hand on their own. -/
def positionBelow (position : Option ReadPosition) (slot : Slot) : Option ReadPosition :=
  if slot = .parenthesized then position else readIn? slot

/-- The event of a node itself. -/
def ownEvent? (p : Place) (position : Option ReadPosition) : Node → Option Event
  | .reference name use => some (.reference name position (isGlobal p.scopes name use))
  | .call callee _ => some (.call callee p.frames)
  | .opening tag parts => some (.opening tag (Node.propNames parts))
  | _ => none

theorem placeOf_cons (top : List Node) (s : Step) (above : List Step) :
    placeOf top (s :: above) = (placeOf top above).below s.node := by
  have frames : framesAround (s :: above) = framesAround above ++ (frame? s.node).toList := by
    cases h : frame? s.node <;> simp [framesAround, h]
  have scopes : scopesAround top (s :: above) =
      (scopeParts? s.node).toList ++ scopesAround top above := by
    cases h : scopeParts? s.node <;> simp [scopesAround, h]
  rw [placeOf, frames, scopes]
  cases h : scopeParts? s.node <;> simp [placeOf, Place.below, h]

theorem positionOf_cons (s : Step) (above : List Step) :
    positionOf (s :: above) = positionBelow (positionOf above) s.slot := by
  by_cases h : s.slot = .parenthesized <;> simp [positionOf, outerSlot?, positionBelow, h]

theorem listEvents_eq (p : Place) (parts : List Node) :
    listEvents p parts = (Node.asParts parts).flatMap fun child => nodeEvents p none child.2 := by
  induction parts with
  | nil => simp [listEvents, Node.asParts]
  | cons part more ih =>
      rw [listEvents, ih]
      simp [Node.asParts]

theorem initEvents_eq (p : Place) (init : Option Node) :
    initEvents p init = init.toList.flatMap (nodeEvents p (some .init)) := by
  cases init <;> simp [initEvents]

/-- The events of a node are its own and then those of its children. -/
theorem nodeEvents_step (p : Place) (position : Option ReadPosition) (n : Node) :
    nodeEvents p position n =
      (ownEvent? p position n).toList ++ n.children.flatMap fun child =>
        nodeEvents (p.below n) (positionBelow position child.1) child.2 := by
  have parts (q : Place) (ns : List Node) :
      ((Node.asParts ns).flatMap fun child =>
        nodeEvents q (positionBelow position child.1) child.2) = listEvents q ns := by
    rw [listEvents_eq]
    simp [Node.asParts, List.flatMap_map, positionBelow, readIn?]
  -- declarators, functions and scopes change the place of what is inside them, no other node does
  cases n with
  | declarator name target init =>
      have inside : p.below (.declarator name target init) =
          p.push (declaratorFrame name init) := by
        simp [Place.below, Place.push, Stack.push, frame?, scopeParts?]
      rw [inside, Node.children, List.flatMap_append, parts, nodeEvents, initEvents_eq]
      simp [ownEvent?, List.flatMap_map, positionBelow, readIn?]
  | function name isDeclaration ns =>
      have inside : p.below (.function name isDeclaration ns) =
          p.push (.function name isDeclaration) := by
        simp [Place.below, Place.push, Stack.push, frame?, scopeParts?]
      rw [inside, Node.children, parts, nodeEvents]
      simp [ownEvent?]
  | scope kind ns =>
      have inside : p.below (.scope kind ns) = p.enter (Node.declared ns) := by
        simp [Place.below, Place.enter, frame?, scopeParts?]
      rw [inside, Node.children, parts, nodeEvents]
      simp [ownEvent?]
  | call callee arguments =>
      rw [Node.children, List.flatMap_cons, parts, nodeEvents]
      simp [ownEvent?, Place.below, frame?, scopeParts?, positionBelow, readIn?]
  | arrow ns =>
      rw [Node.children, parts, nodeEvents]
      simp [ownEvent?, Place.below, frame?, scopeParts?]
  | opening tag ns =>
      rw [Node.children, parts, nodeEvents]
      simp [ownEvent?, Place.below, frame?, scopeParts?]
  | prop name ns =>
      rw [Node.children, parts, nodeEvents]
      simp [ownEvent?, Place.below, frame?, scopeParts?]
  | group ns =>
      rw [Node.children, parts, nodeEvents]
      simp [ownEvent?, Place.below, frame?, scopeParts?]
  | chain link =>
      rw [Node.children, parts, nodeEvents]
      simp [ownEvent?, Place.below, frame?, scopeParts?, listEvents]
  | _ =>
      simp [nodeEvents, ownEvent?, Node.children, Place.below, frame?, scopeParts?, positionBelow,
        readIn?]

/-! ## The whole walk -/

/-- The event of an occurrence in trees that stand at the top level `top`. -/
def eventAt? (top : List Node) (o : Occurrence) : Option Event :=
  ownEvent? (placeOf top o.above) (positionOf o.above) o.node

theorem nodeEvents_eq (top : List Node) (n : Node) :
    ∀ above : List Step, nodeEvents (placeOf top above) (positionOf above) n =
      (preorder above n).filterMap (eventAt? top) := by
  induction n using Node.childInduction with
  | step n ih =>
      intro above
      have below : ∀ child ∈ n.children,
          nodeEvents ((placeOf top above).below n) (positionBelow (positionOf above) child.1)
              child.2 =
            (preorder (⟨n, child.1⟩ :: above) child.2).filterMap (eventAt? top) := by
        intro child mem
        rw [← ih child mem, placeOf_cons, positionOf_cons]
      rw [nodeEvents_step, Script.preorder_eq, List.filterMap_cons, List.filterMap_flatMap,
        List.flatMap_congr below]
      cases h : eventAt? top ⟨above, n⟩ <;> simp_all [eventAt?]

/-- The walk passes the occurrences in pre-order, each with what is around it, and ends outside all
frames. -/
theorem programEvents_eq (program : Program) :
    programEvents program =
      .enter :: (occurrences program.parts).filterMap (eventAt? program.parts) ++ [.exit 0] := by
  have place : topPlace program = placeOf program.parts [] := by
    simp [topPlace, topScopes, placeOf, framesAround, scopesAround]
  have parts : listEvents (topPlace program) program.parts =
      (occurrences program.parts).filterMap (eventAt? program.parts) := by
    rw [place, listEvents_eq, occurrences, List.filterMap_flatMap, Node.asParts, List.flatMap_map]
    exact List.flatMap_congr fun n _ => nodeEvents_eq program.parts n []
  rw [programEvents_eq_listEvents, parts]

end Rules
end ClientBoundary
