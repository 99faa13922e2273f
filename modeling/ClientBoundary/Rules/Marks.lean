import ClientBoundary.Rules.Walk

/-!
# A walk with marks

The positions of names can be found without handing them down. Whatever reads an expression marks it
before the walk goes on, if it is a name, and the name takes its mark when the walk comes to it. The
body of an arrow function that is a single expression is met as a statement, but it is not read: the
function announces it, and a statement that is announced marks nothing.

Names and statements are told apart by their spans. The span of a node is given by its address,
which tells level by level to which child the way goes.

- `Marks`: the marks that are set and the bodies that are announced, with the stack of the walk;
- `Visit.mark`, `Visit.meet`, `Visit.announce`: what sets and takes them;
- `visit`, `visitProgram`: the walk.
-/

namespace ClientBoundary
namespace Rules

open Script (Node Binding Program)

variable {σ : Type} [DecidableEq σ]

/-! ## Lists of marks -/

/-- The number of the last entry of a kind. -/
def lastIndex? {α : Type} (p : α → Bool) (l : List α) : Option Nat :=
  (l.reverse.findIdx? p).map fun i => l.length - 1 - i

/-- A list without an entry, whose place goes to the last one. -/
def swapRemove {α : Type} (l : List α) (i : Nat) : List α :=
  match l.getLast? with
  | some last => (l.set i last).dropLast
  | none => []

/-- The address of the name that an expression is, up to parentheses. -/
def nameAddress? (a : List Nat) : Node → Option (List Nat)
  | .paren inner => nameAddress? (a ++ [0]) inner
  | .reference _ _ => some a
  | _ => none

/-- What a walk keeps. -/
structure Marks (σ : Type) where
  /-- The spans of names that are marked, with how they are read. -/
  reads : List (σ × ReadPosition)
  /-- The spans of the bodies that are announced, the latest one first. -/
  bodies : List σ
  stack : Stack
  deriving DecidableEq, Repr

namespace Marks

def none : Marks σ := ⟨[], [], []⟩

/-- Mark an expression, if it is a name. -/
def mark (span : List Nat → σ) (position : ReadPosition) (a : List Nat) (e : Node)
    (m : Marks σ) : Marks σ :=
  match nameAddress? a e with
  | some b => { m with reads := m.reads ++ [(span b, position)] }
  | Option.none => m

/-- Take the latest mark of a span. -/
def take (s : σ) (m : Marks σ) : Option ReadPosition × Marks σ :=
  match lastIndex? (fun r => decide (r.1 = s)) m.reads with
  | some i => (m.reads[i]?.map (·.2), { m with reads := swapRemove m.reads i })
  | Option.none => (Option.none, m)

/-- Meet a statement with a span. Unless it was announced last, it reads its expression. -/
def meet (span : List Nat → σ) (s : σ) (a : List Nat) (e : Node) (m : Marks σ) : Marks σ :=
  if m.bodies.head? = some s then { m with bodies := m.bodies.tail } else m.mark span .bare a e

end Marks

/-! ## Visits -/

namespace Visit

/-- A visit that only looks at the stack or changes it. -/
def onStack (v : Visit Stack) : Visit (Marks σ) := fun m =>
  let (events, stack) := v m.stack
  (events, { m with stack := stack })

/-- A name that takes its mark. -/
def name (s : σ) (text : String) (isGlobal : Bool) : Visit (Marks σ) := fun m =>
  let (position, m) := m.take s
  ([.reference text position isGlobal], m)

def mark (span : List Nat → σ) (position : ReadPosition) (a : List Nat) (e : Node) :
    Visit (Marks σ) :=
  change (.mark span position a e)

/-- A statement at an address, with the address of its expression. -/
def meet (span : List Nat → σ) (s : List Nat) (a : List Nat) (e : Node) : Visit (Marks σ) :=
  change (.meet span (span s) a e)

/-- The body of a function is announced. -/
def announce (s : σ) : Visit (Marks σ) :=
  change fun m => { m with bodies := s :: m.bodies }

end Visit

/-- A part of an arrow function that is a block. -/
def isBlock : Node → Bool
  | .scope .function _ => true
  | _ => false

/-- The number of the body of an arrow function among its parts, if it is a single expression. -/
def conciseBody? (parts : List Node) : Option Nat :=
  match parts.getLast? with
  | some body => if isBlock body then none else some (parts.length - 1)
  | none => none

mutual

/-- The visit of a node at an address, inside scopes. -/
def visit (span : List Nat → σ) (scopes : List (List Binding)) (a : List Nat) :
    Node → Visit (Marks σ)
  | .reference name use => .name (span a) name (isGlobal scopes name use)
  | .binding _ => .nothing
  | .this => .nothing
  | .super => .nothing
  | .string _ => .nothing
  | .paren inner => visit span scopes (a ++ [0]) inner
  | .member object _ =>
      .mark span .member (a ++ [0]) object ++ visit span scopes (a ++ [0]) object
  | .index object key =>
      .mark span .member (a ++ [0]) object ++ visit span scopes (a ++ [0]) object ++
        visit span scopes (a ++ [1]) key
  | .privateMember object _ =>
      .mark span .member (a ++ [0]) object ++ visit span scopes (a ++ [0]) object
  | .call callee arguments =>
      .onStack (.call callee) ++ .mark span .callee (a ++ [0]) callee ++
        visit span scopes (a ++ [0]) callee ++ visitAll span scopes a 1 arguments
  | .chain link => visit span scopes (a ++ [0]) link
  | .function name isDeclaration parts =>
      .onStack (.push (.function name isDeclaration)) ++ visitAll span scopes a 0 parts ++
        .onStack .pop
  | .arrow [.scope .function parts] =>
      let inside := Node.declared parts :: scopes
      match conciseBody? parts with
      | some i => .announce (span (a ++ [0] ++ [i])) ++ visitArrow span inside (a ++ [0]) 0 parts
      | none => visitArrow span inside (a ++ [0]) 0 parts
  | .arrow parts => visitAll span scopes a 0 parts
  | .declarator name target none =>
      .onStack (.push (declaratorFrame name none)) ++ visitAll span scopes a 0 target ++
        .onStack .pop
  | .declarator name target (some init) =>
      .mark span .init (a ++ [target.length]) init ++
        .onStack (.push (declaratorFrame name (some init))) ++ visitAll span scopes a 0 target ++
        visit span scopes (a ++ [target.length]) init ++ .onStack .pop
  | .opening tag parts =>
      .tell (.opening tag (Node.propNames parts)) ++ visitAll span scopes a 0 parts
  | .prop _ value => visitAll span scopes a 0 value
  | .statement expression =>
      .meet span a (a ++ [0]) expression ++ visit span scopes (a ++ [0]) expression
  | .scope _ parts => visitAll span (Node.declared parts :: scopes) a 0 parts
  | .group parts => visitAll span scopes a 0 parts

/-- The visits of children from a number on. -/
def visitAll (span : List Nat → σ) (scopes : List (List Binding)) (a : List Nat) (i : Nat) :
    List Node → Visit (Marks σ)
  | [] => .nothing
  | part :: more => visit span scopes (a ++ [i]) part ++ visitAll span scopes a (i + 1) more

/-- The visits of the parts of an arrow function: an expression that is its body is a statement. -/
def visitArrow (span : List Nat → σ) (scopes : List (List Binding)) (a : List Nat) (i : Nat) :
    List Node → Visit (Marks σ)
  | [] => .nothing
  | [body] =>
      if isBlock body then visit span scopes (a ++ [i]) body
      else .meet span (a ++ [i]) (a ++ [i]) body ++ visit span scopes (a ++ [i]) body
  | part :: next :: more =>
      visit span scopes (a ++ [i]) part ++ visitArrow span scopes a (i + 1) (next :: more)

end

/-- The walk over a program: its events, and what is kept at the end. -/
def visitProgram (span : List Nat → σ) (program : Program) : List Event × Marks σ :=
  let (events, m) := visitAll span (topScopes program) [] 0 program.parts .none
  (.enter :: events ++ [.exit m.stack.length], m)

end Rules
end ClientBoundary
