import ClientBoundary.Script.Tree

/-!
# Walking a program

All rules see a program through one walk: a list of events in source order, a call or an opening
tag before everything inside it. The walk keeps a stack of the functions and declarators that it is
in: each is pushed before the walk goes into it and popped when it comes out.

- `ReadPosition`: where a name stands when using it means reading its value;
- `Frame`: a function or a declarator around an event;
- `Visit`: a part of a walk, which tells of events and changes what the walk keeps;
- `walk`, `programEvents`: the walk.
-/

namespace ClientBoundary
namespace Rules

open Script (Node Binding Use Program)

/-- Where a name is read. -/
inductive ReadPosition where
  /-- As the object of an access. -/
  | member
  | callee
  /-- As a whole statement. -/
  | bare
  /-- As the value of a declared variable. -/
  | init
  deriving DecidableEq, Repr

/-- A function or a declarator, the constructs that can define a component. -/
inductive Frame where
  | function (name : Option String) (isDeclaration : Bool)
  | declarator (name : Option String) (initIsArrow : Bool)
  deriving DecidableEq, Repr

inductive Event where
  | enter
  | reference (name : String) (position : Option ReadPosition) (isGlobal : Bool)
  /-- A call of a callee inside frames, the outermost first. -/
  | call (callee : Node) (frames : List Frame)
  /-- An opening tag with its plain name and the names of its plain attributes. -/
  | opening (tag : Option String) (props : List String)
  /-- The end, with the number of frames that are left. -/
  | exit (depth : Nat)
  deriving Repr

/-! ## Scopes -/

/-- Whether no scope declares a name for such a use. -/
def isGlobal (scopes : List (List Binding)) (name : String) (use : Use) : Bool :=
  scopes.all fun declared => !declared.any fun b => b.name = name && b.meaning.serves use

/-! ## Visits -/

/-- A part of a walk that keeps something: the events it tells of, and what it leaves. -/
def Visit (α : Type) : Type :=
  α → List Event × α

namespace Visit

variable {α : Type}

def nothing : Visit α := fun s => ([], s)

def append (v w : Visit α) : Visit α := fun s =>
  let (events, s) := v s
  let (more, s) := w s
  (events ++ more, s)

instance : Append (Visit α) := ⟨append⟩

def tell (e : Event) : Visit α := fun s => ([e], s)

def change (f : α → α) : Visit α := fun s => ([], f s)

end Visit

/-! ## The stack -/

/-- The frames that a walk is in, the outermost first. -/
abbrev Stack : Type := List Frame

namespace Stack

def push (f : Frame) (stack : Stack) : Stack := stack ++ [f]

def pop (stack : Stack) : Stack := stack.dropLast

end Stack

namespace Visit

/-- A call, with the stack as it is. -/
def call (callee : Node) : Visit Stack := fun stack => ([.call callee stack], stack)

def push (f : Frame) : Visit Stack := change (.push f)

def pop : Visit Stack := change .pop

end Visit

/-! ## The walk -/

/-- The frame of a declarator. -/
def declaratorFrame (name : Option String) (init : Option Node) : Frame :=
  .declarator name (init.any Node.isArrow)

mutual

/-- The visit of a part of the tree inside scopes, the innermost first. Parentheses hand on the
position they stand in. -/
def walk (scopes : List (List Binding)) (position : Option ReadPosition) : Node → Visit Stack
  | .reference name use => .tell (.reference name position (isGlobal scopes name use))
  | .binding _ => .nothing
  | .this => .nothing
  | .super => .nothing
  | .string _ => .nothing
  | .paren inner => walk scopes position inner
  | .member object _ => walk scopes (some .member) object
  | .index object key => walk scopes (some .member) object ++ walk scopes none key
  | .privateMember object _ => walk scopes (some .member) object
  -- a call is told before the names in its callee
  | .call callee arguments =>
      .call callee ++ walk scopes (some .callee) callee ++ walkAll scopes arguments
  | .chain link => walk scopes none link
  | .function name isDeclaration parts =>
      .push (.function name isDeclaration) ++ walkAll scopes parts ++ .pop
  -- an arrow has no frame of its own: its name is that of the declarator around it
  | .arrow parts => walkAll scopes parts
  | .declarator name target init =>
      .push (declaratorFrame name init) ++ walkAll scopes target ++ walkInit scopes init ++ .pop
  | .opening tag parts => .tell (.opening tag (Node.propNames parts)) ++ walkAll scopes parts
  | .prop _ value => walkAll scopes value
  | .statement expression => walk scopes (some .bare) expression
  | .scope _ parts => walkAll (Node.declared parts :: scopes) parts
  | .group parts => walkAll scopes parts

def walkAll (scopes : List (List Binding)) : List Node → Visit Stack
  | [] => .nothing
  | part :: more => walk scopes none part ++ walkAll scopes more

def walkInit (scopes : List (List Binding)) : Option Node → Visit Stack
  | none => .nothing
  | some value => walk scopes (some .init) value

end

/-- The scopes at the top level of a program. -/
def topScopes (p : Program) : List (List Binding) :=
  [Node.declared p.parts]

/-- The events of a program, from `enter` to `exit`. -/
def programEvents (p : Program) : List Event :=
  let (events, stack) := walkAll (topScopes p) p.parts []
  .enter :: events ++ [.exit stack.length]

end Rules
end ClientBoundary
