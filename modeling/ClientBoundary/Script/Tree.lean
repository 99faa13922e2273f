/-!
# Script trees

The tree of a program tells apart what the rules look at: names, accesses, calls, functions,
declarators, markup tags and scopes. Every other construct is a group of its parts, which stand in
source order.

- `Binding`, `Use`: what a declaration makes of a name, and how a name is used;
- `Node`: the tree;
- `Node.bindings`: the names that a part of the tree declares for the scope around it.
-/

namespace ClientBoundary
namespace Script

/-! ## Names -/

/-- What a declaration makes of a name. -/
inductive Meaning where
  | value
  | type
  | valueAndType
  /-- Imported for use in types only. -/
  | importedType
  deriving DecidableEq, Repr

/-- How a name is used. -/
inductive Use where
  | value
  | type
  /-- The value whose type is asked for. -/
  | typeQuery
  | exported
  deriving DecidableEq, Repr

/-- Whether a use of a name can mean a declaration of that kind. -/
def Meaning.serves : Meaning → Use → Bool
  | .value, .type => false
  | .value, _ => true
  | .type, .value => false
  | .type, .typeQuery => false
  | .type, _ => true
  | .valueAndType, _ => true
  | .importedType, .value => false
  | .importedType, _ => true

/-- A declared name. A hoisted one belongs to the function around it, not to the block. -/
structure Binding where
  name : String
  meaning : Meaning
  hoisted : Bool
  deriving DecidableEq, Repr

inductive ScopeKind where
  | block
  | function
  deriving DecidableEq, Repr

/-! ## Trees -/

inductive Node where
  | reference (name : String) (use : Use)
  | binding (b : Binding)
  | this
  | super
  | string (value : String)
  | paren (inner : Node)
  /-- `object.property` -/
  | member (object : Node) (property : String)
  /-- `object[key]` -/
  | index (object : Node) (key : Node)
  /-- `object.#name` -/
  | privateMember (object : Node) (name : String)
  | call (callee : Node) (arguments : List Node)
  /-- A chain of accesses and calls with an optional link in it. -/
  | chain (link : Node)
  | function (name : Option String) (isDeclaration : Bool) (parts : List Node)
  | arrow (parts : List Node)
  /-- A declared variable: its name if it is a plain one, the parts of its target, its value. -/
  | declarator (name : Option String) (target : List Node) (init : Option Node)
  /-- The opening tag of an element: its name if it is a plain one, and its parts. -/
  | opening (tag : Option String) (parts : List Node)
  /-- An attribute of a tag with a plain name. -/
  | prop (name : String) (value : List Node)
  /-- An expression that stands as a statement. -/
  | statement (expression : Node)
  | scope (kind : ScopeKind) (parts : List Node)
  | group (parts : List Node)
  deriving Repr, Inhabited

namespace Node

/-- An expression without the parentheses around it. -/
def withoutParens : Node → Node
  | .paren inner => inner.withoutParens
  | e => e

/-- A fact that parentheses keep holds of an expression if it holds of what they are around. -/
@[elab_as_elim]
theorem of_withoutParens {motive : Node → Prop} (e : Node)
    (paren : ∀ inner, motive inner → motive (.paren inner)) (bare : motive e.withoutParens) :
    motive e := by
  fun_induction withoutParens e with
  | case1 inner ih => exact paren inner (ih bare)
  | case2 e _ => exact bare

/-- Whether an expression is an arrow function, up to parentheses. -/
def isArrow (e : Node) : Bool :=
  match e.withoutParens with
  | .arrow _ => true
  | _ => false

/-- The names of the plain attributes among the parts of an opening tag. -/
def propNames (parts : List Node) : List String :=
  parts.filterMap fun
    | .prop name _ => some name
    | _ => none

mutual

/-- The names that a part of the tree declares for the scope around it. From inside a nested block
only the hoisted ones count, and none from inside a function. -/
def bindings (nested : Bool) : Node → List Binding
  | .binding b => if nested && !b.hoisted then [] else [b]
  | .reference _ _ => []
  | .this => []
  | .super => []
  | .string _ => []
  | .paren inner => inner.bindings nested
  | .member object _ => object.bindings nested
  | .index object key => object.bindings nested ++ key.bindings nested
  | .privateMember object _ => object.bindings nested
  | .call callee arguments => callee.bindings nested ++ allBindings nested arguments
  | .chain link => link.bindings nested
  | .function _ _ parts => allBindings nested parts
  | .arrow parts => allBindings nested parts
  | .declarator _ target init => allBindings nested target ++ optionalBindings nested init
  | .opening _ parts => allBindings nested parts
  | .prop _ value => allBindings nested value
  | .statement expression => expression.bindings nested
  | .scope .block parts => allBindings true parts
  | .scope .function _ => []
  | .group parts => allBindings nested parts

def allBindings (nested : Bool) : List Node → List Binding
  | [] => []
  | part :: more => part.bindings nested ++ allBindings nested more

def optionalBindings (nested : Bool) : Option Node → List Binding
  | none => []
  | some part => part.bindings nested

end

/-- The names that a scope declares. -/
def declared (parts : List Node) : List Binding :=
  allBindings false parts

end Node

/-! ## Programs -/

/-- A leading string statement. -/
structure Directive where
  value : String
  start : Nat
  deriving Repr

/-- A statement of the top level, with the offset of its first character. -/
structure Item where
  start : Nat
  node : Node
  deriving Repr

structure Program where
  directives : List Directive
  body : List Item
  deriving Repr

namespace Program

/-- The offset of the first directive or statement; zero in an empty program. -/
def start (p : Program) : Nat :=
  match p.directives, p.body with
  | d :: _, _ => d.start
  | [], item :: _ => item.start
  | [], [] => 0

def parts (p : Program) : List Node :=
  p.body.map (·.node)

end Program
end Script
end ClientBoundary
