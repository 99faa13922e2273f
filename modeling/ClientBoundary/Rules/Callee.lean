import ClientBoundary.Rules.Naming
import ClientBoundary.Rules.Walk

/-!
# Callees and components

- `isHookCallee`: whether a callee is a hook, plain or taken from the library's namespace;
- `calleeName?`: how a callee is displayed;
- `enclosingComponent?`: the innermost component around a call.
-/

namespace ClientBoundary
namespace Rules

open Script (Node)

def isReactNamespace (name : String) : Bool :=
  name = "React" || name = "react"

/-- Whether a callee is a hook or `React.` with a hook. -/
def isHookCallee (callee : Node) : Bool :=
  match callee.withoutParens with
  | .reference name _ => isHookName name
  | .member object property =>
      match object.withoutParens with
      | .reference name _ => isReactNamespace name && isHookName property
      | _ => false
  | _ => false

/-- The display name of a callee. A call stands for what it calls, and a key in brackets that is a
plain name stands like a member. -/
def calleeName? : Node → Option String
  | .reference name _ => some name
  | .this => some "this"
  | .super => some "super"
  | .member object property => (calleeName? object).map fun o => o ++ "." ++ property
  | .index object key =>
      match key with
      | .reference property _ => (calleeName? object).map fun o => o ++ "." ++ property
      | _ => none
  | .call callee _ => calleeName? callee
  | .chain (.call callee _) => calleeName? callee
  | .chain (.member object property) =>
      (calleeName? object).map fun o => o ++ "." ++ property
  | .paren inner => calleeName? inner
  | _ => none

/-- The component that a frame defines, if it defines one. -/
def Frame.component? : Frame → Option String
  | .function (some name) true => if isComponentName name then some name else none
  | .declarator (some name) true => if isComponentName name then some name else none
  | _ => none

/-- The innermost component among frames, the outermost first. -/
def enclosingComponent? (frames : List Frame) : Option String :=
  frames.reverse.findSome? Frame.component?

end Rules
end ClientBoundary
