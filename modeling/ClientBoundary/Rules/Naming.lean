/-!
# Shapes of names

What a name says about the thing it names: a component starts with a capital letter, a hook with
`use`, a native tag with a small letter and an event handler with `on` and a capital letter. Only
ASCII letters count.
-/

namespace ClientBoundary
namespace Rules

def isCapital (c : Char) : Bool :=
  'A' ≤ c && c ≤ 'Z'

def isSmall (c : Char) : Bool :=
  'a' ≤ c && c ≤ 'z'

def isDigit (c : Char) : Bool :=
  '0' ≤ c && c ≤ '9'

/-- A capital letter, then letters and digits. -/
def isComponentName (name : String) : Bool :=
  match name.toList with
  | c :: cs => isCapital c && cs.all fun d => isCapital d || isSmall d || isDigit d
  | [] => false

/-- `use` alone, or followed by a capital letter or a digit. -/
def isHookName (name : String) : Bool :=
  match name.toList with
  | ['u', 's', 'e'] => true
  | 'u' :: 's' :: 'e' :: c :: _ => isCapital c || isDigit c
  | _ => false

/-- A tag of the host rather than a component. -/
def isNativeTag (tag : String) : Bool :=
  match tag.toList with
  | c :: _ => isSmall c
  | [] => false

/-- `on` followed by a capital letter. -/
def isEventHandlerName (name : String) : Bool :=
  match name.toList with
  | 'o' :: 'n' :: c :: _ => isCapital c
  | _ => false

end Rules
end ClientBoundary
