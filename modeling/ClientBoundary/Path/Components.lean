/-!
# Paths as components

A path text is a sequence of components: the root, a leading dot, parent steps and names. Repeated
and trailing slashes make no component, and neither does a dot, except at the front of a relative
path.
-/

namespace ClientBoundary
namespace Path

inductive Component where
  | root
  | here
  | parent
  | name (text : String)
  deriving DecidableEq, Repr

/-- The parts of a text between slashes. -/
def splitSlash : List Char → List (List Char)
  | [] => [[]]
  | c :: cs =>
      if c = '/' then
        [] :: splitSlash cs
      else
        match splitSlash cs with
        | [] => [[c]]
        | part :: parts => (c :: part) :: parts

/-- The component that a part between slashes makes, if any. -/
def ofPart (part : List Char) : Option Component :=
  if part = [] ∨ part = ['.'] then none
  else if part = ['.', '.'] then some .parent
  else some (.name (String.ofList part))

/-- The components of a path text. -/
def components (path : String) : List Component :=
  let parts := splitSlash path.toList
  let rest := parts.filterMap ofPart
  match path.toList, parts with
  | '/' :: _, _ => .root :: rest
  | _, ['.'] :: _ => .here :: rest
  | _, _ => rest

/-- Whether a path starts at the root. -/
def isAbsolute (path : String) : Bool :=
  path.toList.head? == some '/'

/-- The last component, when it is a name. -/
def fileName? (path : String) : Option String :=
  match (components path).getLast? with
  | some (.name text) => some text
  | _ => none

/-- A file name split at its last point; a name that has no point, or only one in front, has no
extension. -/
def splitExtension? (name : String) : Option (String × String) :=
  let reversed := name.toList.reverse
  let extension := reversed.takeWhile (· ≠ '.')
  match reversed.dropWhile (· ≠ '.') with
  | [] => none
  | [_] => none
  | _ :: stem => some (String.ofList stem.reverse, String.ofList extension.reverse)

/-- The text after the last point of the file name. -/
def extension? (path : String) : Option String :=
  ((fileName? path).bind splitExtension?).map (·.2)

/-- A path followed by a further part; an absolute part stands for itself. -/
def join (path part : String) : String :=
  if isAbsolute part then part
  else if path.isEmpty || path.toList.getLast? == some '/' then path ++ part
  else path ++ "/" ++ part

end Path
end ClientBoundary
