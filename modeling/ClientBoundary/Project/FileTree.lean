import ClientBoundary.Path.Components

/-!
# File trees

The files of a system from its root directory down, for a program that works in one of the
directories. A path leads from the root or from the working directory, and may lead through symbolic
links; what it leads to stands at a location, the names from the root down.

- `Entry`: files, directories and links;
- `Entry.follow?`: where the components of a path lead;
- `FileTree`: the root directory and the working directory;
- `FileTree.locate?`: the location that a path leads to;
- `FileTree.makeDirectories`, `FileTree.write`, `FileTree.remove`, `FileTree.makeLink`: the changes.
  A change that is not possible leaves the tree as it is.
-/

namespace ClientBoundary
namespace Project

open ClientBoundary.Path (Component components isAbsolute splitSlash)

/-- The bytes of a file, or what the system says when it cannot be read. -/
abbrev Content := Except String (List UInt8)

inductive Entry where
  | file (content : Content)
  /-- Entries in the order of their names. -/
  | directory (entries : List (String × Entry))
  | link (target : String)
  deriving Repr, Inhabited

/-- The names from the root down. -/
abbrev Location := List String

/-! ## Steps of a path -/

/-- Whether a path ends in a slash or in a dot. -/
def endsInside (path : String) : Bool :=
  match (splitSlash path.toList).getLast? with
  | some part => part = [] || part = ['.']
  | none => false

/-- The steps that a path takes: its components, and one that stays at the end of a path that ends
in a slash or in a dot. -/
def steps (path : String) : List Component :=
  if endsInside path then components path ++ [.here] else components path

/-- Where a path starts that is written at a location. -/
def origin (location : Location) (path : String) : Location :=
  if isAbsolute path then [] else location

namespace Entry

def isDirectory : Entry → Bool
  | .directory _ => true
  | _ => false

/-! ## Entries of a directory -/

/-- Put an entry under a name, in place of one that is there. -/
def putName (name : String) (e : Entry) : List (String × Entry) → List (String × Entry)
  | [] => [(name, e)]
  | (n, old) :: more =>
      if name < n then (name, e) :: (n, old) :: more
      else if name = n then (name, e) :: more
      else (n, old) :: putName name e more

def removeName (name : String) (entries : List (String × Entry)) : List (String × Entry) :=
  entries.filter (·.1 ≠ name)

/-- Change an entry under a name, if there is one. -/
def changeName (name : String) (f : Entry → Entry) (entries : List (String × Entry)) :
    List (String × Entry) :=
  entries.map fun (n, e) => if n = name then (n, f e) else (n, e)

/-! ## Locations -/

/-- The entry at a location. -/
def at? : Entry → Location → Option Entry
  | e, [] => some e
  | .directory entries, n :: more => (entries.lookup n).bind fun e => e.at? more
  | _, _ :: _ => none

/-- Change the entries of the directory at a location. -/
def changeAt (f : List (String × Entry) → List (String × Entry)) : Location → Entry → Entry
  | [], .directory entries => .directory (f entries)
  | n :: more, .directory entries => .directory (changeName n (changeAt f more) entries)
  | _, e => e

/-! ## Following a path -/

/-- How far a path leads. -/
inductive Reach where
  | found (location : Location)
  | missing
  /-- A link in a directory, and the components after it. -/
  | link (start : Location) (target : String) (rest : List Component)

/-- Follow components from a location up to the first link. All of them are steps in a directory.
The root comes first in a path that starts at the root, and stays there. -/
def reach (top : Entry) (location : Location) : List Component → Reach
  | [] => .found location
  | .root :: rest | .here :: rest =>
      if (top.at? location).any isDirectory then reach top location rest else .missing
  -- above the root there is the root again
  | .parent :: rest =>
      if (top.at? location).any isDirectory then reach top location.dropLast rest else .missing
  | .name n :: rest =>
      match top.at? (location ++ [n]) with
      | none => .missing
      | some (.link target) => .link location target rest
      | some _ => reach top (location ++ [n]) rest

/-- Follow components through fewer than so many links. -/
def follow? (top : Entry) : Nat → Location → List Component → Option Location
  | 0, _, _ => none
  | links + 1, location, path =>
      match reach top location path with
      | .found l => some l
      | .missing => none
      | .link start target rest => follow? top links (origin start target) (steps target ++ rest)

/-- A path that leads through so many links leads nowhere. -/
def linkLimit : Nat := 41

/-! ## Changes along a path -/

/-- Make the directories that are missing on the way. -/
def makeFrom (top : Entry) (location : Location) : List Component → Entry
  | [] => top
  | c :: rest =>
      match follow? top linkLimit location [c] with
      | some l => if (top.at? l).any isDirectory then makeFrom top l rest else top
      | none =>
          match c with
          | .name n =>
              -- a link that leads nowhere is in the way of a directory
              if (top.at? (location ++ [n])).isSome then top
              else
                makeFrom (changeAt (putName n (.directory [])) location top) (location ++ [n]) rest
          | _ => top

/-- The directory of the last component of a path, and its name. -/
def splitLast? (path : List Component) : Option (List Component × String) :=
  match path.getLast? with
  | some (.name n) => some (path.dropLast, n)
  | _ => none

/-- Write a file; a link in its place is followed, fewer than so many times. A file that cannot be
read is not written either. -/
def writeFrom (top : Entry) (bytes : List UInt8) : Nat → Location → List Component → Entry
  | 0, _, _ => top
  | links + 1, location, path =>
      match splitLast? path with
      | none => top
      | some (parents, n) =>
          match follow? top linkLimit location parents with
          | none => top
          | some l =>
              match top.at? (l ++ [n]) with
              | some (.directory _) => top
              | some (.file (.error _)) => top
              | some (.link target) =>
                  writeFrom top bytes links (origin l target) (steps target)
              | _ => changeAt (putName n (.file (.ok bytes))) l top

/-- Change the directory that holds the last component of a path. -/
def changeFrom (top : Entry) (location : Location) (path : List Component)
    (f : String → List (String × Entry) → List (String × Entry)) : Entry :=
  match splitLast? path with
  | none => top
  | some (parents, n) =>
      match follow? top linkLimit location parents with
      | none => top
      | some l => changeAt (f n) l top

end Entry

open Entry

/-- The root directory of a system, and the directory that a program works in. -/
structure FileTree where
  top : Entry
  working : Location
  deriving Repr, Inhabited

namespace FileTree

/-! ## Paths -/

/-- The entry at a location. -/
abbrev at? (tree : FileTree) (l : Location) : Option Entry :=
  tree.top.at? l

/-- Where a path starts. -/
abbrev start (tree : FileTree) (path : String) : Location :=
  origin tree.working path

/-- The location that a path leads to. The empty path leads nowhere. -/
def locate? (tree : FileTree) (path : String) : Option Location :=
  if path.isEmpty then none else follow? tree.top linkLimit (tree.start path) (steps path)

/-- The entry that a path leads to. -/
def find? (tree : FileTree) (path : String) : Option Entry :=
  (tree.locate? path).bind tree.at?

/-- The bytes of the file that a path leads to, if they can be read. -/
def bytes? (tree : FileTree) (path : String) : Option (List UInt8) :=
  match tree.find? path with
  | some (.file (.ok bytes)) => some bytes
  | _ => none

/-- The names in the directory that a path leads to. -/
def names? (tree : FileTree) (path : String) : Option (List String) :=
  match tree.find? path with
  | some (.directory entries) => some (entries.map (·.1))
  | _ => none

/-! ## Changes -/

def makeDirectories (tree : FileTree) (path : String) : FileTree :=
  { tree with top := makeFrom tree.top (tree.start path) (components path) }

/-- Make the directories around the last component of a path. -/
def makeParents (tree : FileTree) (path : String) : FileTree :=
  { tree with top := makeFrom tree.top (tree.start path) (components path).dropLast }

/-- Write a file into a directory that exists. -/
def write (tree : FileTree) (path : String) (bytes : List UInt8) : FileTree :=
  { tree with top := writeFrom tree.top bytes linkLimit (tree.start path) (steps path) }

/-- Remove the file or the link of a path, but no directory. -/
def remove (tree : FileTree) (path : String) : FileTree :=
  { tree with
    top := changeFrom tree.top (tree.start path) (steps path) fun n entries =>
      if (entries.lookup n).any isDirectory then entries else removeName n entries }

/-- Make a link where nothing is. -/
def makeLink (tree : FileTree) (path target : String) : FileTree :=
  { tree with
    top := changeFrom tree.top (tree.start path) (steps path) fun n entries =>
      if (entries.lookup n).isSome then entries else putName n (.link target) entries }

end FileTree
end Project
end ClientBoundary
