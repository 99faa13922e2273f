import ClientBoundary.Project.FileTree

/-!
# Finding script files

The script files below a directory. Links are followed, except back to a directory that the walk
is in. Directories of dependencies and those whose name starts with a point are not entered, the
directory where the walk starts apart.
-/

namespace ClientBoundary
namespace Project

/-- The extensions of script files. -/
def scriptExtensions : List String :=
  ["js", "jsx", "ts", "tsx", "mjs", "cjs", "mts", "cts"]

def isScriptFile (path : String) : Bool :=
  (Path.extension? path).any scriptExtensions.contains

/-- Whether a directory of that name is passed over. -/
def isSkippedName (name : String) : Bool :=
  name = "node_modules" || name.toList.head? == some '.'

/-- A script file: the names below the start of the walk, and the path that leads to it. -/
structure ScriptFile where
  names : List String
  path : String
  deriving DecidableEq, Repr

/-- What a walk meets under a name: the location and the entry, a link already followed along the
whole path. A link that leads nowhere or back to an open directory is passed over. -/
def meets? (tree : FileTree) (opened : List Location) (location : Location) (path name : String)
    (e : Entry) : Option (Location × Entry) :=
  match e with
  | .link _ =>
      match tree.locate? (Path.join path name) with
      | none => none
      | some l =>
          match tree.at? l with
          | some (.directory entries) =>
              -- what is below would be met again without an end
              if opened.contains l then none else some (l, .directory entries)
          | some other => some (l, other)
          | none => none
  | _ => some (location ++ [name], e)

/-- The script files below the directory at a location. `opened` are the directories that the walk
is in; `fuel` bounds their number. -/
def walk (tree : FileTree) :
    Nat → List Location → Location → List String → String → List (String × Entry) →
      List ScriptFile
  | 0, _, _, _, _, _ => []
  | fuel + 1, opened, location, names, path, entries =>
      entries.flatMap fun (name, e) =>
        let here := Path.join path name
        match meets? tree opened location path name e with
        | some (_, .file _) => if isScriptFile here then [⟨names ++ [name], here⟩] else []
        | some (l, .directory inner) =>
            -- a link to a directory goes by its own name, whatever that one is called
            if isSkippedName name then []
            else walk tree fuel (l :: opened) l (names ++ [name]) here inner
        | _ => []

mutual

/-- The number of directories of a tree. -/
def directoryCount : Entry → Nat
  | .directory entries => 1 + directoryCounts entries
  | _ => 0

def directoryCounts : List (String × Entry) → Nat
  | [] => 0
  | (_, e) :: more => directoryCount e + directoryCounts more

end

/-- More directories than a walk can be in: between two links it goes down the tree, and no link
leads to a directory that it is in. -/
def walkBound (tree : FileTree) : Nat :=
  (directoryCount tree.top + 1) * (directoryCount tree.top + 1) + 1

/-- Order by names, one after the other. -/
def namesLe : List String → List String → Bool
  | [], _ => true
  | _ :: _, [] => false
  | a :: as, b :: bs => a < b || (a = b && namesLe as bs)

/-- The script files below a path, in the order of their components. A path that leads to a file
stands for that file. -/
def findScripts (tree : FileTree) (root : String) : List ScriptFile :=
  match tree.locate? root with
  | none => []
  | some l =>
      match tree.at? l with
      | some (.directory entries) =>
          (walk tree (walkBound tree) [l] l [] root entries).mergeSort
            fun a b => namesLe a.names b.names
      | some (.file _) => if isScriptFile root then [⟨[], root⟩] else []
      | _ => []

end Project
end ClientBoundary
