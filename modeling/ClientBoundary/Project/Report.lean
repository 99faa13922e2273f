import ClientBoundary.Project.Cache
import ClientBoundary.Project.Discovery
import ClientBoundary.Rules.Linter

/-!
# Linting a directory

Every script file below a directory is linted by itself: one that cannot be read or parsed is a
failure, and the others have their findings. Files and failures are listed in the order of their
paths relative to the directory.
-/

namespace ClientBoundary
namespace Project

open Rules (Config Failure Finding)

structure FileReport where
  path : String
  findings : List Finding

/-- A file that cannot be read or parsed, with the wording of the failure. -/
structure FileFailure where
  path : String
  error : String

structure Report where
  files : List FileReport
  failures : List FileFailure

namespace Report

def findingCount (r : Report) : Nat :=
  (r.files.flatMap (·.findings)).length

end Report

/-! ## Reading -/

/-- What the system says of a path that leads nowhere. -/
def noSuchFile : String := "No such file or directory (os error 2)"

/-- What the system says when a directory is read as a file. -/
def isADirectory : String := "Is a directory (os error 21)"

/-- The text of a file. -/
def readSource (tree : FileTree) (path : String) : Except Failure String :=
  match tree.find? path with
  | some (.file (.ok bytes)) =>
      match textOf? bytes with
      | some source => .ok source
      | none => .error .notText
  | some (.file (.error reason)) => .error (.unreadable reason)
  | some (.directory _) => .error (.unreadable isADirectory)
  | _ => .error (.unreadable noSuchFile)

/-! ## Linting -/

/-- Lint a file, from the cache where that holds; the tree changes with the cache. -/
def lintFile (config : Config) (cache : Option Cache) (tree : FileTree) (path : String) :
    FileTree × Except Failure (List Finding) :=
  match readSource tree path with
  | .error e => (tree, .error e)
  | .ok source =>
      match cache with
      | none => (tree, config.lint path source)
      | some c =>
          match c.get tree path source with
          | (tree, some findings) => (tree, .ok findings)
          | (tree, none) =>
              match config.lint path source with
              -- a failure is not stored
              | .error e => (tree, .error e)
              | .ok findings => (c.set tree path source findings, .ok findings)

/-- Lint files one after the other. -/
def lintFiles (config : Config) (cache : Option Cache) (root : String) :
    FileTree → List ScriptFile → FileTree × List (String × Except Failure (List Finding))
  | tree, [] => (tree, [])
  | tree, f :: more =>
      let (tree, outcome) := lintFile config cache tree f.path
      let (tree, outcomes) := lintFiles config cache root tree more
      (tree, (Path.relative root f.path, outcome) :: outcomes)

/-- The report of the outcomes for the files. -/
def Report.ofOutcomes (outcomes : List (String × Except Failure (List Finding))) : Report where
  files :=
    (outcomes.filterMap fun (path, outcome) =>
      match outcome with
      | .ok findings => some ⟨path, findings⟩
      | .error _ => none).mergeSort fun a b => a.path ≤ b.path
  failures :=
    (outcomes.filterMap fun (path, outcome) =>
      match outcome with
      | .ok _ => none
      | .error e => some ⟨path, e.message⟩).mergeSort fun a b => a.path ≤ b.path

/-- Lint the script files below a directory. -/
def lintDirectory (config : Config) (cache : Option Cache) (tree : FileTree) (root : String) :
    FileTree × Except Failure Report :=
  if (tree.find? root).any Entry.isDirectory then
    let (tree, outcomes) := lintFiles config cache root tree (findScripts tree root)
    (tree, .ok (.ofOutcomes outcomes))
  else
    (tree, .error (.notADirectory root))

end Project
end ClientBoundary
