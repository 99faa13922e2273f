import ClientBoundary.Rules.Directives
import ClientBoundary.Rules.Finding

/-!
# Collecting causes

While a rule walks a file it collects causes, each of them once, in the order in which they are
found. A leading directive ends the collection before it begins.

- `Collector`: the state, with `enter`, `add` and `finish`;
- `FileInfo`: what a finding says about the file.
-/

namespace ClientBoundary
namespace Rules

inductive Phase where
  | scanning
  | directiveFound
  | done
  deriving DecidableEq, Repr

/-- What a finding says about a file: its path, the location of its first node and the offset of
that node. -/
structure FileInfo where
  path : String
  start : Nat
  location : Text.Location
  deriving DecidableEq, Repr

/-- What is known of a file once it is read. -/
def FileInfo.of (path source : String) (program : Script.Program) : FileInfo :=
  ⟨path, program.start, .ofOffset source program.start⟩

/-- The name of a rule, whether it offers a fix, and the message it makes of its causes. -/
structure Reporting where
  name : String
  fixable : Bool
  message : String → String

structure Collector where
  phase : Phase
  directives : DirectiveState
  causes : List String
  deriving DecidableEq, Repr

namespace Collector

def empty : Collector := ⟨.scanning, .none, []⟩

/-- Begin a file. -/
def enter (program : Script.Program) : Collector :=
  let directives := scanDirectives program
  ⟨if directives.any then .directiveFound else .scanning, directives, []⟩

def isScanning (c : Collector) : Bool :=
  c.phase = .scanning

/-- Record a cause, unless it is recorded or nothing is collected any more. -/
def add (c : Collector) (cause : String) : Collector :=
  if c.isScanning && !c.causes.contains cause then
    { c with causes := c.causes ++ [cause] }
  else
    c

def addAll (c : Collector) (causes : List String) : Collector :=
  causes.foldl add c

/-- End a file: a finding if causes were recorded and the file has no client directive. The causes
go into the finding. -/
def finish (c : Collector) (r : Reporting) (file : FileInfo) : Collector × Option Finding :=
  let ended := { c with phase := .done }
  if c.directives.client || c.causes.isEmpty then
    (ended, none)
  else
    ({ ended with causes := [] },
      some {
        rule := r.name
        message := r.message (", ".intercalate c.causes)
        causes := c.causes
        file := file.path
        location := file.location
        fix := if r.fixable then some (insertUseClient file.start) else none })

end Collector
end Rules
end ClientBoundary
