import ClientBoundary.Text.Insertion
import ClientBoundary.Text.Location

/-!
# Findings

A finding says why a file needs the directive, and where to insert it.
-/

namespace ClientBoundary
namespace Rules

structure Finding where
  rule : String
  message : String
  causes : List String
  file : String
  location : Text.Location
  fix : Option Text.Insertion
  deriving DecidableEq, Repr

/-- The line that a fix inserts. -/
def useClientLine : String := "'use client'\n"

def insertUseClient (offset : Nat) : Text.Insertion :=
  ⟨offset, useClientLine⟩

/-- What all rules say of a file, around the kind of thing they look for and its causes. -/
def missingDirective (kind causes : String) : String :=
  "This file contains " ++ kind ++ " \"" ++ causes ++
    "\", but it lacks the required 'use client' directive"

end Rules
end ClientBoundary
