import ClientBoundary.Script.Tree

/-!
# Leading directives

A file may say at its very top where it runs. Its leading strings are the directives that the
parser found and, after them, the strings in parentheses that stand as statements. The first of
them that names an environment counts.

- `scanDirectives`: what the leading strings say, taken as one list;
- `scanStepwise`: the same from two passes, which keep what they have seen.
-/

namespace ClientBoundary
namespace Rules

structure DirectiveState where
  client : Bool
  server : Bool
  deriving DecidableEq, Repr

namespace DirectiveState

def none : DirectiveState := ⟨false, false⟩

/-- Either directive turns the rules off. -/
def any (s : DirectiveState) : Bool :=
  s.client || s.server

/-- What a leading string says. -/
def ofString (value : String) : DirectiveState :=
  ⟨value = "use client", value = "use server"⟩

/-- The first of the strings that says something. -/
def ofStrings : List String → DirectiveState
  | [] => none
  | value :: more => if (ofString value).any then ofString value else ofStrings more

end DirectiveState

/-- The value of a statement that is a string, up to parentheses. -/
def statementString? : Script.Node → Option String
  | .statement e =>
      match e.withoutParens with
      | .string value => some value
      | _ => none
  | _ => none

/-- The strings of the statements at the front that are strings. -/
def leadingStatements : List Script.Node → List String
  | [] => []
  | n :: more =>
      match statementString? n with
      | some value => value :: leadingStatements more
      | none => []

/-- The leading strings of a program. -/
def leadingStrings (p : Script.Program) : List String :=
  p.directives.map (·.value) ++ leadingStatements p.parts

/-- What the leading strings of a program say. -/
def scanDirectives (p : Script.Program) : DirectiveState :=
  .ofStrings (leadingStrings p)

/-! ## Scanning step by step -/

namespace DirectiveState

/-- What is known after a further string. -/
def observe (s : DirectiveState) (value : String) : DirectiveState :=
  if value = "use client" then { s with client := true }
  else if value = "use server" then { s with server := true }
  else s

/-- Observe directives until something is known. -/
def observeDirectives (s : DirectiveState) : List Script.Directive → DirectiveState
  | [] => s
  | d :: more =>
      let seen := s.observe d.value
      if seen.any then seen else seen.observeDirectives more

/-- Observe the statements at the front that are strings, until something is known. -/
def observeStatements (s : DirectiveState) : List Script.Node → DirectiveState
  | [] => s
  | n :: more =>
      match statementString? n with
      | some value =>
          let seen := s.observe value
          if seen.any then seen else seen.observeStatements more
      | Option.none => s

end DirectiveState

/-- The directives that the parser found, and then the statements, if nothing is known yet. -/
def scanStepwise (p : Script.Program) : DirectiveState :=
  let seen := DirectiveState.none.observeDirectives p.directives
  if seen.any then seen else seen.observeStatements p.parts

end Rules
end ClientBoundary
