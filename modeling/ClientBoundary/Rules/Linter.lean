import ClientBoundary.Rules.Config
import ClientBoundary.Script.Program

/-!
# Linting and fixing a file

- `Config.lintProgram`: the findings of the active rules on a program that was read;
- `Config.lint`: read a file in the language of its path, and lint it;
- `Config.fix`: lint and insert what the findings ask for until nothing is left, but not forever.
-/

namespace ClientBoundary
namespace Rules

open Script (Language Program)

/-- The most rounds of linting and fixing for one file. -/
def maxFixPasses : Nat := 10

/-- The outcome of fixing: the text, whether it changed, and the findings that are left. -/
structure Fixed where
  output : String
  fixed : Bool
  remaining : List Finding

namespace Config

/-- The findings of the active rules on a program. -/
def lintProgram (c : Config) (path source : String) (program : Program) : List Finding :=
  runAll (.of path source program) program (c.activeRules path)

/-- The findings on a source text. A text that is no program fails whichever rules are active. -/
def lint (c : Config) (path source : String) : Except Failure (List Finding) :=
  match Program.parse? (.ofPath path) source with
  | none => .error (.unparsable path)
  | some program => .ok (c.lintProgram path source program)

/-- The insertions that findings ask for. -/
def fixes (findings : List Finding) : List Text.Insertion :=
  findings.filterMap (·.fix)

/-- Rounds of linting and fixing, at most `passes`; `fixed` tells whether one took place before. -/
def fixLoop (c : Config) (path : String) : Nat → String → Bool → Except Failure Fixed
  | 0, text, fixed =>
      match c.lint path text with
      | .error e => .error e
      | .ok findings => .ok ⟨text, fixed, findings⟩
  | passes + 1, text, fixed =>
      match c.lint path text with
      | .error e => .error e
      | .ok findings =>
          let insertions := fixes findings
          let (next, applied) := Text.insertAll text insertions
          -- what cannot be inserted stays a finding
          if insertions.isEmpty || applied = 0 then .ok ⟨text, fixed, findings⟩
          else c.fixLoop path passes next true

/-- Lint and fix a source text. -/
def fix (c : Config) (path source : String) : Except Failure Fixed :=
  c.fixLoop path maxFixPasses source false

end Config
end Rules
end ClientBoundary
