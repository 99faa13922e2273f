import ClientBoundary.Script.Grammar.Markup
import ClientBoundary.Script.Grammar.Modules
import ClientBoundary.Text.Bytes

/-!
# Reading programs

- `Grammar.level`: the productions tied together, for a limited depth of nesting;
- `Program.parse?`: the program of a text in a language. A text that is too long is refused, and no
  construct can be nested deeper than a text is long, so the depth that is allowed never matters.

A file that may be a module or a script is read as a module first: it is one if it has an import,
an export, or knowledge about itself. If not, it is read as a script.
-/

namespace ClientBoundary
namespace Script

namespace Grammar

/-- The productions, written against those for one level of nesting less. -/
def step (g : Grammar) : Grammar where
  expression := g.sequenceExpression
  assignment := g.assignmentExpression
  unary := do return (← g.unaryExpression).1
  constructor := g.constructorExpression
  leftHandSide := g.leftHandSideExpression
  pattern := g.bindingPattern
  type := g.typeExpression
  typeOperand := g.operatorType
  statement := g.plainStatement
  item := g.moduleItem
  element := g.markupElement

/-- The productions for a depth of nesting. Those of the depth below are made when they are
needed. -/
def level : Nat → Grammar
  | 0 => .empty
  | depth + 1 =>
      { expression := fun c l => (level depth).step.expression c l
        assignment := fun c l => (level depth).step.assignment c l
        unary := fun c l => (level depth).step.unary c l
        constructor := fun c l => (level depth).step.constructor c l
        leftHandSide := fun c l => (level depth).step.leftHandSide c l
        pattern := fun b c l => (level depth).step.pattern b c l
        type := fun c l => (level depth).step.type c l
        typeOperand := fun c l => (level depth).step.typeOperand c l
        statement := fun c l => (level depth).step.statement c l
        item := fun c l => (level depth).step.item c l
        element := fun c l => (level depth).step.element c l }

theorem level_succ (depth : Nat) : level (depth + 1) = (level depth).step := rfl

/-- A depth that no construct reaches. -/
def maxDepth : Nat := 2 * maxTokens + 8

/-- The grammar of the language. -/
def full : Grammar := level maxDepth

end Grammar

namespace Program

open ClientBoundary.Script.Parser

/-- A statement of the top level as read: the text from its first character on, its tree, and
whether it makes the file a module. -/
structure TopLevel where
  text : List Char
  node : Node
  marksModule : Bool

/-- Whether a text is a part of another one that is left after some characters of it. -/
def isLeftOver (rest text : List Char) : Bool :=
  !rest.isEmpty && rest.length < text.length && rest.isSuffixOf text

/-- The text of an export behind decorators. Decorators belong to a class, but not to its
export. -/
def decoratedExport? (g : Grammar) : Parser (Option (List Char)) := do
  let here := (← get).text
  foresee do
    guard (← sees "@")
    let _ ← g.decorators
    guard (← seesWord "export")
    let text := (← get).text
    guard (isLeftOver text here)
    return text

/-- Whether a statement makes a file a module: an export, an import, or knowledge about itself. -/
def seesModuleMark : Parser Bool := do
  if ← seesWord "export" then
    return true
  else if ← seesWord "import" then
    nextIs fun l => !l.isPunctuator "("
  else
    return false

/-- A statement of the top level. -/
def topLevel (g : Grammar) : Parser TopLevel := do
  let here := (← get).text
  let decorated ← decoratedExport? g
  let marks ← seesModuleMark
  let item ← g.moduleItem
  return ⟨decorated.getD here, item.node, decorated.isSome || marks⟩

/-- The statements up to the end of a text. Each of them reads on, so a text of less than `fuel`
characters is read to its end. -/
def topLevels (g : Grammar) : Nat → Parser (List TopLevel)
  | 0 => failure
  | fuel + 1 => do
      if ← seesEnd then
        return []
      else
        let here := (← get).text
        let s ← topLevel g
        guard ((← get).text.length < here.length)
        return s :: (← topLevels g fuel)

/-- The context of the top level. -/
def topContext (language : Language) (await : Bool) : Context where
  language := language
  inOperator := true
  await := await
  yield := false
  returns := language.goal = .commonjs
  exports := true
  ambient := language.declarations
  consequent := false
  conditionalTypes := true
  decorator := false

/-- The first token of a text, which begins a line. -/
def firstLexeme? (text : List Char) : Option Lexeme :=
  (Lexeme.read? (skipPreamble text)).map fun l => { l with newline := true }

/-- The statements of a text, read as a module or as a script. -/
def statements? (language : Language) (asModule : Bool) (text : List Char) :
    Option (List TopLevel) := do
  let first ← firstLexeme? text
  let (statements, _) ← (topLevels Grammar.full (first.text.length + 1)).run
    (topContext language asModule) first
  return statements

/-- The value of a statement that is just a string. -/
def TopLevel.stringValue? (s : TopLevel) : Option String :=
  match s.node with
  | .statement (.string value) => some value
  | _ => none

/-- The program of a list of statements: those at the front that are just strings are its
directives. -/
def ofStatements (text : List Char) (statements : List TopLevel) : Program :=
  let size := Text.byteLength text
  let startOf (s : TopLevel) : Nat := size - Text.byteLength s.text
  { directives := (statements.takeWhile (·.stringValue?.isSome)).filterMap fun s =>
      s.stringValue?.map fun value => ⟨value, startOf s⟩
    body := (statements.dropWhile (·.stringValue?.isSome)).map fun s => ⟨startOf s, s.node⟩ }

/-- The statements of a text, read as what a file of the language can be. -/
def allStatements? (language : Language) (text : List Char) : Option (List TopLevel) :=
  match language.goal with
  | .module => statements? language true text
  | .commonjs => statements? language false text
  | .either =>
      match statements? language true text with
      | some found =>
          if found.any (·.marksModule) then some found else statements? language false text
      | none => (statements? language false text).filter fun found =>
          !found.any (·.marksModule)

/-- The program of a text. -/
def parse? (language : Language) (source : String) : Option Program :=
  let text := source.toList
  if Text.byteLength text ≤ maxLength then
    (allStatements? language text).map (ofStatements text)
  else
    none

/-- The expression at the front of a text, as in a component file. What follows it is not read. -/
def expression? (source : String) : Option Node := do
  let first ← Lexeme.read? source.toList
  let (e, _) ← (Grammar.value Grammar.full.expression).run (topContext .component true) first
  return e

end Program
end Script
end ClientBoundary
