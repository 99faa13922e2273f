import ClientBoundary.Script.Language
import ClientBoundary.Script.Lexer
import ClientBoundary.Script.Tree

/-!
# Parsers

A parser reads from the current token on. It knows the context it stands in, and refuses a text
by having no result.

- `Context`: what the constructs around the current token allow;
- `Parser`: from a context and a current token to a result and the token after it;
- `Grammar`: the productions that contain each other. A production is written against a grammar
  for the constructs inside it, so that the depth of nesting is the only recursion.
-/

namespace ClientBoundary
namespace Script

/-- What the constructs around the current token allow. -/
structure Context where
  language : Language
  /-- Whether `in` is an operator. -/
  inOperator : Bool
  /-- Whether `await` is an operator. -/
  await : Bool
  /-- Whether `yield` is an operator. -/
  yield : Bool
  /-- Whether a `return` may stand here. -/
  returns : Bool
  /-- Whether imports and exports may stand here. -/
  exports : Bool
  /-- Whether declarations stand without values and bodies. -/
  ambient : Bool
  /-- Whether this is the second operand of a conditional, where a colon ends an arrow's head. -/
  consequent : Bool
  /-- Whether a type may be a conditional one. -/
  conditionalTypes : Bool
  /-- Whether this is a decorator, which a bracket does not continue. -/
  decorator : Bool

/-- The most bytes that a text may have. -/
def maxLength : Nat := 4294967295

/-- More than the number of tokens of any text; bounds every repetition. -/
def maxTokens : Nat := maxLength + 2

abbrev Parser := ReaderT Context (StateT Lexeme Option)

namespace Parser

/-! ## The current token -/

/-- Make the first token of a text the current one. -/
def moveTo (text : List Char) : Parser Unit :=
  match Lexeme.read? text with
  | some l => set l
  | none => failure

def advance : Parser Unit := do
  moveTo (← get).rest

/-- The token after the current one, where one can be read. -/
def peek : Parser (Option Lexeme) := do
  return Lexeme.read? (← get).rest

def sees (p : String) : Parser Bool := do
  return (← get).token == .punctuator p

def seesWord (w : String) : Parser Bool := do
  return (← get).token == .name w false

def seesAny (ps : List String) : Parser Bool := do
  match (← get).token with
  | .punctuator p => return ps.contains p
  | _ => return false

def seesEnd : Parser Bool := do
  return (← get).token == .eof

/-- Read a punctuator if it is there. -/
def accept (p : String) : Parser Bool := do
  if ← sees p then
    advance
    return true
  else
    return false

def acceptWord (w : String) : Parser Bool := do
  if ← seesWord w then
    advance
    return true
  else
    return false

def expect (p : String) : Parser Unit := do
  guard (← sees p)
  advance

def expectWord (w : String) : Parser Unit := do
  guard (← seesWord w)
  advance

def newlineBefore : Parser Bool := do
  return (← get).newline

/-! ## Combinators -/

/-- The result of a parser, or `none` with nothing read. -/
def attempt {α : Type} (p : Parser α) : Parser (Option α) := fun c l =>
  match p c l with
  | some (a, l') => some (some a, l')
  | none => some (none, l)

/-- The result that a parser would have here; nothing is read. -/
def foresee {α : Type} (p : Parser α) : Parser (Option α) := fun c l =>
  some ((p c l).map (·.1), l)

/-- Whether a parser succeeds here; nothing is read. -/
def ahead {α : Type} (p : Parser α) : Parser Bool := fun c l =>
  some ((p c l).isSome, l)

/-- Repeat a parser until it has nothing more to give; `fuel` bounds the number of rounds. -/
def repeatUntilNone {α : Type} (p : Parser (Option α)) : Nat → Parser (List α)
  | 0 => failure
  | fuel + 1 => do
      match ← p with
      | none => return []
      | some a => return a :: (← repeatUntilNone p fuel)

def many {α : Type} (p : Parser (Option α)) : Parser (List α) :=
  repeatUntilNone p maxTokens

/-- Items up to a closing punctuator, which is read; commas stand between them and may stand after
the last one. -/
def commaSeparated {α : Type} (close : String) (item : Parser α) : Parser (List α) :=
  many do
    if ← accept close then
      return none
    else
      let a ← item
      unless ← sees close do expect ","
      return some a

/-- One item or more with a separator between them. -/
def separatedBy {α : Type} (separator : String) (item : Parser α) : Parser (List α) := do
  let first ← item
  let more ← many do
    if ← accept separator then
      return some (← item)
    else
      return none
  return first :: more

/-- What a marker announces, if the marker is there. -/
def optionalAfter {α : Type} (marker : Parser Bool) (p : Parser α) : Parser (List α) := do
  if ← marker then return [← p] else return []

/-- A parser run inside another context. -/
def within {α : Type} (change : Context → Context) (p : Parser α) : Parser α :=
  withReader change p

/-- Inside brackets nothing of the surrounding expression matters. -/
def enclosed {α : Type} (p : Parser α) : Parser α :=
  within
    (fun c =>
      { c with
        inOperator := true
        consequent := false
        decorator := false
        conditionalTypes := true })
    p

def isTyped : Parser Bool := do
  return (← read).language.typescript

def hasMarkup : Parser Bool := do
  return (← read).language.jsx

/-- The end of a statement: a semicolon, or a place where one may be left out. -/
def semicolon : Parser Unit := do
  if ← accept ";" then
    return ()
  else
    guard ((← sees "\x7d") || (← seesEnd) || (← newlineBefore))

/-! ## Templates -/

/-- Read on with a template after a substitution, whose closing brace is the current token. -/
def continueTemplate : Parser Unit := do
  let l ← get
  match l.text with
  | '\x7d' :: rest =>
      match templatePart? (rest.length + 1) rest with
      | some (valid, closed, after) =>
          set (Lexeme.mk (.template valid closed) l.newline l.text after)
      | none => failure
  | _ => failure

/-- What stands in the substitutions of a template. Only the template of a tag may have malformed
escapes. -/
def template {α : Type} (tagged : Bool) (inner : Parser α) : Parser (List α) := do
  let parts ← many do
    match (← get).token with
    | .template valid closed =>
        guard (valid || tagged)
        if closed then
          return none
        else
          advance
          let a ← inner
          continueTemplate
          return some a
    | _ => failure
  advance
  return parts

/-! ## Names -/

/-- Any word. -/
def word : Parser String := do
  match (← get).token with
  | .name text _ =>
      advance
      return text
  | _ => failure

/-- Whether a token can name a thing in this context. -/
def isIdentifier (t : Token) : Parser Bool := do
  let c ← read
  match t with
  | .name text _ =>
      return !isReserved text && !(c.await && text == "await") && !(c.yield && text == "yield")
  | _ => return false

def seesIdentifier : Parser Bool := do
  isIdentifier (← get).token

def identifier : Parser String := do
  guard (← seesIdentifier)
  word

/-- Whether the token after the current one satisfies a condition. -/
def nextIs (test : Lexeme → Bool) : Parser Bool := do
  match ← peek with
  | some l => return test l
  | none => return false

end Parser

namespace Lexeme

def isPunctuator (l : Lexeme) (p : String) : Bool :=
  l.token == .punctuator p

def isOneOf (l : Lexeme) (ps : List String) : Bool :=
  match l.token with
  | .punctuator p => ps.contains p
  | _ => false

def isWord (l : Lexeme) (w : String) : Bool :=
  l.token == .name w false

def isName (l : Lexeme) : Bool :=
  match l.token with
  | .name _ _ => true
  | _ => false

/-- A name that is no reserved word. -/
def isPlainName (l : Lexeme) : Bool :=
  match l.token with
  | .name text _ => !isReserved text
  | _ => false

def isString (l : Lexeme) : Bool :=
  match l.token with
  | .string _ => true
  | _ => false

/-- Whether a property name may start here. -/
def startsPropertyName (l : Lexeme) : Bool :=
  match l.token with
  | .name _ _ => true
  | .privateName _ => true
  | .string _ => true
  | .number => true
  | .punctuator p => p == "["
  | _ => false

end Lexeme

/-! ## Expressions and statements as read -/

/-- What may be assigned to an expression. -/
inductive Target where
  | none
  /-- A variable or an access: any assignment. -/
  | simple
  /-- An array or object that reads as a pattern. -/
  | pattern
  deriving DecidableEq, Repr

/-- An expression with what the text around it has to know. -/
structure Expr where
  node : Node
  target : Target := .none
  /-- Whether it can be an element of a pattern. -/
  element : Bool := false
  /-- Whether it can only be a pattern. -/
  patternOnly : Bool := false

/-- A statement, and whether it declares nothing but types. -/
structure Stmt where
  node : Node
  typesOnly : Bool := false

/-- How a declaration binds the names of its pattern. -/
structure Binder where
  hoisted : Bool

def Binder.node (b : Binder) (name : String) : Node :=
  .binding ⟨name, .value, b.hoisted⟩

/-- The productions that contain each other. -/
structure Grammar where
  expression : Parser Expr
  assignment : Parser Expr
  unary : Parser Expr
  /-- The operand of `new`. -/
  constructor : Parser Expr
  /-- An access or a call, as after `extends` or in a decorator. -/
  leftHandSide : Parser Expr
  pattern : Binder → Parser Node
  type : Parser Node
  /-- A type without operators at its top. -/
  typeOperand : Parser Node
  statement : Parser Stmt
  /-- A statement or a declaration. -/
  item : Parser Stmt
  /-- A markup element; the last token of it stays the current one. -/
  element : Parser Node

/-- The grammar that accepts nothing. -/
def Grammar.empty : Grammar where
  expression := failure
  assignment := failure
  unary := failure
  constructor := failure
  leftHandSide := failure
  pattern := fun _ => failure
  type := failure
  typeOperand := failure
  statement := failure
  item := failure
  element := failure

namespace Grammar

/-- An expression that is not only a pattern. -/
def value (p : Parser Expr) : Parser Node := do
  let e ← p
  guard (!e.patternOnly)
  return e.node

/-- An assignment expression as a value. -/
def operand (g : Grammar) : Parser Node :=
  value g.assignment

/-- An expression inside brackets. -/
def inner (g : Grammar) : Parser Node :=
  Parser.enclosed (value g.expression)

/-- An assignment expression inside brackets. -/
def innerOperand (g : Grammar) : Parser Node :=
  Parser.enclosed (value g.assignment)

/-- The parts of a property name: its expression, if it is computed. -/
def propertyName (g : Grammar) : Parser (List Node) := do
  match (← get).token with
  | .name _ _ =>
      Parser.advance
      return []
  | .string _ =>
      Parser.advance
      return []
  | .number =>
      Parser.advance
      return []
  | .punctuator "[" =>
      Parser.advance
      let key ← g.innerOperand
      Parser.expect "]"
      return [key]
  | _ => failure

end Grammar
end Script
end ClientBoundary
