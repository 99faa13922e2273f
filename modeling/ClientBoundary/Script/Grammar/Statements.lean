import ClientBoundary.Script.Grammar.Declarations

/-!
# Statements

The statements of functions and blocks. A block is a scope, and so are the head of a loop with its
body, the cases of a switch, and a handler with its parameter.
-/

namespace ClientBoundary
namespace Script
namespace Grammar

open ClientBoundary.Script.Parser

def stmt (n : Node) : Stmt := { node := n }

/-- An expression in parentheses, as after `if`. -/
def condition (g : Grammar) : Parser Node := do
  expect "("
  let n ← g.inner
  expect ")"
  return n

/-- A statement as the body of another one. -/
def body (g : Grammar) : Parser Node := do
  return (← g.statement).node

def block (g : Grammar) : Parser Node :=
  g.bodyScope .block

/-- Variables with the end of their statement. -/
def variableStatement (g : Grammar) (k : VariableKind) : Parser Node := do
  let declarators ← g.variableDeclarators k
  semicolon
  return .group declarators

/-- An expression with the end of its statement. -/
def expressionStatement (g : Grammar) : Parser Node := do
  let n ← value g.expression
  semicolon
  return .statement n

/-! ## Conditions and loops -/

def ifStatement (g : Grammar) : Parser Node := do
  expectWord "if"
  let test ← g.condition
  let holds ← g.body
  let fails ← optionalAfter (acceptWord "else") g.body
  return .group (test :: holds :: fails)

def whileStatement (g : Grammar) : Parser Node := do
  expectWord "while"
  let test ← g.condition
  return .group [test, ← g.body]

def doStatement (g : Grammar) : Parser Node := do
  expectWord "do"
  let repeated ← g.body
  expectWord "while"
  let test ← g.condition
  let _ ← accept ";"
  return .group [repeated, test]

/-- What stands before the first semicolon of a loop, or before `of` or `in`; the flag tells
whether `of` or `in` may follow. -/
def loopStart (g : Grammar) : Parser (List Node × Bool) := do
  if ← sees ";" then
    return ([], false)
  else
    match ← variableKeyword with
    | some k =>
        let declarators ← separatedBy ","
          (g.variableDeclarator ⟨k = .var⟩ (k = .constant) false)
        -- only a single variable can go through something
        return (declarators, declarators.length = 1)
    | none =>
        let e ← g.expression
        if (← seesWord "of") || (← seesWord "in") then
          guard (e.target != .none)
          return ([e.node], true)
        else
          guard (!e.patternOnly)
          return ([e.node], false)

/-- A part of the head of a loop that may be left out before a closing mark. -/
def loopPart (g : Grammar) (close : String) : Parser (List Node) := do
  if ← sees close then return [] else return [← g.inner]

/-- A loop over its parts: the head and the body are one scope. -/
def forStatement (g : Grammar) : Parser Node := do
  expectWord "for"
  let _ ← acceptWord "await"
  expect "("
  let (start, mayIterate) ← within (fun c => { c with inOperator := false }) g.loopStart
  let head ←
    if mayIterate && (← seesWord "of") then
      advance
      let source ← g.innerOperand
      pure (start ++ [source])
    else if mayIterate && (← seesWord "in") then
      advance
      let source ← g.inner
      pure (start ++ [source])
    else
      expect ";"
      let test ← g.loopPart ";"
      expect ";"
      let update ← g.loopPart ")"
      pure (start ++ test ++ update)
  expect ")"
  return .scope .block (head ++ [← g.body])

/-! ## Jumps -/

/-- A label on the line of the jump. -/
def jumpStatement : Parser Node := do
  advance
  if (← seesIdentifier) && !(← newlineBefore) then advance
  semicolon
  return .group []

def returnStatement (g : Grammar) : Parser Node := do
  expectWord "return"
  guard (← read).returns
  if (← sees ";") || (← sees "\x7d") || (← seesEnd) || (← newlineBefore) then
    semicolon
    return .group []
  else
    let n ← g.inner
    semicolon
    return .group [n]

def throwStatement (g : Grammar) : Parser Node := do
  expectWord "throw"
  guard (!(← newlineBefore))
  let n ← g.inner
  semicolon
  return .group [n]

/-! ## Cases and handlers -/

/-- A case with its statements, up to the next case. -/
def switchCase (g : Grammar) : Parser Node := do
  let test ← if ← acceptWord "default" then pure [] else
    expectWord "case"
    pure [← g.inner]
  expect ":"
  let statements ← many do
    if (← sees "\x7d") || (← seesWord "case") || (← seesWord "default") then return none
    else return some (← within (fun c => { c with exports := false }) g.item).node
  return .group (test ++ statements)

def switchStatement (g : Grammar) : Parser Node := do
  expectWord "switch"
  let subject ← g.condition
  expect "\x7b"
  let cases ← many do
    if ← accept "\x7d" then return none else return some (← g.switchCase)
  return .group [subject, .scope .block cases]

/-- A handler with its parameter. -/
def catchClause (g : Grammar) : Parser Node := do
  let parameter ← if ← accept "(" then
      let target ← g.pattern ⟨false⟩
      let annotation ← g.optionalAnnotation
      expect ")"
      pure (target :: annotation)
    else
      pure []
  return .scope .block (parameter ++ [← g.block])

def tryStatement (g : Grammar) : Parser Node := do
  expectWord "try"
  let tried ← g.block
  let handler ← optionalAfter (acceptWord "catch") g.catchClause
  let last ← optionalAfter (acceptWord "finally") g.block
  guard (!(handler.isEmpty && last.isEmpty))
  return .group (tried :: handler ++ last)

def withStatement (g : Grammar) : Parser Node := do
  expectWord "with"
  let subject ← g.condition
  return .group [subject, ← g.body]

/-! ## Statements and declarations -/

/-- Whether a label starts here. -/
def seesLabel : Parser Bool := do
  return (← seesIdentifier) && (← nextIs fun l => l.isPunctuator ":")

/-- Whether an asynchronous function starts here. -/
def seesAsyncFunction : Parser Bool := do
  return (← seesWord "async") && (← nextIs fun l => !l.newline && l.isWord "function")

/-- A statement that declares nothing for the block around it. -/
def plainStatement (g : Grammar) : Parser Stmt := do
  match (← get).token with
  | .punctuator "\x7b" => stmt <$> g.block
  | .punctuator ";" =>
      advance
      return stmt (.group [])
  | .name "if" false => stmt <$> g.ifStatement
  | .name "for" false => stmt <$> g.forStatement
  | .name "while" false => stmt <$> g.whileStatement
  | .name "do" false => stmt <$> g.doStatement
  | .name "continue" false => stmt <$> jumpStatement
  | .name "break" false => stmt <$> jumpStatement
  | .name "return" false => stmt <$> g.returnStatement
  | .name "throw" false => stmt <$> g.throwStatement
  | .name "with" false => stmt <$> g.withStatement
  | .name "switch" false => stmt <$> g.switchStatement
  | .name "try" false => stmt <$> g.tryStatement
  | .name "debugger" false =>
      advance
      semicolon
      return stmt (.group [])
  | .name "var" false =>
      advance
      stmt <$> g.variableStatement .var
  | .name "function" false => stmt <$> g.functionDeclaration false false
  -- what follows are declarations, and none of them stands alone as a body
  | .name "class" false => failure
  | .name "const" false => failure
  | _ =>
      if ← seesLabel then
        advance
        advance
        return stmt (.group [← g.body])
      else if (← seesWord "let") && (← nextIs fun l => l.isPunctuator "[") then
        failure
      else
        stmt <$> g.expressionStatement

/-- A declaration of types or of things that exist elsewhere, if one starts here. -/
def typedDeclaration (g : Grammar) : Parser (Option Stmt) := do
  -- most of these words are ordinary names unless a name follows on the same line
  let named ← nextIs fun l => !l.newline && l.isPlainName
  match (← get).token with
  | .name "type" false =>
      if named then
        advance
        return some ⟨← g.typeAlias, true⟩
      else
        return none
  | .name "interface" false =>
      if named then
        advance
        return some ⟨← g.interfaceDeclaration, true⟩
      else
        return none
  | .name "enum" false =>
      advance
      return some (stmt (← g.enumDeclaration))
  | .name "const" false =>
      if ← nextIs fun l => l.isWord "enum" then
        advance
        advance
        return some (stmt (← g.enumDeclaration))
      else
        return none
  | .name "namespace" false =>
      if named then
        advance
        return some (← g.namespaceDeclaration)
      else
        return none
  | .name "module" false =>
      if named then
        advance
        return some (← g.namespaceDeclaration)
      else if ← nextIs fun l => !l.newline && l.isString then
        advance
        return some (← g.foreignModule)
      else
        return none
  | .name "global" false =>
      if ← nextIs fun l => l.isPunctuator "\x7b" then
        return some (← g.foreignModule)
      else
        return none
  | .name "abstract" false =>
      if ← nextIs fun l => !l.newline && l.isWord "class" then
        advance
        return some (stmt (← g.classDeclaration [] false))
      else
        return none
  | .name "declare" false =>
      if ← nextIs fun l => !l.newline && l.isName && !l.isWord "in" && !l.isWord "instanceof" &&
          !l.isWord "as" && !l.isWord "satisfies" then
        advance
        return some (← within (fun c => { c with ambient := true }) g.item)
      else
        return none
  | _ => return none

/-- A class after its decorators. -/
def decoratedClass (g : Grammar) (before : List Node) : Parser Node := do
  if ← isTyped then
    let _ ← acceptWord "abstract"
  g.classDeclaration before false

/-- A declaration of values, if one starts here. -/
def valueDeclaration (g : Grammar) : Parser (Option Node) := do
  match ← variableKeyword with
  | some k => return some (← g.variableStatement k)
  | none =>
      if (← sees "@") || (← seesWord "class") then
        return some (← g.decoratedClass (← g.decorators))
      else if ← seesWord "function" then
        return some (← g.functionDeclaration false false)
      else if ← seesAsyncFunction then
        advance
        return some (← g.functionDeclaration true false)
      else
        return none

/-- A declaration, if one starts here. -/
def declaration (g : Grammar) : Parser (Option Stmt) := do
  let typed ← if ← isTyped then g.typedDeclaration else pure none
  match typed with
  | some s => return some s
  | none => return (← g.valueDeclaration).map stmt

/-- A statement or a declaration of a block, but no import or export. -/
def statementItem (g : Grammar) : Parser Stmt := do
  match ← g.declaration with
  | some s => return s
  | none => g.plainStatement

end Grammar
end Script
end ClientBoundary
