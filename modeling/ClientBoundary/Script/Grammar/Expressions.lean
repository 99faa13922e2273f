import ClientBoundary.Script.Grammar.Classes

/-!
# Expressions

Operands and operators are read from left to right. Of the operators only what they refuse matters
to the tree: their operands stand side by side in a group.
-/

namespace ClientBoundary
namespace Script
namespace Grammar

open ClientBoundary.Script.Parser

def plain (n : Node) : Expr := { node := n }

/-! ## Arrays and objects -/

/-- Whether an expression that is only a pattern may stand before the current token. -/
def seesAfterPattern : Parser Bool := do
  return (← seesAny ["=", ",", "]", "\x7d"]) || (← seesWord "of") || (← seesWord "in")

/-- An element of an array: it may be spread or left out. In a pattern a spread one is the last. -/
def arrayElement (g : Grammar) : Parser Expr := do
  if ← sees "," then
    return { node := .group [], element := true }
  else if ← accept "..." then
    let e ← g.assignment
    return { e with element := e.target != .none && (← sees "]") }
  else
    g.assignment

def arrayLiteral (g : Grammar) : Parser Expr := do
  expect "["
  let elements ← commaSeparated "]" (enclosed g.arrayElement)
  return {
    node := .group (elements.map (·.node))
    target := if elements.all (·.element) then .pattern else .none
    element := elements.all (·.element)
    patternOnly := elements.any (·.patternOnly) }

/-- Whether the word here modifies the property whose name follows it. -/
def seesPropertyModifier (words : List String) (star : Bool) : Parser Bool := do
  match (← get).token with
  | .name text false =>
      if words.contains text then
        nextIs fun l =>
          (l.startsPropertyName || (star && l.isPunctuator "*")) && !(l.newline && text == "async")
      else
        return false
  | _ => return false

/-- A property of an object: spread, a method, an accessor, a value, or a name that stands for
itself and may then have a default as in a pattern. -/
def objectProperty (g : Grammar) : Parser Expr := do
  if ← accept "..." then
    let e ← g.assignment
    return { e with element := e.target = .simple && (← sees "\x7d") }
  else
    let isAsync ← seesPropertyModifier ["async"] true
    if isAsync then advance
    let isGenerator ← generatorStar
    let isAccessor ← if isAsync || isGenerator then pure false
      else seesPropertyModifier ["get", "set"] false
    if isAccessor then advance
    let l ← get
    let key ← g.propertyName
    if (← sees "(") || (← sees "<") then
      return plain (.group (key ++ [← g.method ⟨isAsync, isGenerator⟩ false]))
    else
      -- modifiers and stars belong to methods
      guard (!(isAsync || isGenerator || isAccessor))
      if ← accept ":" then
        let e ← g.assignment
        return { e with node := .group (key ++ [e.node]) }
      else
        guard (← isIdentifier l.token)
        match l.token with
        | .name text _ =>
            let name := Node.reference text .value
            -- a name with a default makes the object only a pattern
            if ← accept "=" then
              let default ← g.operand
              return { node := .group [name, default], element := true, patternOnly := true }
            else
              return { node := name, element := true }
        | _ => failure

def objectLiteral (g : Grammar) : Parser Expr := do
  expect "\x7b"
  let properties ← commaSeparated "\x7d" (enclosed g.objectProperty)
  return {
    node := .group (properties.map (·.node))
    target := if properties.all (·.element) then .pattern else .none
    element := properties.all (·.element)
    patternOnly := properties.any (·.patternOnly) }

/-- An array or an object; one that is only a pattern has to be used as one. -/
def checkPattern (e : Expr) : Parser Expr := do
  if e.patternOnly then
    guard (e.target = .pattern && (← seesAfterPattern))
  return e

/-! ## Operands -/

/-- An expression in parentheses. -/
def parenthesized (g : Grammar) : Parser Expr := do
  expect "("
  let e ← enclosed g.expression
  guard (!e.patternOnly)
  expect ")"
  let simple := e.target = .simple
  return { node := .paren e.node, target := if simple then .simple else .none, element := simple }

def arguments (g : Grammar) : Parser (List Node) := do
  expect "("
  commaSeparated ")" (enclosed do
    let _ ← accept "..."
    g.operand)

/-- A template with its substitutions. -/
def templateLiteral (g : Grammar) (tagged : Bool) : Parser (List Node) :=
  template tagged g.inner

/-- An import of a module as a value, or what the module knows about itself. -/
def importExpression (g : Grammar) : Parser Expr := do
  expectWord "import"
  if ← accept "." then
    expectWord "meta"
    return plain (.group [])
  else
    let parts ← g.arguments
    guard (!parts.isEmpty && parts.length ≤ 2)
    return plain (.group parts)

/-- The operand of `new` with its arguments. -/
def newExpression (g : Grammar) : Parser Expr := do
  expectWord "new"
  if ← accept "." then
    expectWord "target"
    return plain (.group [])
  else
    guard (!(← seesWord "import"))
    let callee ← value g.constructor
    -- a sign that opens no list of types is an operator
    let types ← if (← isTyped) && (← sees "<") then
        pure ((← attempt g.typeArguments).getD [])
      else pure []
    let arguments ← if ← sees "(" then g.arguments else pure []
    return plain (.group (callee :: types ++ arguments))

/-- A regular expression, which the current token, a slash, begins. -/
def regularExpression : Parser Expr := do
  match regex? (← get).text with
  | some rest =>
      moveTo rest
      return plain (.group [])
  | none => failure

/-- An operand without anything after it. -/
def primary (g : Grammar) : Parser Expr := do
  match (← get).token with
  | .string s =>
      advance
      return plain (.string s)
  | .number =>
      advance
      return plain (.group [])
  | .template _ _ => return plain (.group (← g.templateLiteral false))
  | .punctuator "(" => g.parenthesized
  | .punctuator "[" => checkPattern (← g.arrayLiteral)
  | .punctuator "\x7b" => checkPattern (← g.objectLiteral)
  | .punctuator "/" => regularExpression
  | .punctuator "/=" => regularExpression
  | .punctuator "@" => return plain (← g.classExpression (← g.decorators))
  | .punctuator "<" =>
      guard (← hasMarkup)
      let e ← enclosed g.element
      advance
      return plain e
  | .name "this" false =>
      advance
      return plain .this
  | .name "null" false =>
      advance
      return plain (.group [])
  | .name "true" false =>
      advance
      return plain (.group [])
  | .name "false" false =>
      advance
      return plain (.group [])
  | .name "super" false =>
      advance
      guard (← seesAny [".", "[", "("])
      return plain .super
  | .name "function" false => return plain (← g.functionExpression false)
  | .name "class" false => return plain (← g.classExpression [])
  | .name "new" false => g.newExpression
  | .name "import" false => g.importExpression
  | .name "async" false =>
      if ← nextIs fun l => l.isWord "function" && !l.newline then
        advance
        return plain (← g.functionExpression true)
      else
        return { node := .reference (← identifier) .value, target := .simple, element := true }
  | _ => return { node := .reference (← identifier) .value, target := .simple, element := true }

/-! ## Accesses and calls -/

def access (n : Node) : Expr :=
  { node := n, target := .simple, element := true }

/-- The member that follows a point. -/
def pointMember (object : Node) : Parser Expr := do
  match (← get).token with
  | .name text _ =>
      advance
      return access (.member object text)
  | .privateName text =>
      advance
      return access (.privateMember object text)
  | _ => failure

/-- The key in brackets. -/
def bracketMember (g : Grammar) (object : Node) : Parser Expr := do
  expect "["
  let key ← g.inner
  expect "]"
  return access (.index object key)

/-- Whether an expression may end after type arguments. -/
def seesEndAfterTypes : Parser Bool := do
  let l ← get
  if l.isOneOf ["<", ">", "+", "-"] then
    return false
  else
    match l.token with
    | .eof => return true
    | .punctuator p =>
        return l.newline || !(["(", "[", "\x7b", "!", "~", "++", "--", "@", "/", "/="].contains p)
    | .name text _ =>
        return l.newline || ["in", "instanceof", "as", "satisfies", "of"].contains text
    | _ => return l.newline

/-- One access or call after an expression, if there is one. A template in front of which stands
a link of a chain is refused. -/
def tailStep (g : Grammar) (calls inChain : Bool) (e : Expr) : Parser (Option (Expr × Bool)) := do
  let l ← get
  match l.token with
  | .punctuator "." =>
      advance
      return some (← pointMember e.node, inChain)
  | .punctuator "[" =>
      -- brackets behind a decorator belong to the member that it decorates
      if (← read).decorator then return none
      else return some (← g.bracketMember e.node, inChain)
  | .template _ _ =>
      guard (!inChain)
      let parts ← g.templateLiteral true
      return some (plain (.group (e.node :: parts)), inChain)
  | .punctuator "(" =>
      if calls then return some (plain (.call e.node (← g.arguments)), inChain) else return none
  | .punctuator "?." =>
      guard calls
      advance
      let next ← get
      match next.token with
      | .punctuator "(" => return some (plain (.call e.node (← g.arguments)), true)
      | .punctuator "[" =>
          let m ← within (fun c => { c with decorator := false }) (g.bracketMember e.node)
          return some (plain m.node, true)
      | .punctuator "<" =>
          guard (← isTyped)
          let types ← g.typeArguments
          return some (plain (.call e.node (types ++ (← g.arguments))), true)
      | .template _ _ => failure
      | _ => return some (plain (← pointMember e.node).node, true)
  | .punctuator "!" =>
      -- the mark asserts that a value is not missing; on a new line it negates the next one
      if (← isTyped) && !l.newline then
        advance
        return some ({ e with node := .group [e.node] }, inChain)
      else
        return none
  | .punctuator "<" =>
      if ← isTyped then
        -- without a list of types that closes, the sign is an operator
        let step ← attempt do
          let types ← g.typeArguments
          if ← sees "(" then
            guard calls
            return plain (.call e.node (types ++ (← g.arguments)))
          else
            match (← get).token with
            | .template _ _ =>
                guard (!inChain)
                return plain (.group (e.node :: types ++ (← g.templateLiteral true)))
            | _ =>
                guard (← seesEndAfterTypes)
                return plain (.group (e.node :: types))
        return step.map fun e => (e, inChain)
      else
        return none
  | .punctuator "<<" =>
      -- the list of types begins with a function type that has type parameters itself
      if (← isTyped) && calls then
        attempt do
          let types ← g.typeArguments
          return (plain (.call e.node (types ++ (← g.arguments))), inChain)
      else
        return none
  | _ => return none

/-- Accesses and calls after an expression, as far as they go; `fuel` bounds their number. -/
def tail (g : Grammar) (calls : Bool) : Nat → Bool → Expr → Parser Expr
  | 0, _, _ => failure
  | fuel + 1, inChain, e => do
      match ← g.tailStep calls inChain e with
      | some (next, chained) => g.tail calls fuel chained next
      | none =>
          -- here the chain ends, however far it went
          if inChain then return plain (.chain e.node) else return e

/-- An operand with the accesses and calls after it. -/
def leftHandSideExpression (g : Grammar) : Parser Expr := do
  let e ← g.primary
  if e.patternOnly then return e else g.tail true maxTokens false e

/-- An operand with the accesses after it, calls left out. -/
def constructorExpression (g : Grammar) : Parser Expr := do
  let e ← g.primary
  g.tail false maxTokens false e

/-! ## Operators -/

/-- An expression before or after a step by one. -/
def updateExpression (g : Grammar) : Parser Expr := do
  if (← sees "++") || (← sees "--") then
    advance
    let e ← g.unary
    guard (e.target = .simple)
    return plain (.group [e.node])
  else
    let e ← g.leftHandSideExpression
    if ((← sees "++") || (← sees "--")) && !(← newlineBefore) then
      guard (e.target = .simple)
      advance
      return plain (.group [e.node])
    else
      return e

/-- A type in front of an expression that it is asserted of. -/
def assertedExpression (g : Grammar) : Parser Expr := do
  expect "<"
  let t ← enclosed g.type
  expect ">"
  let e ← g.unary
  return { e with node := .group [t, e.node] }

def prefixOperators : List String := ["+", "-", "~", "!"]

def prefixWords : List String := ["typeof", "void", "delete"]

/-- An expression with its prefix operators, and whether it has one. -/
def unaryExpression (g : Grammar) : Parser (Expr × Bool) := do
  let l ← get
  let operator : Bool ←
    match l.token with
    | .punctuator p => pure (prefixOperators.contains p)
    | .name text false => pure (prefixWords.contains text)
    | _ => pure false
  if operator then
    advance
    let e ← g.unary
    guard (!e.patternOnly)
    return (plain (.group [e.node]), true)
  else if l.isWord "await" && (← read).await then
    advance
    let e ← g.unary
    guard (!e.patternOnly)
    return (plain (.group [e.node]), false)
  -- where tags can start, the sign starts one
  else if (← isTyped) && !(← hasMarkup) && l.isPunctuator "<" then
    return (← g.assertedExpression, false)
  else
    return (← g.updateExpression, false)

/-- The operators between two operands. -/
def binaryOperators : List String :=
  ["??", "||", "&&", "|", "^", "&", "==", "!=", "===", "!==", "<", "<=", "<<", "+", "-", "*", "/",
   "%", "**"]

/-- The operators that begin with a greater-than sign and assign. -/
def greaterAssignments : List String := [">>>=", ">>="]

/-- The operator between two operands that a token begins, with the text after it. -/
def binaryOperator? (inOperator : Bool) (l : Lexeme) : Option (String × List Char) :=
  match l.token with
  | .punctuator p =>
      if p = ">" then (greaterOperator? l.text).filter fun o => !greaterAssignments.contains o.1
      else if binaryOperators.contains p then some (p, l.rest)
      else none
  | .name w false =>
      if w = "instanceof" || (w = "in" && inOperator) then some (w, l.rest) else none
  | _ => none

def binaryOperator : Parser (Option (String × List Char)) := do
  return binaryOperator? (← read).inOperator (← get)

/-- What follows an operand: an operator with its operand, or a type it is taken for. -/
structure Operation where
  operator : String
  node : Node
  /-- Whether the operand has a prefix operator. -/
  hasPrefix : Bool

/-- An operand, which may be a private name before `in`. -/
def operandOrPrivateName (g : Grammar) : Parser (Expr × Bool) := do
  match (← get).token with
  | .privateName _ =>
      guard (← nextIs fun l => l.isWord "in")
      advance
      return (plain (.group []), false)
  | _ => g.unaryExpression

def operation (g : Grammar) : Parser (Option Operation) := do
  match ← binaryOperator with
  | some (operator, rest) =>
      moveTo rest
      let (e, hasPrefix) ← g.operandOrPrivateName
      guard (!e.patternOnly)
      return some ⟨operator, e.node, hasPrefix⟩
  | none =>
      if (← isTyped) && ((← seesWord "as") || (← seesWord "satisfies")) &&
          !(← newlineBefore) then
        advance
        return some ⟨"as", ← g.type, false⟩
      else
        return none

/-- No power of an operand with a prefix operator. -/
def powersAllowed : Bool → List Operation → Bool
  | _, [] => true
  | hasPrefix, o :: more => !(hasPrefix && o.operator == "**") && powersAllowed o.hasPrefix more

/-- Operands with operators between them. A default for a missing value does not stand beside a
logical operator. -/
def binaryExpression (g : Grammar) : Parser Expr := do
  let (first, hasPrefix) ← g.operandOrPrivateName
  if first.patternOnly then
    return first
  else
    let more ← many g.operation
    if more.isEmpty then
      return first
    else
      guard (powersAllowed hasPrefix more)
      let has (p : String) : Bool := more.any (·.operator == p)
      guard (!(has "??" && (has "||" || has "&&")))
      let n := Node.group (first.node :: more.map (·.node))
      -- what is taken for another type can still be assigned to
      if more.all (·.operator == "as") then
        return { first with node := n }
      else
        return plain n

/-- A condition with its two outcomes. -/
def conditionalExpression (g : Grammar) : Parser Expr := do
  let test ← g.binaryExpression
  if !test.patternOnly && (← accept "?") then
    let holds ←
      within (fun c => { c with inOperator := true, consequent := true }) g.operand
    expect ":"
    let fails ← g.operand
    return plain (.group [test.node, holds, fails])
  else
    return test

/-! ## Assignments -/

def compoundAssignments : List String :=
  ["+=", "-=", "*=", "/=", "%=", "**=", "<<=", "&=", "|=", "^=", "&&=", "||=", "??="]

/-- The assignment operator that a token begins, with the text after it. -/
def assignmentOperator? (l : Lexeme) : Option (String × List Char) :=
  match l.token with
  | .punctuator p =>
      if p = ">" then (greaterOperator? l.text).filter fun o => greaterAssignments.contains o.1
      else if p = "=" || compoundAssignments.contains p then some (p, l.rest)
      else none
  | _ => none

def assignmentOperator : Parser (Option (String × List Char)) := do
  return assignmentOperator? (← get)

def yieldExpression (g : Grammar) : Parser Expr := do
  expectWord "yield"
  let l ← get
  if l.newline || l.isOneOf [")", "]", "\x7d", ",", ";", ":"] || l.token == .eof ||
      l.isWord "in" || l.isWord "of" then
    return plain (.group [])
  else
    let _ ← accept "*"
    return plain (.group [← g.operand])

/-- Whether a list of type parameters may start here. Where a tag could start as well, the
parameter has to be followed by something that no tag has. -/
def seesTypeParameters : Parser Bool := do
  if (← isTyped) && (← sees "<") then
    if ← hasMarkup then
      ahead do
        advance
        let _ ← acceptWord "const"
        let _ ← identifier
        if (← sees ",") || (← sees "=") then return ()
        else
          expectWord "extends"
          guard (!(← seesAny ["=", ">", "/"]))
    else
      return true
  else
    return false

/-- An arrow function, if one starts here. -/
def arrowFunction (g : Grammar) (consequent : Bool) : Parser (Option Node) := do
  let l ← get
  match l.token with
  | .punctuator "(" => attempt (g.fullArrow false consequent)
  | .punctuator "<" =>
      if ← seesTypeParameters then attempt (g.fullArrow false consequent) else return none
  | .name text escaped =>
      -- nothing but an arrow function goes on like this, so it need not be tried
      if ← nextIs fun n => n.isPunctuator "=>" && !n.newline then
        some <$> g.plainArrow false consequent
      else if text = "async" && !escaped then
        if ← nextIs fun n => !n.newline && n.isPlainName then
          attempt do
            advance
            g.plainArrow true consequent
        else if ← nextIs fun n => !n.newline && n.isOneOf ["(", "<"] then
          attempt do
            advance
            g.fullArrow true consequent
        else
          return none
      else
        return none
  | _ => return none

/-- An assignment, an arrow function, or anything that binds tighter. -/
def assignmentExpression (g : Grammar) : Parser Expr := do
  let c ← read
  within (fun c => { c with consequent := false }) do
    if c.yield && (← seesWord "yield") then
      g.yieldExpression
    else
      match ← g.arrowFunction c.consequent with
      | some n => return plain n
      | none =>
          let left ← g.conditionalExpression
          match ← assignmentOperator with
          | some (operator, rest) =>
              guard (left.target = .simple || (operator = "=" && left.target = .pattern))
              moveTo rest
              let right ← within (fun k => { k with consequent := c.consequent }) g.operand
              return {
                node := .group [left.node, right]
                element := operator = "=" }
          | none => return left

/-- Assignments with commas between them. -/
def sequenceExpression (g : Grammar) : Parser Expr := do
  let first ← g.assignmentExpression
  if (← sees ",") && !first.patternOnly then
    let more ← many do
      if ← accept "," then return some (← g.operand) else return none
    return plain (.group (first.node :: more))
  else
    return first

end Grammar
end Script
end ClientBoundary
