import ClientBoundary.Script.Grammar.Types

/-!
# Patterns, parameters and functions

A function is a scope for its parameters with a scope for its body inside, so that a default value
sees the parameters and not the body.
-/

namespace ClientBoundary
namespace Script
namespace Grammar

open ClientBoundary.Script.Parser

/-! ## Patterns -/

/-- A default value after a pattern, if one is there. -/
def optionalDefault (g : Grammar) : Parser (List Node) :=
  optionalAfter (accept "=") g.innerOperand

def patternWithDefault (g : Grammar) (b : Binder) : Parser Node := do
  let target ← g.pattern b
  let default ← g.optionalDefault
  return .group (target :: default)

/-- A property of an object pattern. -/
def patternProperty (g : Grammar) (b : Binder) : Parser Node := do
  if ← accept "..." then
    let name ← identifier
    guard (← sees "\x7d")
    return b.node name
  else
    let l ← get
    let key ← g.propertyName
    if ← accept ":" then
      return .group (key ++ [← g.patternWithDefault b])
    else
      guard (← isIdentifier l.token)
      match l.token with
      | .name text _ => return .group (b.node text :: (← g.optionalDefault))
      | _ => failure

/-- An element of an array pattern; it may be left out. -/
def patternElement (g : Grammar) (b : Binder) : Parser Node := do
  if ← sees "," then
    return .group []
  else if ← accept "..." then
    let target ← g.pattern b
    guard (← sees "]")
    return target
  else
    g.patternWithDefault b

/-- A binding pattern: a name, an object or an array. -/
def bindingPattern (g : Grammar) (b : Binder) : Parser Node := do
  if ← accept "\x7b" then
    return .group (← commaSeparated "\x7d" (g.patternProperty b))
  else if ← accept "[" then
    return .group (← commaSeparated "]" (g.patternElement b))
  else
    return b.node (← identifier)

/-! ## Parameters -/

/-- An expression after an at sign. -/
def decorator (g : Grammar) : Parser Node := do
  expect "@"
  within
    (fun c =>
      { c with
        decorator := true
        inOperator := true
        consequent := false })
    (value g.leftHandSide)

def decorators (g : Grammar) : Parser (List Node) :=
  many do
    if ← sees "@" then return some (← g.decorator) else return none

/-- Skip the words that make a parameter a property. -/
def parameterModifiers : Parser Unit := do
  if ← isTyped then
    let _ ← many do
      match (← get).token with
      | .name text false =>
          if ["public", "private", "protected", "readonly", "override"].contains text &&
              (← nextIs fun l => l.isName || l.isOneOf ["\x7b", "["]) then
            advance
            return some ()
          else
            return none
      | _ => return none

/-- A parameter: a pattern with its type and its default, the rest, or the type of `this`. -/
def parameter (g : Grammar) : Parser Node := do
  let before ← g.decorators
  parameterModifiers
  if (← isTyped) && (← seesWord "this") then
    advance
    return .group (before ++ (← g.optionalAnnotation))
  else
    if ← accept "..." then
      let target ← g.pattern ⟨false⟩
      let annotation ← g.optionalAnnotation
      guard (← sees ")")
      return .group (before ++ target :: annotation)
    else
      let target ← g.pattern ⟨false⟩
      if ← isTyped then
        let _ ← accept "?"
      let annotation ← g.optionalAnnotation
      let default ← g.optionalDefault
      return .group (before ++ target :: annotation ++ default)

def parameters (g : Grammar) : Parser (List Node) := do
  expect "("
  commaSeparated ")" (enclosed g.parameter)

/-! ## Functions -/

/-- What kind of function the parts belong to. -/
structure FunctionKind where
  isAsync : Bool
  isGenerator : Bool

/-- The context inside a function. -/
def FunctionKind.enter (k : FunctionKind) (c : Context) : Context :=
  { c with
    await := k.isAsync
    yield := k.isGenerator
    returns := true
    inOperator := true
    consequent := false
    decorator := false
    conditionalTypes := true }

/-- Statements in braces. -/
def statements (g : Grammar) : Parser (List Stmt) := do
  expect "\x7b"
  many do
    if ← accept "\x7d" then return none else return some (← g.item)

/-- Statements in braces, as a scope of their own. -/
def bodyScope (g : Grammar) (kind : ScopeKind) : Parser Node := do
  let body ← within (fun c => { c with exports := false }) g.statements
  return .scope kind (body.map (·.node))

/-- What is inside a function: all before its body, and its body. A declared signature has none. -/
structure FunctionParts where
  head : List Node
  body : Option Node

def FunctionParts.scope (p : FunctionParts) (own : List Node) : Node :=
  .scope .function (own ++ p.head ++ p.body.toList)

/-- Parameters, the type of the result, and the body, which only a signature may lack. -/
def functionParts (g : Grammar) (k : FunctionKind) (signature : Bool) : Parser FunctionParts :=
  within k.enter do
    let types ← g.optionalTypeParameters
    let parameters ← g.parameters
    let result ← g.optionalResultType
    let head := types ++ parameters ++ result
    if ← sees "\x7b" then
      -- a body is there, so what is in it does not exist elsewhere
      let body ← within (fun c => { c with ambient := false }) (g.bodyScope .function)
      return ⟨head, some body⟩
    else
      guard (signature && (← isTyped))
      semicolon
      return ⟨head, none⟩

/-- The star of a generator, if it is there. -/
def generatorStar : Parser Bool :=
  accept "*"

/-- A function as an expression; its name is known inside it. -/
def functionExpression (g : Grammar) (isAsync : Bool) : Parser Node := do
  expectWord "function"
  let k : FunctionKind := ⟨isAsync, ← generatorStar⟩
  let name ← if ← seesIdentifier then some <$> identifier else pure none
  let parts ← g.functionParts k false
  let own := name.toList.map fun n => Node.binding ⟨n, .value, false⟩
  return .function name false [parts.scope own]

/-- A function as a declaration; its name is known around it. One without a body is a signature
and no declaration of a function. -/
def functionDeclaration (g : Grammar) (isAsync nameless : Bool) : Parser Node := do
  expectWord "function"
  let k : FunctionKind := ⟨isAsync, ← generatorStar⟩
  let name ← if ← seesIdentifier then some <$> identifier else pure none
  guard (nameless || name.isSome)
  let parts ← g.functionParts k true
  let own := name.toList.map fun n => Node.binding ⟨n, .value, false⟩
  return .group (own ++ [.function name parts.body.isSome [parts.scope []]])

/-- A method or an accessor from its parameters on. -/
def method (g : Grammar) (k : FunctionKind) (signature : Bool) : Parser Node := do
  let parts ← g.functionParts k signature
  return .function none false [parts.scope []]

/-! ## Arrow functions -/

/-- The body of an arrow function: a block or a single expression. -/
def arrowBody (g : Grammar) (isAsync consequent : Bool) : Parser (List Node) := do
  if ← sees "\x7b" then
    within (FunctionKind.mk isAsync false).enter do
      return [← within (fun c => { c with ambient := false }) (g.bodyScope .function)]
  else
    within
      (fun c =>
        { c with
          await := isAsync
          yield := false
          consequent := consequent })
      (do return [← g.operand])

/-- The arrow of an arrow function, on the line of its parameters. -/
def expectArrow : Parser Unit := do
  guard (!(← newlineBefore))
  expect "=>"

/-- An arrow function with one plain parameter. -/
def plainArrow (g : Grammar) (isAsync consequent : Bool) : Parser Node := do
  let name ← identifier
  expectArrow
  let body ← g.arrowBody isAsync consequent
  return .arrow [.scope .function (.binding ⟨name, .value, false⟩ :: body)]

/-- The head of an arrow function in parentheses: its parts, and whether it names the type of the
result. -/
def arrowHead (g : Grammar) (isAsync : Bool) : Parser (List Node × Bool) := do
  let types ← g.optionalTypeParameters
  let parameters ← within (fun c => { c with await := c.await || isAsync }) g.parameters
  let result ← g.optionalResultType
  expectArrow
  return (types ++ parameters ++ result, !result.isEmpty)

/-- An arrow function with parameters in parentheses. In the second operand of a conditional one
that names the type of its result has to leave a colon behind. -/
def fullArrow (g : Grammar) (isAsync consequent : Bool) : Parser Node := do
  let (head, hasResult) ← g.arrowHead isAsync
  let body ← g.arrowBody isAsync consequent
  if consequent && hasResult then guard (← sees ":")
  return .arrow [.scope .function (head ++ body)]

end Grammar
end Script
end ClientBoundary
