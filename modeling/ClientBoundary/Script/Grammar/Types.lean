import ClientBoundary.Script.Grammar.Basic

/-!
# Types

Of a type the tree keeps the names it uses, in source order, and the scopes of the names it
declares itself: type parameters, the parameters of a function type, the key of a mapped type, and
what a conditional type infers.
-/

namespace ClientBoundary
namespace Script
namespace Grammar

open ClientBoundary.Script.Parser

/-! ## Names -/

/-- A name with points in it; the parts after the first one are no names of their own. -/
def qualifiedName (use : Use) : Parser (List Node) := do
  let first ← word
  let _ ← many do
    if ← sees "." then
      advance
      return some (← word)
    else
      return none
  return if first = "this" then [] else [.reference first use]

/-- The types between a less-than and a greater-than sign, at least one. -/
def typeArguments (g : Grammar) : Parser (List Node) := do
  let l ← get
  match l.text with
  | '<' :: rest => moveTo rest
  | _ => failure
  let types ← commaSeparated ">" (enclosed g.type)
  guard (!types.isEmpty)
  return types

/-- Type arguments, if they are there. -/
def optionalTypeArguments (g : Grammar) : Parser (List Node) := do
  if (← sees "<") || (← sees "<<") then g.typeArguments else return []

/-- A type parameter with its bound and its default. -/
def typeParameter (g : Grammar) : Parser Node := do
  -- words are modifiers as long as another name follows
  let _ ← many do
    if ((← seesWord "const") || (← seesWord "in") || (← seesWord "out")) &&
        (← nextIs Lexeme.isName) then
      return some (← word)
    else
      return none
  let name ← word
  let bound ← optionalAfter (acceptWord "extends") (enclosed g.type)
  let default ← optionalAfter (accept "=") (enclosed g.type)
  return .group (.binding ⟨name, .type, false⟩ :: bound ++ default)

/-- Type parameters, if they are there. -/
def optionalTypeParameters (g : Grammar) : Parser (List Node) := do
  if (← isTyped) && (← sees "<") then
    advance
    let parameters ← commaSeparated ">" g.typeParameter
    guard (!parameters.isEmpty)
    return parameters
  else
    return []

/-- A type after a colon, if one is there. -/
def optionalAnnotation (g : Grammar) : Parser (List Node) := do
  if (← isTyped) && (← accept ":") then return [← enclosed g.type] else return []

/-- The type of a result, which may be a statement about a parameter. -/
def resultType (g : Grammar) : Parser Node := enclosed do
  if (← seesWord "asserts") &&
      (← nextIs fun l => !l.newline && (l.isPlainName || l.isWord "this")) then
    advance
    let _ ← word
    if ← acceptWord "is" then g.type else return .group []
  else
    let subject ← if ← seesIdentifier then pure true else seesWord "this"
    -- the name in front of the word is that of a parameter and no type
    if subject && (← nextIs fun l => !l.newline && l.isWord "is") then
      advance
      advance
      g.type
    else
      g.type

/-- The type of a result after a colon, if one is there. -/
def optionalResultType (g : Grammar) : Parser (List Node) := do
  if (← isTyped) && (← accept ":") then return [← g.resultType] else return []

/-! ## Parameters of function types -/

/-- A parameter of a function type or a signature. -/
def signatureParameter (g : Grammar) : Parser Node := do
  if (← seesWord "this") then
    advance
    return .group (← g.optionalAnnotation)
  else
    let _ ← accept "..."
    let target ← g.pattern ⟨false⟩
    let _ ← accept "?"
    let annotation ← g.optionalAnnotation
    return .group (target :: annotation)

def signatureParameters (g : Grammar) : Parser (List Node) := do
  expect "("
  commaSeparated ")" g.signatureParameter

/-- Type parameters, parameters and a result after a colon. -/
def signature (g : Grammar) : Parser Node := do
  let types ← g.optionalTypeParameters
  let parameters ← g.signatureParameters
  let result ← g.optionalResultType
  return .scope .function (types ++ parameters ++ result)

/-- A function type: its parameters, an arrow and its result. -/
def functionType (g : Grammar) : Parser Node := do
  let types ← g.optionalTypeParameters
  let parameters ← g.signatureParameters
  expect "=>"
  let result ← g.resultType
  return .scope .function (types ++ parameters ++ [result])

/-! ## Members of object types -/

/-- The end of a member. Neither a comma nor a semicolon is needed, and no line break. -/
def memberEnd : Parser Unit := do
  unless ← accept "," do
    let _ ← accept ";"

/-- Whether an index signature starts here: a bracket, a name and a colon. -/
def seesIndexSignature : Parser Bool :=
  ahead do
    expect "["
    let _ ← identifier
    expect ":"

/-- The bracket, the key and the type of an index signature. -/
def indexSignature (g : Grammar) : Parser Node := do
  expect "["
  let _ ← identifier
  let key ← g.optionalAnnotation
  expect "]"
  let value ← g.optionalAnnotation
  return .group (key ++ value)

/-- Skip a modifier of a member, if a member's name follows it. -/
def acceptModifier (words : List String) : Parser Bool := do
  match (← get).token with
  | .name text false =>
      if words.contains text && (← nextIs Lexeme.startsPropertyName) then
        advance
        return true
      else
        return false
  | _ => return false

/-- A member of an object type or an interface. -/
def typeMember (g : Grammar) : Parser Node := do
  if (← sees "(") || (← sees "<") then
    g.signature
  else if (← seesWord "new") && (← nextIs fun l => l.isOneOf ["(", "<"]) then
    advance
    g.signature
  else
    let _ ← many do
      if ← acceptModifier ["readonly"] then return some () else return none
    if ← seesIndexSignature then
      g.indexSignature
    else
      let _ ← acceptModifier ["get", "set"]
      let key ← g.propertyName
      let _ ← accept "?"
      if (← sees "(") || (← sees "<") then
        return .group (key ++ [← g.signature])
      else
        return .group (key ++ (← g.optionalAnnotation))

/-- The members of an object type, both braces included. -/
def typeMembers (g : Grammar) : Parser (List Node) := do
  expect "\x7b"
  many do
    if ← accept "\x7d" then
      return none
    else
      let m ← enclosed g.typeMember
      memberEnd
      return some m

/-- A sign before a modifier of a mapped type. -/
def acceptSign : Parser Unit := do
  let _ ← accept "+"
  let _ ← accept "-"

/-- Whether a mapped type starts here. -/
def seesMappedType : Parser Bool :=
  ahead do
    expect "\x7b"
    acceptSign
    if (← seesWord "readonly") && (← nextIs fun l => l.isPunctuator "[") then advance
    expect "["
    let _ ← word
    expectWord "in"

/-- A type for every key of another one. -/
def mappedType (g : Grammar) : Parser Node := do
  expect "\x7b"
  acceptSign
  let _ ← acceptWord "readonly"
  expect "["
  let key ← word
  expectWord "in"
  let keys ← enclosed g.type
  let renamed ← optionalAfter (acceptWord "as") (enclosed g.type)
  expect "]"
  acceptSign
  let _ ← accept "?"
  let value ← g.optionalAnnotation
  let _ ← accept ";"
  let _ ← accept ","
  expect "\x7d"
  return .scope .block (.binding ⟨key, .type, false⟩ :: keys :: renamed ++ value)

/-! ## Operands -/

def keywordTypes : List String :=
  ["any", "unknown", "never", "number", "string", "boolean", "symbol", "object", "bigint",
   "undefined", "intrinsic"]

/-- An element of a tuple type: it may be spread, named or optional. -/
def tupleElement (g : Grammar) : Parser Node := enclosed do
  let _ ← accept "..."
  if (← ahead do
      let _ ← word
      let _ ← accept "?"
      expect ":") then
    let _ ← word
    let _ ← accept "?"
    expect ":"
    g.type
  else
    let t ← g.type
    let _ ← accept "?"
    return t

/-- The type of an imported module, or of something in it. -/
def importType (g : Grammar) : Parser Node := do
  expectWord "import"
  expect "("
  let argument ← enclosed g.type
  let options ← optionalAfter (do return (← accept ",") && !(← sees ")")) g.innerOperand
  let _ ← accept ","
  expect ")"
  let _ ← many do
    if ← accept "." then return some (← word) else return none
  let arguments ← g.optionalTypeArguments
  return .group (argument :: options ++ arguments)

/-- The type of a value. -/
def queryType (g : Grammar) : Parser Node := do
  expectWord "typeof"
  if ← seesWord "import" then
    g.importType
  else
    let subject ← qualifiedName .typeQuery
    if ← newlineBefore then
      return .group subject
    else
      return .group (subject ++ (← g.optionalTypeArguments))

/-- A type without operators around it. -/
def primaryType (g : Grammar) : Parser Node := do
  match (← get).token with
  | .string _ =>
      advance
      return .group []
  | .number =>
      advance
      return .group []
  | .template _ _ => return .group (← template false (enclosed g.type))
  | .punctuator "-" =>
      advance
      guard ((← get).token == .number)
      advance
      return .group []
  | .punctuator "(" =>
      advance
      let t ← enclosed g.type
      expect ")"
      return t
  | .punctuator "[" =>
      advance
      return .group (← commaSeparated "]" g.tupleElement)
  | .punctuator "\x7b" =>
      if ← seesMappedType then
        g.mappedType
      else
        return .group (← g.typeMembers)
  | .name text escaped =>
      if !escaped && ["null", "true", "false", "void", "this"].contains text then
        advance
        return .group []
      else if text = "typeof" then
        g.queryType
      else if text = "import" then
        g.importType
      else
        -- the word stands for a type in assertions
        guard (!isReserved text || text = "const")
        if keywordTypes.contains text && !(← nextIs fun l => l.isPunctuator ".") then
          advance
          return .group []
        else
          let name ← qualifiedName .type
          if ← newlineBefore then
            return .group name
          else
            return .group (name ++ (← g.optionalTypeArguments))
  | _ => failure

/-- Brackets after a type: an array of it, or one of its members. -/
def postfixType (g : Grammar) : Parser Node := do
  let operand ← g.primaryType
  let indices ← many do
    if (← sees "[") && !(← newlineBefore) then
      advance
      if ← accept "]" then
        return some (Node.group [])
      else
        let i ← enclosed g.type
        expect "]"
        return some i
    else
      return none
  return if indices.isEmpty then operand else .group (operand :: indices)

/-- The bound of an inferred type, unless a conditional type follows. -/
def inferBound (g : Grammar) : Parser (List Node) := do
  if ← seesWord "extends" then
    let bound ← attempt do
      advance
      let t ← within (fun c => { c with conditionalTypes := false }) g.type
      let c ← read
      -- a question mark makes what was read the condition of a type
      guard (!c.conditionalTypes || !(← sees "?"))
      return t
    return bound.toList
  else
    return []

/-- A type under operators such as `keyof`. -/
def operatorType (g : Grammar) : Parser Node := do
  match (← get).token with
  | .name text false =>
      if ["keyof", "unique", "readonly"].contains text then
        advance
        g.typeOperand
      else if text = "infer" then
        advance
        let name ← word
        let bound ← g.inferBound
        return .group (.binding ⟨name, .type, false⟩ :: bound)
      else
        g.postfixType
  | _ => g.postfixType

/-! ## Types -/

/-- Whether a function type starts here rather than a type in parentheses. -/
def seesFunctionType (g : Grammar) : Parser Bool := do
  if ← sees "<" then
    return true
  else if ← sees "(" then
    ahead do
      let _ ← g.signatureParameters
      guard (← sees "=>")
  else
    return false

/-- An operand of a union or an intersection, which may be a function type. -/
def unionOperand (g : Grammar) : Parser Node := do
  if ← g.seesFunctionType then
    g.functionType
  else if (← seesWord "new") then
    advance
    g.functionType
  else if (← seesWord "abstract") && (← nextIs fun l => l.isWord "new") then
    advance
    advance
    g.functionType
  else
    g.operatorType

/-- Operands of unions and intersections. -/
def unionType (g : Grammar) : Parser Node := do
  let _ ← accept "|"
  let _ ← accept "&"
  let first ← g.unionOperand
  let more ← many do
    if (← accept "|") || (← accept "&") then
      let _ ← accept "|"
      let _ ← accept "&"
      return some (← g.unionOperand)
    else
      return none
  return if more.isEmpty then first else .group (first :: more)

/-- A type, which may depend on a condition. What the condition infers is known in its bound and
in the type where it holds. -/
def typeExpression (g : Grammar) : Parser Node := do
  let checked ← g.unionType
  if (← read).conditionalTypes && (← seesWord "extends") && !(← newlineBefore) then
    advance
    -- a condition inside the bound needs parentheses
    let bound ← within (fun c => { c with conditionalTypes := false }) g.type
    expect "?"
    let holds ← enclosed g.type
    expect ":"
    let fails ← enclosed g.type
    return .group [checked, .scope .block [bound, holds], fails]
  else
    return checked

end Grammar
end Script
end ClientBoundary
