import ClientBoundary.Script.Grammar.Functions

/-!
# Classes

A class is a scope for its type parameters and, when it is an expression, its own name. Its
decorators stand outside that scope.
-/

namespace ClientBoundary
namespace Script
namespace Grammar

open ClientBoundary.Script.Parser

/-! ## Members -/

/-- The words that may stand in front of a member. -/
def memberModifiers : List String :=
  ["static", "public", "private", "protected", "readonly", "abstract", "override", "declare",
   "accessor"]

/-- The name of a class member: like a property name, or private. -/
def memberName (g : Grammar) : Parser (List Node) := do
  match (← get).token with
  | .privateName _ =>
      advance
      return []
  | _ => g.propertyName

/-- Whether the word here is a modifier: the name of a member follows it, on the same line if the
word could be a field of its own. -/
def seesModifierOf (words : List String) (star : Bool) : Parser Bool := do
  match (← get).token with
  | .name text false =>
      if words.contains text then
        nextIs fun l =>
          (l.startsPropertyName || (star && l.isPunctuator "*") ||
            (text == "static" && l.isPunctuator "\x7b")) &&
            !(l.newline && ["declare", "accessor", "async", "abstract"].contains text)
      else
        return false
  | _ => return false

/-- A static block: a function of its own. -/
def staticBlock (g : Grammar) : Parser Node :=
  within (fun c => { (FunctionKind.mk false false).enter c with returns := false }) do
    expectWord "static"
    g.bodyScope .function

/-- A field from after its name on. -/
def field (g : Grammar) : Parser (List Node) := do
  let annotation ← g.optionalAnnotation
  let init ← within (fun c => { c with await := false, yield := false }) g.optionalDefault
  semicolon
  return annotation ++ init

/-- A method if parentheses or type parameters follow the name, and a field otherwise. -/
def methodOrField (g : Grammar) (k : FunctionKind) (mustBeMethod : Bool) :
    Parser (List Node) := do
  if (← sees "(") || (← sees "<") then
    return [← g.method k true]
  else
    guard (!mustBeMethod)
    g.field

/-- A member of a class; a lone semicolon is none. -/
def classMember (g : Grammar) : Parser Node := do
  if ← accept ";" then
    return .group []
  else
    let before ← g.decorators
    if (← seesWord "static") && (← nextIs fun l => l.isPunctuator "\x7b") then
      guard before.isEmpty
      g.staticBlock
    else
      let _ ← many do
        if ← seesModifierOf memberModifiers true then
          advance
          return some ()
        else
          return none
      if (← isTyped) && (← seesIndexSignature) then
        let s ← g.indexSignature
        semicolon
        return s
      else
        let isAsync ← seesModifierOf ["async"] true
        if isAsync then advance
        let isGenerator ← generatorStar
        let isAccessor ← if isAsync || isGenerator then pure false
          else seesModifierOf ["get", "set"] false
        if isAccessor then advance
        let key ← g.memberName
        if ← isTyped then
          let _ ← accept "?"
          let _ ← accept "!"
        let rest ← g.methodOrField ⟨isAsync, isGenerator⟩ (isAsync || isGenerator || isAccessor)
        return .group (before ++ key ++ rest)

/-! ## Heads -/

/-- The class that another one extends, with its type arguments. -/
def superclass (g : Grammar) : Parser (List Node) := do
  if ← acceptWord "extends" then
    let parent ← value g.leftHandSide
    let arguments ← if ← isTyped then g.optionalTypeArguments else pure []
    return parent :: arguments
  else
    return []

/-- A name of a type with its arguments, as after `implements`. -/
def implementedType (g : Grammar) : Parser Node := do
  let name ← qualifiedName .type
  return .group (name ++ (← g.optionalTypeArguments))

def implementedTypes (g : Grammar) : Parser (List Node) := do
  if (← isTyped) && (← acceptWord "implements") then
    separatedBy "," g.implementedType
  else
    return []

/-- What follows the name of a class: type parameters, parents and members. -/
def classParts (g : Grammar) : Parser (List Node) := do
  let types ← g.optionalTypeParameters
  let parent ← g.superclass
  let interfaces ← g.implementedTypes
  expect "\x7b"
  let members ← many do
    if ← accept "\x7d" then return none else return some (← g.classMember)
  return types ++ parent ++ interfaces ++ members

/-- The name after `class`, if there is one. -/
def className : Parser (Option String) := do
  if (← seesIdentifier) && !((← isTyped) && (← seesWord "implements") &&
      (← nextIs fun l => !l.isPunctuator "\x7b")) then
    some <$> identifier
  else
    return none

/-- A class as an expression; its name is known inside it. -/
def classExpression (g : Grammar) (before : List Node) : Parser Node := do
  expectWord "class"
  let name ← className
  let parts ← enclosed g.classParts
  let own := name.toList.map fun n => Node.binding ⟨n, .valueAndType, false⟩
  return .group (before ++ [.scope .block (own ++ parts)])

/-- A class as a declaration; its name is known around it. -/
def classDeclaration (g : Grammar) (before : List Node) (nameless : Bool) : Parser Node := do
  expectWord "class"
  let name ← className
  guard (nameless || name.isSome)
  let parts ← enclosed g.classParts
  let own := name.toList.map fun n => Node.binding ⟨n, .valueAndType, false⟩
  return .group (before ++ own ++ [.scope .block parts])

end Grammar
end Script
end ClientBoundary
