import ClientBoundary.Script.Grammar.Expressions

/-!
# Declarations

Variables, and the declarations of types, enumerations and namespaces.
-/

namespace ClientBoundary
namespace Script
namespace Grammar

open ClientBoundary.Script.Parser

/-! ## Variables -/

/-- A declared variable with its type and its value. Unless `bare`, a pattern or a constant needs
a value. -/
def variableDeclarator (g : Grammar) (b : Binder) (constant bare : Bool) : Parser Node := do
  let l ← get
  let target ← g.pattern b
  let name := match l.token with
    | .name text _ => some text
    | _ => none
  if (← isTyped) && !(← newlineBefore) then
    let _ ← accept "!"
  let annotation ← g.optionalAnnotation
  if ← accept "=" then
    let init ← g.operand
    return .declarator name (target :: annotation) (some init)
  else
    let inHead := (← seesWord "of") || (← seesWord "in")
    guard (bare || inHead || (← read).ambient || (name.isSome && !constant))
    return .declarator name (target :: annotation) none

/-- The words that declare variables. -/
inductive VariableKind where
  | var
  | lexical
  | constant
  deriving DecidableEq

/-- The variables after a declaring word. -/
def variableDeclarators (g : Grammar) (k : VariableKind) : Parser (List Node) :=
  separatedBy "," (g.variableDeclarator ⟨k = .var⟩ (k = .constant) false)

/-- Whether `let` declares something here. -/
def seesLexicalLet : Parser Bool := do
  if ← seesWord "let" then
    nextIs fun l =>
      l.isOneOf ["[", "\x7b"] ||
        (match l.token with
         | .name text _ => !isReserved text
         | _ => false)
  else
    return false

/-- Whether `using` declares something here. -/
def seesUsing : Parser Bool := do
  if ← seesWord "using" then
    nextIs fun l => !l.newline && l.isPlainName && !l.isWord "of" && !l.isWord "as" &&
      !l.isWord "satisfies"
  else
    return false

/-- The word that declares variables, read if it is there. -/
def variableKeyword : Parser (Option VariableKind) := do
  if ← seesWord "var" then
    advance
    return some .var
  else if ← seesWord "const" then
    advance
    return some .constant
  else if ← seesLexicalLet then
    advance
    return some .lexical
  else if ← seesUsing then
    advance
    return some .constant
  else if (← read).await && (← seesWord "await") &&
      (← nextIs fun l => !l.newline && l.isWord "using") then
    let isUsing ← ahead do
      advance
      guard (← seesUsing)
    if isUsing then
      advance
      advance
      return some .constant
    else
      return none
  else
    return none

/-! ## Types -/

/-- An alias of a type, from its name on. -/
def typeAlias (g : Grammar) : Parser Node := do
  let name ← identifier
  let types ← g.optionalTypeParameters
  expect "="
  let t ← enclosed g.type
  semicolon
  return .group [.binding ⟨name, .type, false⟩, .scope .block (types ++ [t])]

/-- An interface that another one extends: a name, an access, and type arguments. -/
def parentInterface (g : Grammar) : Parser Node := do
  let first ← word
  let start := if first = "this" then Node.this else Node.reference first .type
  let names ← many do
    if ← accept "." then return some (← word) else return none
  let parent := names.foldl Node.member start
  return .group (parent :: (← g.optionalTypeArguments))

/-- An interface, from its name on. -/
def interfaceDeclaration (g : Grammar) : Parser Node := do
  let name ← identifier
  let types ← g.optionalTypeParameters
  let parents ← if ← acceptWord "extends" then separatedBy "," g.parentInterface else pure []
  let members ← g.typeMembers
  return .group
    [.binding ⟨name, .type, false⟩, .scope .block (types ++ parents ++ members)]

/-! ## Enumerations -/

/-- A member of an enumeration, known to the members after it. -/
def enumMember (g : Grammar) : Parser Node := do
  let name ← match (← get).token with
    | .name text _ => pure (some text)
    | .string s => pure (some s)
    | _ => failure
  advance
  let init ← g.optionalDefault
  let own := name.toList.map fun n => Node.binding ⟨n, .valueAndType, false⟩
  return .group (own ++ init)

/-- An enumeration, from its name on. -/
def enumDeclaration (g : Grammar) : Parser Node := do
  let name ← identifier
  expect "\x7b"
  let members ← commaSeparated "\x7d" g.enumMember
  return .group [.binding ⟨name, .valueAndType, false⟩, .scope .block members]

/-! ## Namespaces -/

/-- A namespace around its contents: it is a value unless it holds nothing but types. -/
def namespaceNode (name : String) (contents : Node) (typesOnly : Bool) : Node :=
  let meaning := if typesOnly then Meaning.type else Meaning.valueAndType
  .group [.binding ⟨name, meaning, false⟩, contents]

/-- The statements of a namespace, and whether they declare nothing but types. -/
def namespaceBody (g : Grammar) : Parser (Node × Bool) := do
  let body ← within (fun c => { c with exports := true }) g.statements
  return (.scope .function (body.map (·.node)), body.all (·.typesOnly))

/-- A namespace, from its name on: with points in the name the namespaces stand inside each
other. -/
def namespaceDeclaration (g : Grammar) : Parser Stmt := do
  let first ← identifier
  let more ← many do
    if ← accept "." then return some (← word) else return none
  let (body, typesOnly) ← g.namespaceBody
  let nested := more.foldr
    (fun name contents => Node.scope .function [namespaceNode name contents typesOnly]) body
  return ⟨namespaceNode first nested typesOnly, typesOnly⟩

/-- A module with a quoted name, or the global scope; what it declares is not known around it. -/
def foreignModule (g : Grammar) : Parser Stmt := do
  advance
  if ← sees "\x7b" then
    let (body, _) ← within (fun c => { c with ambient := true }) g.namespaceBody
    return ⟨.group [body], false⟩
  else
    semicolon
    return ⟨.group [], false⟩

end Grammar
end Script
end ClientBoundary
