import ClientBoundary.Script.Grammar.Statements

/-!
# Imports and exports

An import declares names. An export of a list uses them, unless it passes on the names of another
module.
-/

namespace ClientBoundary
namespace Script
namespace Grammar

open ClientBoundary.Script.Parser

/-! ## Parts -/

/-- The quoted name of a module. -/
def moduleName : Parser Unit := do
  guard (← get).isString
  advance

/-- Attributes of an import after its module. -/
def importAttributes (g : Grammar) : Parser Unit := do
  if (← seesWord "with") || ((← seesWord "assert") && !(← newlineBefore)) then
    advance
    expect "\x7b"
    let _ ← commaSeparated "\x7d" do
      let _ ← g.propertyName
      expect ":"
      moduleName

def fromModule (g : Grammar) : Parser Unit := do
  expectWord "from"
  moduleName
  g.importAttributes
  semicolon

/-- A name inside the braces of an import or an export; `none` for a quoted one. -/
def specifierName : Parser (Option String) := do
  match (← get).token with
  | .string _ =>
      advance
      return none
  | _ => some <$> word

/-- Two names of a specifier, the second one only if another name is given, and whether it is for
types only. -/
structure Specifier where
  first : Option String
  second : Option (Option String)
  typesOnly : Bool

/-- A name, and after `as` another one. -/
def renamedSpecifier (typesOnly : Bool) : Parser Specifier := do
  let first ← specifierName
  if ← acceptWord "as" then
    return ⟨first, some (← specifierName), typesOnly⟩
  else
    return ⟨first, none, typesOnly⟩

/-- A specifier that may be marked for types. The marking word can be a name of its own, and so
can the word that renames. -/
def specifier : Parser Specifier := do
  if (← isTyped) && (← seesWord "type") &&
      (← nextIs fun l => l.isName || l.isString) then
    -- `type as x` renames a name, `type as` and `type as as x` mark the name `as`
    let marked ← ahead do
      advance
      if ← seesWord "as" then
        advance
        if ← seesWord "as" then
          advance
          guard (← get).isName
        else
          guard (!(← get).isName)
    if marked then
      advance
      renamedSpecifier true
    else
      renamedSpecifier false
  else
    renamedSpecifier false

/-! ## Imports -/

def imported (typesOnly : Bool) (name : String) : Node :=
  .binding ⟨name, if typesOnly then .importedType else .valueAndType, false⟩

def importSpecifier (typesOnly : Bool) : Parser Node := do
  let s ← specifier
  match s.second, s.first with
  | some (some name), _ => return imported (typesOnly || s.typesOnly) name
  | none, some name => return imported (typesOnly || s.typesOnly) name
  | _, _ => failure

/-- All names of a module under one name, or a list of names. -/
def importedNames (typesOnly : Bool) : Parser (List Node) := do
  if ← accept "*" then
    expectWord "as"
    return [imported typesOnly (← identifier)]
  else
    expect "\x7b"
    commaSeparated "\x7d" (importSpecifier typesOnly)

/-- An import under a single name: a required module, or an alias of a qualified name. -/
def importAlias (g : Grammar) (typesOnly : Bool) : Parser Node := do
  let name ← identifier
  expect "="
  let source ←
    if (← seesWord "require") && (← nextIs fun l => l.isPunctuator "(") then
      advance
      expect "("
      moduleName
      expect ")"
      pure []
    else
      qualifiedName .value
  semicolon
  let _ := g
  return .group (imported typesOnly name :: source)

/-- The names of an import up to its module. -/
def importClause (g : Grammar) (typesOnly : Bool) : Parser Node := do
  let first ← if ← seesIdentifier then
      let name ← identifier
      pure [imported typesOnly name]
    else
      pure []
  let more ← if first.isEmpty then importedNames typesOnly
    else if ← accept "," then importedNames typesOnly
    else pure []
  g.fromModule
  return .group (first ++ more)

/-- Whether the word here marks an import for types rather than naming what is imported. -/
def seesTypeMark : Parser Bool := do
  if (← isTyped) && (← seesWord "type") then
    ahead do
      advance
      if ← seesWord "from" then
        -- this may be what is imported, and then the module does not follow it at once
        guard (← nextIs fun l => l.isWord "from" || l.isPunctuator "=")
      else
        guard ((← seesAny ["*", "\x7b"]) || (← seesIdentifier))
  else
    return false

/-- Whether an import under a single name starts here. -/
def seesImportAlias : Parser Bool := do
  return (← isTyped) && (← seesIdentifier) && (← nextIs fun l => l.isPunctuator "=")

/-- An import. -/
def importDeclaration (g : Grammar) : Parser Stmt := do
  expectWord "import"
  if (← get).isString then
    moduleName
    g.importAttributes
    semicolon
    return ⟨.group [], true⟩
  else
    let typesOnly ← seesTypeMark
    if typesOnly then advance
    if ← seesImportAlias then
      return ⟨← g.importAlias typesOnly, true⟩
    else
      return ⟨← g.importClause typesOnly, true⟩

/-! ## Exports -/

/-- A list of exported names: uses of them, unless another module is named. -/
def exportList (g : Grammar) (typesOnly : Bool) : Parser Node := do
  expect "\x7b"
  let specifiers ← commaSeparated "\x7d" specifier
  if ← seesWord "from" then
    g.fromModule
    return .group []
  else
    semicolon
    let names := specifiers.filterMap fun s =>
      s.first.map fun name =>
        Node.reference name (if typesOnly || s.typesOnly then .type else .exported)
    -- these are names of the file itself, so none of them is a string or reserved
    guard (names.length = specifiers.length)
    guard (specifiers.all fun s => s.first.all fun name => !isReserved name)
    return .group names

/-- An export of everything another module has. -/
def exportAll (g : Grammar) : Parser Node := do
  expect "*"
  if ← acceptWord "as" then
    let _ ← specifierName
  g.fromModule
  return .group []

/-- The default export: a function, a class, an interface or a value. -/
def exportDefault (g : Grammar) (before : List Node) : Parser Node := do
  expectWord "default"
  if ← seesWord "function" then
    g.functionDeclaration false true
  else if ← seesAsyncFunction then
    advance
    g.functionDeclaration true true
  else if (← seesWord "class") || (← sees "@") then
    g.classDeclaration (before ++ (← g.decorators)) true
  else if (← isTyped) && (← seesWord "abstract") &&
      (← nextIs fun l => !l.newline && l.isWord "class") then
    advance
    g.classDeclaration before true
  else if (← isTyped) && (← seesWord "interface") &&
      (← nextIs fun l => !l.newline && l.isPlainName) then
    advance
    g.interfaceDeclaration
  else
    let n ← g.operand
    semicolon
    return .group [n]

/-- An exported declaration, with the decorators in front of the export. -/
def exportedDeclaration (g : Grammar) (before : List Node) : Parser Stmt := do
  if before.isEmpty then
    match ← within (fun c => { c with exports := false }) g.declaration with
    | some s => return s
    | none => failure
  else
    stmt <$> g.decoratedClass before

/-- An export; `before` holds the decorators in front of it. -/
def exportDeclaration (g : Grammar) (before : List Node) : Parser Stmt := do
  expectWord "export"
  if ← sees "*" then
    stmt <$> g.exportAll
  else if ← sees "\x7b" then
    stmt <$> g.exportList false
  else if ← seesWord "default" then
    stmt <$> g.exportDefault before
  else if (← isTyped) && (← accept "=") then
    let n ← g.operand
    semicolon
    return stmt (.group [n])
  else if (← isTyped) && (← seesWord "as") && (← nextIs fun l => l.isWord "namespace") then
    advance
    advance
    let _ ← identifier
    semicolon
    return stmt (.group [])
  else if (← isTyped) && (← seesWord "type") &&
      (← nextIs fun l => l.isOneOf ["\x7b", "*"]) then
    advance
    if ← sees "*" then stmt <$> g.exportAll else stmt <$> g.exportList true
  else if ← seesWord "import" then
    advance
    let typesOnly ← seesTypeMark
    if typesOnly then advance
    return stmt (← g.importAlias typesOnly)
  else
    g.exportedDeclaration before

/-- A statement, a declaration, an import or an export. -/
def moduleItem (g : Grammar) : Parser Stmt := do
  if (← read).exports then
    if (← seesWord "import") && (← nextIs fun l => !l.isOneOf ["(", "."]) then
      g.importDeclaration
    else if ← seesWord "export" then
      g.exportDeclaration []
    else
      -- decorators without an export behind them are read again with their class
      let decorated ← attempt do
        guard (← sees "@")
        let before ← g.decorators
        guard (← seesWord "export")
        return before
      match decorated with
      | some before => g.exportDeclaration before
      | none => g.statementItem
  else
    g.statementItem

end Grammar
end Script
end ClientBoundary
