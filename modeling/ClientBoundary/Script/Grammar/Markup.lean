import ClientBoundary.Script.Grammar.Types

/-!
# Markup

Elements, fragments and their attributes. Between tags the text is no sequence of tokens, so the
parser moves through it by hand: a production stops at the closing sign of its last tag and leaves
it to the one around it how to read on.
-/

namespace ClientBoundary
namespace Script
namespace Grammar

open ClientBoundary.Script.Parser

/-! ## Tags -/

/-- A name of markup at the current token. -/
def markupName : Parser String := do
  match markupName? (← get).text with
  | some (name, rest) =>
      moveTo rest
      return name
  | none => failure

/-- Whether a tag names a component, which is a variable of the program. -/
def isComponentTag (name : String) : Bool :=
  match name.toList with
  | c :: cs => !('a' ≤ c && c ≤ 'z') && !(c :: cs).contains '-'
  | [] => false

/-- The name of a tag: its parts with the marks between them, as written. -/
structure TagName where
  first : String
  more : List (String × String)
  deriving DecidableEq

namespace TagName

/-- The name of a plain tag. -/
def plain? (t : TagName) : Option String :=
  if t.more.isEmpty && t.first != "this" then some t.first else none

/-- The variable that a tag uses. -/
def referenced? (t : TagName) : Option String :=
  if t.first = "this" then none
  else
    match t.more with
    | [] => if isComponentTag t.first then some t.first else none
    | (mark, _) :: _ => if mark = "." then some t.first else none

def references (t : TagName) : List Node :=
  t.referenced?.toList.map fun name => Node.reference name .value

end TagName

/-- A tag name: plain, with a namespace, or with members. -/
def tagName : Parser TagName := do
  let first ← markupName
  if ← accept ":" then
    return ⟨first, [(":", ← markupName)]⟩
  else
    let more ← many do
      if ← accept "." then
        let name ← markupName
        guard (!name.toList.contains '-')
        return some (".", name)
      else
        return none
    return ⟨first, more⟩

/-! ## Attributes -/

/-- An expression in braces, which the current token opens; the closing brace stays current. -/
def bracedValue (g : Grammar) : Parser Node := do
  expect "\x7b"
  let n ← g.inner
  guard (← sees "\x7d")
  return n

/-- The value of an attribute after its equals sign, which is the current token. -/
def propValue (g : Grammar) : Parser Node := do
  match skipTrivia .code false (← get).rest with
  | none => failure
  | some (_, text) =>
      match markupString? text with
      | some rest =>
          moveTo rest
          return .group []
      | none =>
          moveTo text
          let n ← if ← sees "\x7b" then g.bracedValue else g.element
          advance
          return n

/-- An attribute: spread, or a name with an optional value. -/
def prop (g : Grammar) : Parser Node := do
  if ← accept "\x7b" then
    expect "..."
    let n ← g.innerOperand
    expect "\x7d"
    return .group [n]
  else
    let name ← markupName
    let qualified ← accept ":"
    if qualified then
      let _ ← markupName
    let value ← if ← sees "=" then pure [← g.propValue] else pure []
    return if qualified then .group value else .prop name value

/-! ## Children -/

/-- A child after a text, starting with an opening brace or a tag; `none` at a closing tag. The last
token of the child stays current. -/
def child (g : Grammar) : Parser (Option Node) := do
  moveTo (markupText (← get).rest)
  if ← sees "\x7b" then
    if ← nextIs fun l => l.isPunctuator "\x7d" then
      advance
      return some (.group [])
    else
      advance
      let _ ← accept "..."
      let n ← g.inner
      guard (← sees "\x7d")
      return some n
  else
    match (← get).text with
    | '<' :: rest =>
        moveTo ('<' :: rest)
        if ← nextIs fun l => l.isOneOf ["/", "/="] then
          return none
        else
          return some (← g.element)
    | _ => failure

/-- The closing tag of an element; its last sign stays current. -/
def closingTag : Parser (Option TagName) := do
  moveTo ((← get).text.drop 1)
  expect "/"
  let name ← if ← sees ">" then pure none else some <$> tagName
  guard (← sees ">")
  return name

/-! ## Elements -/

/-- Move behind the sign that opens a tag. -/
def openSign : Parser Unit := do
  match (← get).text with
  | '<' :: rest => moveTo rest
  | _ => failure

/-- An element or a fragment. -/
def markupElement (g : Grammar) : Parser Node := do
  openSign
  if ← sees ">" then
    let children ← many g.child
    guard ((← closingTag) = none)
    return .group children
  else
    let name ← tagName
    let types ← if ← isTyped then g.optionalTypeArguments else pure []
    let props ← many do
      if (← sees ">") || (← sees "/") then return none else return some (← g.prop)
    let tag := Node.opening name.plain? (name.references ++ types ++ props)
    if ← accept "/" then
      guard (← sees ">")
      return tag
    else
      let children ← many g.child
      guard ((← closingTag) = some name)
      return .group (tag :: children ++ name.references)

end Grammar
end Script
end ClientBoundary
