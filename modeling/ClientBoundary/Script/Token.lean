/-!
# Tokens

- `Token`: a name, a literal, or a punctuator;
- `Lexeme`: a token where it stands in a text, which is the state of a parser;
- `isReserved`: the words that are never names of things.
-/

namespace ClientBoundary
namespace Script

inductive Token where
  /-- A name or a word of the language; `escaped` when an escape sequence spells part of it. -/
  | name (text : String) (escaped : Bool)
  | privateName (text : String)
  | punctuator (text : String)
  | string (value : String)
  | number
  | regex
  /-- A template up to its end or up to a substitution; `valid` unless an escape is malformed. -/
  | template (valid : Bool) (closed : Bool)
  | eof
  deriving DecidableEq, Repr

/-- A token with the text from its first character on, the text after it, and whether a line break
stands before it. -/
structure Lexeme where
  token : Token
  newline : Bool
  text : List Char
  rest : List Char

def reservedWords : List String :=
  ["break", "case", "catch", "class", "const", "continue", "debugger", "default", "delete", "do",
   "else", "enum", "export", "extends", "false", "finally", "for", "function", "if", "import",
   "in", "instanceof", "new", "null", "return", "super", "switch", "this", "throw", "true", "try",
   "typeof", "var", "void", "while", "with"]

def isReserved (word : String) : Bool :=
  reservedWords.contains word

end Script
end ClientBoundary
