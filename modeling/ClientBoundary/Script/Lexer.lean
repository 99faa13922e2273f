import ClientBoundary.Script.Character
import ClientBoundary.Script.Token
import ClientBoundary.Text.Hex

/-!
# Reading tokens

Every reader takes the text that is left and returns what it read with the text that follows;
`none` means that no token can be read there.

- `skipTrivia`: blanks, line breaks and comments;
- `Lexeme.read?`: the token at the front of a text;
- `regex?`, `templatePart?`, `markupText`, `markupName?`, `markupString?`: tokens that only the
  parser knows to expect, since a slash, a brace, a quote or a dash mean other things elsewhere.
-/

namespace ClientBoundary
namespace Script

/-! ## Blanks and comments -/

inductive TriviaMode where
  | code
  | lineComment
  | blockComment

/-- Skip blanks and comments; the flag tells whether a line break was among them. A comment that
does not end is refused. -/
def skipTrivia : TriviaMode → Bool → List Char → Option (Bool × List Char)
  | .blockComment, _, [] => none
  | _, newline, [] => some (newline, [])
  | .code, newline, '/' :: '/' :: rest => skipTrivia .lineComment newline rest
  | .code, newline, '/' :: '*' :: rest => skipTrivia .blockComment newline rest
  | .code, newline, c :: rest =>
      if isLineBreak c then skipTrivia .code true rest
      else if isBlank c then skipTrivia .code newline rest
      else some (newline, c :: rest)
  | .lineComment, newline, c :: rest =>
      if isLineBreak c then skipTrivia .code true rest else skipTrivia .lineComment newline rest
  | .blockComment, newline, '*' :: '/' :: rest => skipTrivia .code newline rest
  | .blockComment, newline, c :: rest =>
      skipTrivia .blockComment (newline || isLineBreak c) rest

/-! ## Escape sequences -/

/-- The code point of an escape sequence after `\u`: four digits, or digits in braces. -/
def unicodeEscape? : List Char → Option (Nat × List Char)
  | '\x7b' :: rest =>
      let digits := rest.takeWhile isHexDigit
      match Text.hexNumber? digits, rest.dropWhile isHexDigit with
      | some code, '\x7d' :: more =>
          if digits.isEmpty || 0x10FFFF < code then none else some (code, more)
      | _, _ => none
  | a :: b :: c :: d :: rest => (Text.hexNumber? [a, b, c, d]).map fun code => (code, rest)
  | _ => none

/-- The character of a code point; a lone surrogate has none and becomes a replacement mark. -/
def charOfCode (code : Nat) : Char :=
  if 0xD800 ≤ code ∧ code ≤ 0xDFFF then '\uFFFD' else Char.ofNat code

/-- Join a high and a low surrogate that are both written as escapes. -/
def joinSurrogates (high : Nat) (rest : List Char) : Option (Char × List Char) :=
  if 0xD800 ≤ high ∧ high ≤ 0xDBFF then
    match rest with
    | '\\' :: 'u' :: more =>
        match unicodeEscape? more with
        | some (low, after) =>
            if 0xDC00 ≤ low ∧ low ≤ 0xDFFF then
              some (Char.ofNat (0x10000 + (high - 0xD800) * 0x400 + (low - 0xDC00)), after)
            else
              none
        | none => none
    | _ => none
  else
    none

/-- Octal digits after a backslash: up to three, with a value of at most 255. -/
def octalEscape (c : Char) (rest : List Char) : Char × List Char :=
  let digit (c : Char) : Nat := c.toNat - '0'.toNat
  let isOctal (c : Char) : Bool := '0' ≤ c && c ≤ '7'
  match rest with
  | d :: more =>
      if isOctal d then
        let two := digit c * 8 + digit d
        match more with
        | e :: last =>
            if isOctal e && digit c ≤ 3 then (Char.ofNat (two * 8 + digit e), last)
            else (Char.ofNat two, more)
        | [] => (Char.ofNat two, more)
      else
        (Char.ofNat (digit c), rest)
  | [] => (Char.ofNat (digit c), rest)

/-- What an escape sequence stands for, its backslash already read; a line break stands for
nothing. -/
def escapeSequence? : List Char → Option (List Char × List Char)
  | [] => none
  -- these two characters are one line break
  | '\r' :: '\n' :: rest => some ([], rest)
  | 'u' :: rest =>
      (unicodeEscape? rest).map fun (code, more) =>
        match joinSurrogates code more with
        | some (c, after) => ([c], after)
        | none => ([charOfCode code], more)
  | 'x' :: rest =>
      match rest with
      | a :: b :: more => (Text.hexNumber? [a, b]).map fun code => ([Char.ofNat code], more)
      | _ => none
  | c :: rest =>
      if isLineBreak c then some ([], rest)
      else if c = 'n' then some (['\n'], rest)
      else if c = 't' then some (['\t'], rest)
      else if c = 'r' then some (['\r'], rest)
      else if c = 'b' then some ([Char.ofNat 8], rest)
      else if c = 'f' then some ([Char.ofNat 12], rest)
      else if c = 'v' then some ([Char.ofNat 11], rest)
      else if '0' ≤ c ∧ c ≤ '7' then
        let (value, more) := octalEscape c rest
        some ([value], more)
      else some ([c], rest)

/-! ## Names -/

/-- The characters of a name and whether one of them was written as an escape; `fuel` bounds
their number. -/
def nameChars? : Nat → Bool → List Char → Option (List Char × Bool × List Char)
  | 0, _, _ => none
  | fuel + 1, first, text =>
      let allowed (c : Char) : Bool := if first then isNameStart c else isNamePart c
      match text with
      | '\\' :: 'u' :: rest =>
          match unicodeEscape? rest with
          | none => none
          | some (code, more) =>
              let c := charOfCode code
              if allowed c then
                (nameChars? fuel false more).map fun (cs, _, after) => (c :: cs, true, after)
              else
                none
      | c :: rest =>
          if allowed c then
            (nameChars? fuel false rest).map fun (cs, escaped, after) => (c :: cs, escaped, after)
          else if c = '\\' then none
          else some ([], false, text)
      | [] => some ([], false, [])

def name? (text : List Char) : Option (String × Bool × List Char) :=
  match nameChars? (text.length + 1) true text with
  | some (c :: cs, escaped, rest) => some (String.ofList (c :: cs), escaped, rest)
  | _ => none

/-! ## Numbers -/

/-- Digits with single underscores between them, at least one; the rest starts with neither. -/
def digits? (isMember : Char → Bool) (text : List Char) : Option (List Char) :=
  let run := text.takeWhile fun c => isMember c || c = '_'
  let rest := text.dropWhile fun c => isMember c || c = '_'
  -- an underscore stands behind a digit and in front of one
  let rec separated : Bool → List Char → Bool
    | afterDigit, [] => afterDigit
    | afterDigit, c :: cs => if c = '_' then afterDigit && separated false cs else separated true cs
  if separated false run then some rest else none

/-- A part that may be missing: digits if one is there. -/
def optionalDigits? (text : List Char) : Option (List Char) :=
  match text with
  | c :: _ => if isDigit c then digits? isDigit text else if c = '_' then none else some text
  | [] => some []

/-- An exponent, if its letter is there. -/
def exponentPart? : List Char → Option (Bool × List Char)
  | c :: rest =>
      if c = 'e' ∨ c = 'E' then
        let unsigned :=
          match rest with
          | '+' :: more => more
          | '-' :: more => more
          | _ => rest
        (digits? isDigit unsigned).map fun after => (true, after)
      else
        some (false, c :: rest)
  | [] => some (false, [])

/-- The part of a decimal number from its point on. -/
def fractionAndExponent? : List Char → Option (Bool × List Char)
  | '.' :: rest =>
      (optionalDigits? rest).bind fun after => (exponentPart? after).map fun (_, r) => (true, r)
  | text => exponentPart? text

/-- The suffix of a big integer, where it may stand. -/
def bigSuffix (allowed : Bool) : List Char → List Char
  | 'n' :: rest => if allowed then rest else 'n' :: rest
  | text => text

/-- A number literal; what follows it may not be a name or a digit. -/
def number? (text : List Char) : Option (List Char) :=
  let radix (isMember : Char → Bool) (rest : List Char) : Option (List Char) :=
    (digits? isMember rest).map (bigSuffix true)
  let decimal : Option (List Char) :=
    match text with
    | '.' :: _ => (fractionAndExponent? text).map (·.2)
    | _ =>
        (digits? isDigit text).bind fun after =>
          (fractionAndExponent? after).map fun (plain, rest) => bigSuffix (!plain) rest
  let literal : Option (List Char) :=
    match text with
    | '0' :: c :: rest =>
        if c = 'x' ∨ c = 'X' then radix isHexDigit rest
        else if c = 'o' ∨ c = 'O' then radix (fun d => '0' ≤ d && d ≤ '7') rest
        else if c = 'b' ∨ c = 'B' then radix (fun d => d = '0' || d = '1') rest
        else if c = '_' then none
        else if isDigit c then
          let run := (c :: rest).takeWhile isDigit
          let after := (c :: rest).dropWhile isDigit
          -- an octal number of the old kind, unless one of its digits is too large for that
          if run.all fun d => d ≤ '7' then some after else (fractionAndExponent? after).map (·.2)
        else decimal
    | _ => decimal
  literal.bind fun rest =>
    match rest with
    | c :: _ => if isNameStart c || isDigit c || c = '\\' then none else some rest
    | [] => some rest

/-! ## Strings, templates and regular expressions -/

/-- The value of a string up to its closing quote; `fuel` bounds the number of its parts. -/
def stringBody? (quote : Char) : Nat → List Char → Option (List Char × List Char)
  | 0, _ => none
  | fuel + 1, text =>
      match text with
      | [] => none
      | c :: rest =>
          if c = quote then some ([], rest)
          else if c = '\\' then
            (escapeSequence? rest).bind fun (value, more) =>
              (stringBody? quote fuel more).map fun (cs, after) => (value ++ cs, after)
          else if c = '\n' ∨ c = '\r' then none
          else (stringBody? quote fuel rest).map fun (cs, after) => (c :: cs, after)

/-- A template after its opening mark or a closing brace: whether its escapes are well formed,
whether it ends here, and the rest; `fuel` bounds its length. -/
def templatePart? : Nat → List Char → Option (Bool × Bool × List Char)
  | 0, _ => none
  | _ + 1, [] => none
  | _ + 1, '\x60' :: rest => some (true, true, rest)
  | _ + 1, '$' :: '\x7b' :: rest => some (true, false, rest)
  | fuel + 1, '\\' :: rest =>
      -- digits behind a backslash make a template malformed, but it is read on
      let octal :=
        match rest with
        | '0' :: d :: _ => isDigit d
        | d :: _ => '1' ≤ d && d ≤ '9'
        | [] => false
      match escapeSequence? rest with
      | some (_, more) =>
          (templatePart? fuel more).map fun (valid, closed, after) =>
            (valid && !octal, closed, after)
      | none =>
          match rest with
          | [] => none
          | _ :: more =>
              (templatePart? fuel more).map fun (_, closed, after) => (false, closed, after)
  | fuel + 1, _ :: rest => templatePart? fuel rest

/-- A regular expression after its opening slash, up to the closing one. -/
def regexBody? (inClass : Bool) : List Char → Option (List Char)
  | [] => none
  | '\\' :: c :: rest => if isLineBreak c then none else regexBody? inClass rest
  | c :: rest =>
      if isLineBreak c || c = '\\' then none
      else if c = '[' then regexBody? true rest
      else if c = ']' then regexBody? false rest
      else if c = '/' && !inClass then some rest
      else regexBody? inClass rest

/-- A regular expression with its flags, each of them known and written once. -/
def regex? : List Char → Option (List Char)
  | '/' :: text =>
      (regexBody? false text).bind fun rest =>
        let flags := rest.takeWhile isNamePart
        let after := rest.dropWhile isNamePart
        let known := flags.all fun c => "dgimsuvy".toList.contains c
        -- flags are written without escapes
        let followed := after.head? == some '\\'
        if known && flags.eraseDups.length = flags.length && !followed then some after else none
  | _ => none

/-! ## Punctuators -/

/-- The punctuators, a longer one before those that begin it. A greater-than sign is read on its
own, since it may close a list of types. -/
def punctuators : List String :=
  ["...", "===", "!==", "**=", "<<=", "&&=", "||=", "??=",
   "=>", "==", "!=", "<=", "<<", "++", "--", "**", "&&", "||", "??", "+=", "-=", "*=", "/=", "%=",
   "&=", "|=", "^=", "\x7b", "\x7d", "(", ")", "[", "]", ".", ";", ",", "<", ">", "+", "-", "*",
   "/", "%", "&", "|", "^", "!", "~", "?", ":", "=", "@"]

/-- The text after an expected beginning. -/
def dropBeginning? : List Char → List Char → Option (List Char)
  | [], text => some text
  | c :: cs, d :: ds => if c = d then dropBeginning? cs ds else none
  | _ :: _, [] => none

/-- A question mark with a point links a chain, unless a digit follows the point. -/
def chainMark? : List Char → Option (List Char)
  | '?' :: '.' :: rest =>
      match rest with
      | d :: _ => if isDigit d then none else some rest
      | [] => some rest
  | _ => none

def punctuator? (text : List Char) : Option (String × List Char) :=
  match chainMark? text with
  | some rest => some ("?.", rest)
  | none =>
      punctuators.findSome? fun p => (dropBeginning? p.toList text).map fun rest => (p, rest)

/-- The operators that begin with a greater-than sign. -/
def greaterOperators : List String :=
  [">>>=", ">>>", ">>=", ">>", ">=", ">"]

def greaterOperator? (text : List Char) : Option (String × List Char) :=
  greaterOperators.findSome? fun p => (dropBeginning? p.toList text).map fun rest => (p, rest)

/-! ## Tokens -/

/-- The token at the front of a text without trivia. -/
def token? : List Char → Option (Token × List Char)
  | [] => some (.eof, [])
  | c :: rest =>
      let text := c :: rest
      if isNameStart c || c = '\\' then
        (name? text).map fun (n, escaped, after) => (.name n escaped, after)
      else if isDigit c then (number? text).map fun after => (.number, after)
      else if c = '\x27' || c = '"' then
        (stringBody? c text.length rest).map fun (cs, after) => (.string (String.ofList cs), after)
      else if c = '\x60' then
        (templatePart? text.length rest).map fun (valid, closed, after) =>
          (.template valid closed, after)
      else if c = '#' then (name? rest).map fun (n, _, after) => (.privateName n, after)
      else
        match c, rest with
        -- a point begins a number if a digit follows it
        | '.', d :: _ =>
            if isDigit d then (number? text).map fun after => (.number, after)
            else (punctuator? text).map fun (p, after) => (.punctuator p, after)
        | _, _ => (punctuator? text).map fun (p, after) => (.punctuator p, after)

/-- The next token of a text. -/
def Lexeme.read? (text : List Char) : Option Lexeme :=
  (skipTrivia .code false text).bind fun (newline, text) =>
    (token? text).map fun (token, rest) => ⟨token, newline, text, rest⟩

/-- A byte order mark belongs to no token. -/
def skipMark : List Char → List Char
  | '\uFEFF' :: rest => rest
  | text => text

/-- A first line that names an interpreter belongs to no token. -/
def skipInterpreter : List Char → List Char
  | '#' :: '!' :: rest => rest.dropWhile fun c => !isLineBreak c
  | text => text

/-- What stands before the text proper. -/
def skipPreamble (text : List Char) : List Char :=
  skipInterpreter (skipMark text)

/-! ## Markup -/

/-- What follows the text of a markup child: a brace or an angle bracket. -/
def markupText (text : List Char) : List Char :=
  text.dropWhile fun c => !(['\x7b', '\x7d', '<', '>'].contains c)

/-- A name of markup, which may have dashes after its first character. -/
def markupName? (text : List Char) : Option (String × List Char) :=
  match text with
  | c :: _ =>
      if isNameStart c then
        let run := text.takeWhile fun c => isNamePart c || c = '-'
        some (String.ofList run, text.dropWhile fun c => isNamePart c || c = '-')
      else
        none
  | [] => none

/-- A quoted attribute value, in which a backslash is an ordinary character. -/
def markupString? (text : List Char) : Option (List Char) :=
  match text with
  | c :: rest =>
      if c = '\x27' || c = '"' then
        match rest.dropWhile (· ≠ c) with
        | _ :: after => some after
        | [] => none
      else
        none
  | [] => none

end Script
end ClientBoundary
