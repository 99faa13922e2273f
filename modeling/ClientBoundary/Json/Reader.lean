import ClientBoundary.Json.Value
import ClientBoundary.Text.Hex

/-!
# Reading JSON text

The strict grammar: one value, blanks around it and nothing else, no control character and no lone
surrogate in a string, and at most 127 arrays and objects inside each other.

Each reader takes the text and returns what it read with the text that follows. An integer that
fits 64 bits stays an integer. Any other number is its significand, as far as that fits 64 bits,
scaled by its power of ten in floating-point arithmetic.
-/

namespace ClientBoundary
namespace Json

/-- A reader returns a value and the rest of the text, or refuses. -/
abbrev Reader (α : Type) := List Char → Option (α × List Char)

def isBlank (c : Char) : Bool :=
  c = ' ' || c = '\n' || c = '\r' || c = '\t'

def skipBlanks (text : List Char) : List Char :=
  text.dropWhile isBlank

/-- The text after an expected beginning. -/
def after? : List Char → List Char → Option (List Char)
  | [], text => some text
  | c :: cs, d :: ds => if c = d then after? cs ds else none
  | _ :: _, [] => none

/-! ## Strings -/

/-- The character of a letter after a backslash. -/
def unescape? (c : Char) : Option Char :=
  if c = '"' ∨ c = '\\' ∨ c = '/' then some c
  else if c = 'n' then some '\n'
  else if c = 'r' then some '\r'
  else if c = 't' then some '\t'
  else if c = 'b' then some (Char.ofNat 8)
  else if c = 'f' then some (Char.ofNat 12)
  else none

def isHighSurrogate (n : Nat) : Bool := 0xD800 ≤ n && n ≤ 0xDBFF

def isLowSurrogate (n : Nat) : Bool := 0xDC00 ≤ n && n ≤ 0xDFFF

/-- The characters up to the closing quote, and the text after it. -/
def stringBody? : Reader (List Char)
  | '"' :: rest => some ([], rest)
  | '\\' :: 'u' :: a :: b :: c :: d :: rest =>
      match Text.hexNumber? [a, b, c, d] with
      | none => none
      | some unit =>
          if isHighSurrogate unit then
            match rest with
            | '\\' :: 'u' :: e :: f :: g :: h :: more =>
                match Text.hexNumber? [e, f, g, h] with
                | none => none
                | some low =>
                    if isLowSurrogate low then
                      let code := 0x10000 + (unit - 0xD800) * 0x400 + (low - 0xDC00)
                      (stringBody? more).map fun (s, r) => (Char.ofNat code :: s, r)
                    else
                      none
            | _ => none
          else if isLowSurrogate unit then
            none
          else
            (stringBody? rest).map fun (s, r) => (Char.ofNat unit :: s, r)
  | '\\' :: c :: rest =>
      match unescape? c with
      | none => none
      | some plain => (stringBody? rest).map fun (s, r) => (plain :: s, r)
  | c :: rest =>
      if c = '\\' ∨ c.toNat < 0x20 then none
      else (stringBody? rest).map fun (s, r) => (c :: s, r)
  | [] => none

def string? : Reader String
  | '"' :: rest => (stringBody? rest).map fun (s, r) => (String.ofList s, r)
  | _ => none

/-! ## Numbers -/

def isDigit (c : Char) : Bool := '0' ≤ c && c ≤ '9'

def digitValue (c : Char) : Nat := c.toNat - '0'.toNat

/-- Append digits to a significand while it fits 64 bits; what does not fit is returned. -/
def appendDigits (significand : Nat) : List Char → Nat × List Char
  | [] => (significand, [])
  | c :: cs =>
      let next := significand * 10 + digitValue c
      if next < UInt64.size then appendDigits next cs else (significand, c :: cs)

/-- A magnitude times a power of ten: one product or quotient by a power up to `10 ^ 308`, after
as many divisions by `10 ^ 308` as a small power needs. `none` when the result is too large. -/
def scaleTen? (m : Magnitude) : Nat → Int → Option Magnitude
  | 0, _ => some Magnitude.zero
  | fuel + 1, power =>
      if power.natAbs ≤ 308 then
        match Magnitude.powerOfTen? power.natAbs with
        | none => none
        | some p => if 0 ≤ power then m.mul? p else m.div? p
      else if m.significand = 0 then
        some m
      else if 0 ≤ power then
        none
      else
        match Magnitude.powerOfTen? 308 with
        | none => none
        | some p => (m.div? p).bind fun q => scaleTen? q fuel (power + 308)

/-- The magnitude of a significand of at most 64 bits and a power of ten. -/
def magnitude? (significand : Nat) (power : Int) : Option Magnitude :=
  (Magnitude.ofRatio? significand 1).bind fun m => scaleTen? m 5 power

/-- A number as it is written: whether there is a sign, the digits in front of the point and behind
it, and the exponent. -/
structure Numeral where
  negative : Bool
  whole : List Char
  fraction : Option (List Char)
  exponent : Option Int

/-- The number of a numeral; `none` when it is too large. -/
def Numeral.number? (n : Numeral) : Option Number :=
  let (significand, dropped) := appendDigits 0 n.whole
  let real (significand : Nat) (power : Int) : Option Number :=
    (magnitude? significand power).map (.real n.negative)
  match n.fraction, n.exponent with
  | none, none =>
      if dropped.isEmpty then
        if n.negative then
          -- the least integer is `-2 ^ 63`
          if 0 < significand ∧ 2 * significand ≤ UInt64.size then
            some (.integer (-(significand : Int)))
          else
            real significand 0
        else
          some (.integer significand)
      else
        real significand dropped.length
  | _, _ =>
      let places := n.fraction.getD []
      let (full, ignored) := appendDigits significand places
      let power : Int := (dropped.length : Int) - ((places.length - ignored.length : Nat) : Int)
      real full (power + n.exponent.getD 0)

/-- An exponent after its letter: a sign, if any, and at least one digit. -/
def exponent? (text : List Char) : Option (Int × List Char) :=
  let (negative, text) :=
    match text with
    | '+' :: rest => (false, rest)
    | '-' :: rest => (true, rest)
    | _ => (false, text)
  let digits := text.takeWhile isDigit
  if digits.isEmpty then
    none
  else
    let value : Int := digits.foldl (fun n c => n * 10 + (digitValue c : Int)) 0
    some (if negative then -value else value, text.dropWhile isDigit)

def numeral? : Reader Numeral := fun text =>
  let (negative, text) :=
    match text with
    | '-' :: rest => (true, rest)
    | _ => (false, text)
  let whole := text.takeWhile isDigit
  let rest := text.dropWhile isDigit
  if whole.isEmpty || (1 < whole.length && whole.head? == some '0') then
    none
  else
    let fraction : Option (Option (List Char) × List Char) :=
      match rest with
      | '.' :: more =>
          let places := more.takeWhile isDigit
          if places.isEmpty then none else some (some places, more.dropWhile isDigit)
      | _ => some (none, rest)
    fraction.bind fun (places, rest) =>
      let exponent : Option (Option Int × List Char) :=
        match rest with
        | 'e' :: more => (exponent? more).map fun (n, r) => (some n, r)
        | 'E' :: more => (exponent? more).map fun (n, r) => (some n, r)
        | _ => some (none, rest)
      exponent.map fun (power, rest) => (⟨negative, whole, places, power⟩, rest)

def number? : Reader Number := fun text =>
  (numeral? text).bind fun (n, rest) => n.number?.map fun value => (value, rest)

/-! ## Values -/

/-- Items separated by commas up to a closing character; `fuel` bounds their number. -/
def items? {α : Type} (item : Reader α) (close : Char) : Nat → Reader (List α)
  | 0, _ => none
  | fuel + 1, text =>
      (item (skipBlanks text)).bind fun (a, rest) =>
        match skipBlanks rest with
        | ',' :: more => (items? item close fuel more).map fun (as, r) => (a :: as, r)
        | c :: more => if c = close then some ([a], more) else none
        | [] => none

/-- The items between two brackets, the opening one already read. -/
def bracketed? {α : Type} (item : Reader α) (close : Char) : Reader (List α) := fun text =>
  match skipBlanks text with
  | c :: rest => if c = close then some ([], rest) else items? item close text.length text
  | [] => none

/-- A key, a colon and a value, which is read as its key asks. -/
def member? {κ α : Type} (key : Reader κ) (value : κ → Reader α) : Reader (κ × α) := fun text =>
  (key text).bind fun (k, rest) =>
    match skipBlanks rest with
    | ':' :: more => (value k (skipBlanks more)).map fun (v, r) => ((k, v), r)
    | _ => none

/-- A value without brackets. -/
def scalar? : Reader Value := fun text =>
  match text with
  | '"' :: _ => (string? text).map fun (s, r) => (.string s, r)
  | 'n' :: _ => (after? ['n', 'u', 'l', 'l'] text).map fun r => (.null, r)
  | 't' :: _ => (after? ['t', 'r', 'u', 'e'] text).map fun r => (.bool true, r)
  | 'f' :: _ => (after? ['f', 'a', 'l', 's', 'e'] text).map fun r => (.bool false, r)
  | _ => (number? text).map fun (n, r) => (.number n, r)

/-- A value with at most `depth` brackets inside each other. -/
def value? : Nat → Reader Value
  | 0, text => scalar? text
  | depth + 1, text =>
      match text with
      | '[' :: rest => (bracketed? (value? depth) ']' rest).map fun (vs, r) => (.array vs, r)
      | '{' :: rest =>
          (bracketed? (member? string? fun _ => value? depth) '}' rest).map fun (ms, r) =>
            (.object ms, r)
      | _ => scalar? text

/-- How many brackets may stand inside each other. -/
def maxDepth : Nat := 127

/-- A reader for a whole document, with blanks around what it reads and nothing else. -/
def document? {α : Type} (reader : Reader α) (text : String) : Option α :=
  match reader (skipBlanks text.toList) with
  | some (a, rest) => if (skipBlanks rest).isEmpty then some a else none
  | none => none

/-- The value of a whole document, as written. -/
def Value.parse? (text : String) : Option Value :=
  document? (value? maxDepth) text

end Json
end ClientBoundary
