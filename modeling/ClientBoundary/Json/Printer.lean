import ClientBoundary.Json.Value
import ClientBoundary.Text.Hex

/-!
# Compact JSON text

A value is written without blanks, members in their order. In a string the quote, the backslash
and the control characters below the space are escaped, the five common ones by a letter and the
others by four hexadecimal digits; every other character stands for itself.

A floating-point number has the fewest digits that read back. It is positional, with at least one
place, when its leading digit stands at a power of ten from -5 to 15, and has a signed exponent
otherwise.
-/

namespace ClientBoundary
namespace Json

/-- One character as it stands inside quotes. -/
def escapeChar (c : Char) : List Char :=
  if c = '"' then ['\\', '"']
  else if c = '\\' then ['\\', '\\']
  else if c.toNat < 0x20 then
    if c = '\n' then ['\\', 'n']
    else if c = '\r' then ['\\', 'r']
    else if c = '\t' then ['\\', 't']
    else if c.toNat = 8 then ['\\', 'b']
    else if c.toNat = 12 then ['\\', 'f']
    else ['\\', 'u', '0', '0', Text.hexDigit (c.toNat / 16), Text.hexDigit (c.toNat % 16)]
  else [c]

/-- A text in quotes. -/
def quote (s : String) : List Char :=
  '"' :: s.toList.flatMap escapeChar ++ ['"']

/-! ## Numbers -/

/-- The decimal digits of a number. -/
def decimal (n : Nat) : List Char :=
  Nat.toDigits 10 n

def signedDecimal (n : Int) : List Char :=
  if n < 0 then '-' :: decimal n.natAbs else decimal n.natAbs

/-- A decimal with its leading digit at `10 ^ lead`, in positional form. -/
def positional (digits : List Char) (lead : Int) : List Char :=
  if lead < 0 then
    ['0', '.'] ++ List.replicate (-lead - 1).toNat '0' ++ digits
  else
    let whole := lead.toNat + 1
    if digits.length ≤ whole then
      digits ++ List.replicate (whole - digits.length) '0' ++ ['.', '0']
    else
      digits.take whole ++ '.' :: digits.drop whole

/-- A decimal with its leading digit at `10 ^ lead`, with an exponent. -/
def scientific (digits : List Char) (lead : Int) : List Char :=
  let mantissa :=
    match digits with
    | [] => []
    | [d] => [d]
    | d :: more => d :: '.' :: more
  mantissa ++ 'e' :: (if lead < 0 then '-' else '+') :: decimal lead.natAbs

def Magnitude.chars (m : Magnitude) : List Char :=
  if m.significand = 0 then
    ['0', '.', '0']
  else
    let (value, power) := m.shortest
    let digits := decimal value
    let lead := power + (digits.length : Int) - 1
    if -5 ≤ lead && lead < 16 then positional digits lead else scientific digits lead

def Number.chars : Number → List Char
  | .integer n => signedDecimal n
  | .real negative m => if negative then '-' :: m.chars else m.chars

/-! ## Values -/

namespace Value

mutual

def chars : Value → List Char
  | .null => ['n', 'u', 'l', 'l']
  | .bool true => ['t', 'r', 'u', 'e']
  | .bool false => ['f', 'a', 'l', 's', 'e']
  | .number n => n.chars
  | .string s => quote s
  | .array items => '[' :: itemChars items ++ [']']
  | .object members => '{' :: memberChars members ++ ['}']

def itemChars : List Value → List Char
  | [] => []
  | [v] => v.chars
  | v :: w :: more => v.chars ++ ',' :: itemChars (w :: more)

def memberChars : List (String × Value) → List Char
  | [] => []
  | [(key, v)] => quote key ++ ':' :: v.chars
  | (key, v) :: m :: more => quote key ++ ':' :: v.chars ++ ',' :: memberChars (m :: more)

end

/-- The compact text of a value. -/
def render (v : Value) : String :=
  String.ofList v.chars

end Value
end Json
end ClientBoundary
