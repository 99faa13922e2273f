import ClientBoundary.Script.IdentifierTable

/-!
# Classes of characters

Line breaks, blanks and the characters of names.
-/

namespace ClientBoundary
namespace Script

def isLineBreak (c : Char) : Bool :=
  c = '\n' || c = '\r' || c = '\u2028' || c = '\u2029'

/-- A blank that does not break the line. -/
def isBlank (c : Char) : Bool :=
  c = ' ' || c = '\t' ||
    (let n := c.toNat
     n = 0x0B || n = 0x0C || n = 0x85 || n = 0xA0 || n = 0x1680 || (0x2000 ≤ n && n ≤ 0x200B) ||
       n = 0x202F || n = 0x205F || n = 0x3000 || n = 0xFEFF)

def isAsciiLetter (c : Char) : Bool :=
  ('a' ≤ c && c ≤ 'z') || ('A' ≤ c && c ≤ 'Z')

def isDigit (c : Char) : Bool :=
  '0' ≤ c && c ≤ '9'

def isHexDigit (c : Char) : Bool :=
  isDigit c || ('a' ≤ c && c ≤ 'f') || ('A' ≤ c && c ≤ 'F')

def inTable (runs : List (Nat × Nat)) (c : Char) : Bool :=
  runs.any fun (first, last) => first ≤ c.toNat && c.toNat ≤ last

/-- Whether a character may begin a name. -/
def isNameStart (c : Char) : Bool :=
  isAsciiLetter c || c = '_' || c = '$' || (0x80 ≤ c.toNat && inTable startRuns c)

/-- Whether a character may continue a name. -/
def isNamePart (c : Char) : Bool :=
  isNameStart c || isDigit c || (0x80 ≤ c.toNat && inTable continueRuns c)

end Script
end ClientBoundary
