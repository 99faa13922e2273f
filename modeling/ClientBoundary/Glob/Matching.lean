import ClientBoundary.Glob.Pattern
import ClientBoundary.Text.Bytes

/-!
# Matching a path against a pattern

A path is matched as bytes. `Token.rests` lists what a token can leave of a text after taking a
beginning of it; a pattern accepts a path when its tokens, one after the other, can take all of it.
-/

namespace ClientBoundary
namespace Glob

def slash : UInt8 := 47

/-- What is left after a beginning without a slash. -/
def segmentRests : List UInt8 → List (List UInt8)
  | [] => [[]]
  | b :: rest => if b = slash then [b :: rest] else (b :: rest) :: segmentRests rest

/-- What is left after each slash. -/
def afterSlashes : List UInt8 → List (List UInt8)
  | [] => []
  | b :: rest => if b = slash then rest :: afterSlashes rest else afterSlashes rest

/-- Every ending of a text. -/
def endings : List UInt8 → List (List UInt8)
  | [] => [[]]
  | b :: rest => (b :: rest) :: endings rest

/-- What is left after a given beginning. -/
def afterBytes : List UInt8 → List UInt8 → List (List UInt8)
  | [], text => [text]
  | b :: bs, c :: cs => if b = c then afterBytes bs cs else []
  | _ :: _, [] => []

/-- Whether a byte belongs to a range of characters. Of a character beyond ASCII each byte counts
on its own, so a range runs from the last byte of its lower bound to the first byte of its upper
one. -/
def rangeHolds (range : Char × Char) (b : UInt8) : Bool :=
  let low := Text.charBytes range.1
  let high := Text.charBytes range.2
  if range.1 = range.2 then
    low.contains b
  else
    low.dropLast.contains b || high.tail.contains b ||
      (low.getLastD 0 ≤ b && b ≤ high.headD 0)

def classHolds (negated : Bool) (ranges : List (Char × Char)) (b : UInt8) : Bool :=
  negated != ranges.any fun r => rangeHolds r b

mutual

/-- Whether a token is a group whose branches are all without content. -/
def Token.isVoid : Token → Bool
  | .alternates branches => allVoid branches
  | _ => false

def branchIsVoid : List Token → Bool
  | [] => true
  | t :: ts => t.isVoid && branchIsVoid ts

def allVoid : List (List Token) → Bool
  | [] => true
  | branch :: more => branchIsVoid branch && allVoid more

end

mutual

/-- What a token can leave of a text. -/
def Token.rests : Token → List UInt8 → List (List UInt8)
  | .literal c, text => afterBytes (Text.charBytes c) text
  | .any, b :: rest => if b = slash then [] else [rest]
  | .any, [] => []
  | .many, text => segmentRests text
  | .leading, text => text :: afterSlashes text
  | .trailing, b :: rest => if b = slash then endings rest else []
  | .trailing, [] => []
  | .between, b :: rest => if b = slash then rest :: afterSlashes rest else []
  | .between, [] => []
  | .charClass negated ranges, b :: rest => if classHolds negated ranges b then [rest] else []
  | .charClass _ _, [] => []
  | .alternates branches, text =>
      if allVoid branches then [text] else branchRests branches text

/-- What a sequence of tokens can leave. -/
def sequenceRests : List Token → List UInt8 → List (List UInt8)
  | [], text => [text]
  | t :: ts, text => (t.rests text).flatMap fun rest => sequenceRests ts rest

/-- What the branches of a group can leave; a branch without content is passed over. -/
def branchRests : List (List Token) → List UInt8 → List (List UInt8)
  | [], _ => []
  | branch :: more, text =>
      (if branchIsVoid branch then [] else sequenceRests branch text) ++ branchRests more text

end

/-- Whether the pattern is a double star alone. -/
def isEverything : List Token → Bool
  | [.leading] => true
  | _ => false

/-- Whether a pattern takes the whole path. -/
def accepts (pattern : List Token) (path : List UInt8) : Bool :=
  isEverything pattern || (sequenceRests pattern path).any List.isEmpty

end Glob
end ClientBoundary
