import ClientBoundary.Json.Binary64
import ClientBoundary.Json.Members

/-!
# JSON values

A document is kept as written: the members of an object stand in document order, and a repeated
key appears as often as it was written. `Value.sorted` is the reading in which an object is a map:
keys in increasing order, the last member of a repeated key, at every level.
-/

namespace ClientBoundary
namespace Json

/-- A number is an integer that fits 64 bits, or a floating-point number. -/
inductive Number where
  | integer (n : Int)
  | real (negative : Bool) (magnitude : Magnitude)
  deriving DecidableEq, Repr

inductive Value where
  | null
  | bool (b : Bool)
  | number (n : Number)
  | string (s : String)
  | array (items : List Value)
  | object (members : List (String × Value))
  deriving Repr, Inhabited

namespace Value

mutual

/-- Every object read as a map. -/
def sorted : Value → Value
  | .array items => .array (sortedItems items)
  | .object members => .object (sortMembers (sortedMembers members))
  | v => v

def sortedItems : List Value → List Value
  | [] => []
  | v :: more => v.sorted :: sortedItems more

def sortedMembers : List (String × Value) → List (String × Value)
  | [] => []
  | (key, v) :: more => (key, v.sorted) :: sortedMembers more

end

/-- The value under a key of a sorted object; anything else has no members. -/
def member? (v : Value) (key : String) : Option Value :=
  match v with
  | .object members => members.lookup key
  | _ => none

def asString? : Value → Option String
  | .string s => some s
  | _ => none

def asArray? : Value → Option (List Value)
  | .array items => some items
  | _ => none

def asNat? : Value → Option Nat
  | .number (.integer n) => if 0 ≤ n then some n.toNat else none
  | _ => none

def asBool? : Value → Option Bool
  | .bool b => some b
  | _ => none

/-- All items of an array of strings. -/
def asStrings? (v : Value) : Option (List String) :=
  v.asArray?.bind fun items => items.mapM asString?

def ofNat (n : Nat) : Value :=
  .number (.integer n)

def ofStrings (texts : List String) : Value :=
  .array (texts.map .string)

/-- A value for "none". -/
def ofOption {α : Type} (f : α → Value) : Option α → Value
  | none => .null
  | some a => f a

end Value
end Json
end ClientBoundary
