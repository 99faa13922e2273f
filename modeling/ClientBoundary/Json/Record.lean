import ClientBoundary.Json.Reader

/-!
# Reading records

A record is read from an object with its fields among the members, in any order, or from an array
of its fields in their order. What is read is the value without the members that are no fields.

The value of a field is read as the field asks. The value of any other member is passed over and
only has to have the form of a value: its numbers may be too large, its escapes of four digits need
not be characters, and its brackets may stand inside each other at any depth.
-/

namespace ClientBoundary
namespace Json

/-! ## Values that are passed over -/

/-- The text after the closing quote. -/
def skipBody? : List Char → Option (List Char)
  | '"' :: rest => some rest
  | '\\' :: 'u' :: a :: b :: c :: d :: rest =>
      (Text.hexNumber? [a, b, c, d]).bind fun _ => skipBody? rest
  | '\\' :: c :: rest => (unescape? c).bind fun _ => skipBody? rest
  | c :: rest => if c = '\\' ∨ c.toNat < 0x20 then none else skipBody? rest
  | [] => none

def skipString? : Reader Unit
  | '"' :: rest => (skipBody? rest).map fun r => ((), r)
  | _ => none

def skipScalar? : Reader Unit := fun text =>
  match text with
  | '"' :: _ => skipString? text
  | 'n' :: _ => (after? ['n', 'u', 'l', 'l'] text).map fun r => ((), r)
  | 't' :: _ => (after? ['t', 'r', 'u', 'e'] text).map fun r => ((), r)
  | 'f' :: _ => (after? ['f', 'a', 'l', 's', 'e'] text).map fun r => ((), r)
  | _ => (numeral? text).map fun (_, r) => ((), r)

/-- Pass over a value with at most `depth` brackets inside each other. -/
def skip? : Nat → Reader Unit
  | 0, text => skipScalar? text
  | depth + 1, text =>
      match text with
      | '[' :: rest => (bracketed? (skip? depth) ']' rest).map fun (_, r) => ((), r)
      | '{' :: rest =>
          (bracketed? (member? skipString? fun _ => skip? depth) '}' rest).map fun (_, r) =>
            ((), r)
      | _ => skipScalar? text

/-- Pass over any value; no text has more brackets than characters. -/
def skipValue? : Reader Unit := fun text =>
  skip? text.length text

/-! ## Records -/

/-- The fields of a record in their order, each with the reader of its value. -/
abbrev Fields := List (String × Reader Value)

/-- The value under a key, if that is a field. -/
def Fields.value? (fields : Fields) (key : String) : Reader (Option Value) := fun text =>
  match fields.lookup key with
  | some field => (field text).map fun (v, r) => (some v, r)
  | none => (skipValue? text).map fun (_, r) => (none, r)

/-- One value for each reader, with commas between them, up to the closing bracket. -/
def row? : List (Reader Value) → Reader (List Value)
  | [], _ => none
  | item :: others, text =>
      (item (skipBlanks text)).bind fun (v, rest) =>
        match skipBlanks rest with
        -- behind the last field a comma leads to a refusal
        | ',' :: more => (row? others more).map fun (vs, r) => (v :: vs, r)
        | ']' :: more => if others.isEmpty then some ([v], more) else none
        | _ => none

def record? (fields : Fields) : Reader Value
  | '{' :: rest =>
      (bracketed? (member? string? fields.value?) '}' rest).map fun (ms, r) =>
        (.object (ms.filterMap fun m => m.2.map (m.1, ·)), r)
  | '[' :: rest => (row? (fields.map (·.2)) rest).map fun (vs, r) => (.array vs, r)
  | _ => none

def list? (item : Reader Value) : Reader Value
  | '[' :: rest => (bracketed? item ']' rest).map fun (vs, r) => (.array vs, r)
  | _ => none

/-- A value or `null`. -/
def nullable? (item : Reader Value) : Reader Value := fun text =>
  match text with
  | 'n' :: _ => scalar? text
  | _ => item text

end Json
end ClientBoundary
