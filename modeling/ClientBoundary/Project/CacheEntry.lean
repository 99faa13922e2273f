import ClientBoundary.Json.Printer
import ClientBoundary.Json.Record
import ClientBoundary.Rules.Finding

/-!
# Cache entries as text

An entry holds the digest of what was linted and the findings. It is written as compact JSON, each
record as an object with its fields in order.

Its text is read record by record, with the members that are no fields passed over. No field may be
given twice, and a fix that is missing is none.
-/

namespace ClientBoundary
namespace Project

open Json (Reader Value scalar? list? nullable? record?)
open Rules (Finding)

structure CacheEntry where
  digest : String
  findings : List Finding
  deriving DecidableEq, Repr

/-! ## Writing -/

def locationValue (l : Text.Location) : Value :=
  .object [("line", .ofNat l.line), ("column", .ofNat l.column)]

def insertionValue (i : Text.Insertion) : Value :=
  .object [("offset", .ofNat i.offset), ("text", .string i.text)]

def findingValue (f : Finding) : Value :=
  .object [
    ("rule", .string f.rule),
    ("message", .string f.message),
    ("causes", .ofStrings f.causes),
    ("file", .string f.file),
    ("location", locationValue f.location),
    ("fix", .ofOption insertionValue f.fix)]

def CacheEntry.toValue (e : CacheEntry) : Value :=
  .object [("hash", .string e.digest), ("findings", .array (e.findings.map findingValue))]

def CacheEntry.render (e : CacheEntry) : String :=
  e.toValue.render

/-! ## Reading values -/

/-- The values of a field among members; a list of more than one if it is given twice. -/
def valuesOf (key : String) (members : List (String × Value)) : List Value :=
  (members.filter (·.1 = key)).map (·.2)

/-- The value of a field that may be missing; refused if it is given twice. -/
def fieldOf? (members : List (String × Value)) (key : String) : Option (Option Value) :=
  match valuesOf key members with
  | [] => some none
  | [v] => some (some v)
  | _ :: _ :: _ => none

/-- The values of the fields of a record, from an object or from an array of all of them. -/
def recordFields? (keys : List String) : Value → Option (List (Option Value))
  | .object members => keys.mapM (fieldOf? members)
  -- not even a fix may be missing here
  | .array items => if items.length = keys.length then some (items.map some) else none
  | _ => none

/-- A number of 32 bits. -/
def word? (v : Value) : Option Nat :=
  v.asNat?.bind fun n => if n < UInt32.size then some n else none

def location? (v : Value) : Option Text.Location :=
  match recordFields? ["line", "column"] v with
  | some [some line, some column] => do
      let l ← word? line
      let c ← word? column
      pure ⟨l, c⟩
  | _ => none

def insertion? (v : Value) : Option Text.Insertion :=
  match recordFields? ["offset", "text"] v with
  | some [some offset, some text] => do
      let o ← word? offset
      let t ← text.asString?
      pure ⟨o, t⟩
  | _ => none

/-- A fix; none for `null`. -/
def fix? : Option Value → Option (Option Text.Insertion)
  | none => some none
  | some .null => some none
  | some v => (insertion? v).map some

def finding? (v : Value) : Option Finding :=
  match recordFields? ["rule", "message", "causes", "file", "location", "fix"] v with
  | some [some rule, some message, some causes, some file, some location, fix] => do
      let rule ← rule.asString?
      let message ← message.asString?
      let causes ← causes.asStrings?
      let file ← file.asString?
      let location ← location? location
      let fix ← fix? fix
      pure ⟨rule, message, causes, file, location, fix⟩
  | _ => none

def CacheEntry.ofValue? (v : Value) : Option CacheEntry :=
  match recordFields? ["hash", "findings"] v with
  | some [some digest, some findings] => do
      let digest ← digest.asString?
      let items ← findings.asArray?
      let findings ← items.mapM finding?
      pure ⟨digest, findings⟩
  | _ => none

/-! ## Reading text -/

def locationReader : Reader Value :=
  record? [("line", scalar?), ("column", scalar?)]

def insertionReader : Reader Value :=
  record? [("offset", scalar?), ("text", scalar?)]

def findingReader : Reader Value :=
  record? [
    ("rule", scalar?),
    ("message", scalar?),
    ("causes", list? scalar?),
    ("file", scalar?),
    ("location", locationReader),
    ("fix", nullable? insertionReader)]

def CacheEntry.reader : Reader Value :=
  record? [("hash", scalar?), ("findings", list? findingReader)]

def CacheEntry.parse? (text : String) : Option CacheEntry :=
  (Json.document? CacheEntry.reader text).bind CacheEntry.ofValue?

end Project
end ClientBoundary
