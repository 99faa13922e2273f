import ClientBoundary.Text.CaseTable

/-!
# Lower-casing

The full lower-case form of a text. Every character is replaced by its lower-case form, with two
rules beyond the table: a capital I with a dot becomes an i and a combining dot, and a capital
sigma becomes a final sigma at the end of a word. The end of a word is where a cased character
stands before and none after, ignorable characters in between being passed over.
-/

namespace ClientBoundary
namespace Text

def inRuns (runs : List (Nat × Nat)) (c : Char) : Bool :=
  runs.any fun (first, last) => first ≤ c.toNat && c.toNat ≤ last

/-- The lower-case form by the table; a character that is not in it stands for itself. -/
def lowercaseChar (c : Char) : Char :=
  match lowercaseRuns.find? fun (first, last, step, _) =>
      first ≤ c.toNat && c.toNat ≤ last && (c.toNat - first) % step == 0 with
  | some (_, _, _, distance) => Char.ofNat (c.toNat + distance).toNat
  | none => c

/-- Whether the first character that is not ignorable is cased. -/
def meetsCased (text : List Char) : Bool :=
  match text.dropWhile (inRuns caseIgnorableRuns) with
  | [] => false
  | c :: _ => inRuns casedRuns c

/-- Lower-case a text; `before` holds the characters in front of it, the nearest first. -/
def lowercaseFrom (before : List Char) : List Char → List Char
  | [] => []
  | c :: after =>
      let lowered :=
        if c = 'Σ' then
          if meetsCased before && !meetsCased after then ['ς'] else ['σ']
        else if c = 'İ' then
          ['i', '\u0307']
        else
          [lowercaseChar c]
      lowered ++ lowercaseFrom (c :: before) after

def lowercase (s : String) : String :=
  String.ofList (lowercaseFrom [] s.toList)

end Text
end ClientBoundary
