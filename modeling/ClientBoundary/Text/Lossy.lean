import ClientBoundary.Text.Bytes

/-!
# Bytes read as text

Bytes that are no UTF-8 are read with a replacement character for each broken piece: the longest
beginning of an encoded character that stands there, and at least one byte.

- `brokenLength`: the length of a broken piece;
- `lossyText`: the characters that bytes are read as;
- `lossyText_flatMap`: what is encoded is read back.
-/

namespace ClientBoundary
namespace Text

/-- The character whose encoding stands in front. -/
def firstChar? (bytes : List UInt8) : Option Char :=
  ByteArray.utf8DecodeChar? ⟨bytes.toArray⟩ 0

def isContinuation (b : UInt8) : Bool :=
  0x80 ≤ b && b ≤ 0xbf

/-- Whether two bytes begin a character of three or four bytes. Overlong encodings, surrogates and
numbers past the last character have no such beginning. -/
def beginsLong (first second : UInt8) : Bool :=
  (first = 0xe0 && 0xa0 ≤ second && second ≤ 0xbf) ||
    (first = 0xed && 0x80 ≤ second && second ≤ 0x9f) ||
    (0xe1 ≤ first && first ≤ 0xef && first ≠ 0xed && isContinuation second) ||
    (first = 0xf0 && 0x90 ≤ second && second ≤ 0xbf) ||
    (0xf1 ≤ first && first ≤ 0xf3 && isContinuation second) ||
    (first = 0xf4 && 0x80 ≤ second && second ≤ 0x8f)

/-- The length of the broken piece in front, where no character is encoded. -/
def brokenLength : List UInt8 → Nat
  | a :: b :: more =>
      if beginsLong a b then
        -- of four bytes the last one is missing, or more
        if 0xf0 ≤ a && more.head?.any isContinuation then 3 else 2
      else 1
  | _ => 1

/-- Bytes read as text. -/
def lossyText : List UInt8 → List Char
  | [] => []
  | b :: bs =>
      match firstChar? (b :: bs) with
      | some c => c :: lossyText (bs.drop (c.utf8Size - 1))
      | none => '\uFFFD' :: lossyText (bs.drop (brokenLength (b :: bs) - 1))
termination_by bytes => bytes.length
decreasing_by
  all_goals
    simp only [List.length_drop, List.length_cons]
    omega

/-! ## Laws -/

theorem firstChar?_charBytes (c : Char) (rest : List UInt8) :
    firstChar? (charBytes c ++ rest) = some c := by
  have bytes : (⟨(charBytes c ++ rest).toArray⟩ : ByteArray) =
      (String.utf8EncodeChar c).toByteArray ++ ⟨rest.toArray⟩ := by
    apply ByteArray.ext
    simp [charBytes, List.data_toByteArray]
  rw [firstChar?, bytes]
  exact ByteArray.utf8DecodeChar?_utf8EncodeChar_append

/-- The bytes of a text are read as that text. -/
theorem lossyText_flatMap (cs : List Char) : lossyText (cs.flatMap charBytes) = cs := by
  induction cs with
  | nil => rw [List.flatMap_nil, lossyText]
  | cons c cs ih =>
      have length : (charBytes c).length = c.utf8Size := String.length_utf8EncodeChar c
      have first := firstChar?_charBytes c (cs.flatMap charBytes)
      obtain ⟨b, bs, shape⟩ : ∃ b bs, charBytes c = b :: bs :=
        List.exists_cons_of_ne_nil String.utf8EncodeChar_ne_nil
      have rest : (bs ++ cs.flatMap charBytes).drop (c.utf8Size - 1) = cs.flatMap charBytes := by
        rw [← length, shape]
        exact List.drop_left
      rw [shape, List.cons_append] at first
      rw [List.flatMap_cons, shape, List.cons_append, lossyText, first]
      simp only [rest, ih]

end Text
end ClientBoundary
