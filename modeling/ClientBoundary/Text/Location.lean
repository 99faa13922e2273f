import ClientBoundary.Text.Bytes

/-!
# Line and column of an offset

A location counts lines from one at each line feed, and columns from one in characters since the
last line feed. An offset past the end is the end; an offset inside a character stands for the end
of the text.

- `Location.ofOffset`: the location of an offset, in numbers without a bound;
- `wordsOfOffset?`: the same in words, with the last line found by the offset where it begins.
-/

namespace ClientBoundary
namespace Text

structure Location where
  line : Nat
  column : Nat
  deriving DecidableEq, Repr

/-- The text before a byte offset. -/
def textBefore (text : List Char) (offset : Nat) : List Char :=
  match splitAtByte? text (min offset (byteLength text)) with
  | some (before, _) => before
  | none => text

/-- How many characters stand after the last line feed. -/
def lastLineLength (text : List Char) : Nat :=
  (text.reverse.takeWhile (· ≠ '\n')).length

/-- The location right after a text that starts at line one, column one. -/
def Location.afterText (before : List Char) : Location where
  line := before.count '\n' + 1
  column := lastLineLength before + 1

def Location.ofOffset (source : String) (offset : Nat) : Location :=
  Location.afterText (textBefore source.toList offset)

/-! ## Counting in words -/

/-- The byte offset of the last line feed. -/
def lastFeed? : List Char → Option Nat
  | [] => none
  | c :: rest =>
      match lastFeed? rest with
      | some offset => some (c.utf8Size + offset)
      | none => if c = '\n' then some 0 else none

/-- The byte offset where the last line begins. -/
def lastLineStart (text : List Char) : Nat :=
  match lastFeed? text with
  | some offset => offset + 1
  | none => 0

/-- Line and column of an offset in words of 32 bits, in which sums may wrap around; none if the
last line does not begin between two characters. -/
def wordsOfOffset? (source : String) (offset : UInt32) : Option (UInt32 × UInt32) :=
  let before := textBefore source.toList offset.toNat
  (splitAtByte? before (lastLineStart before)).map fun (_, line) =>
    (UInt32.ofNat (before.count '\n') + 1, UInt32.ofNat line.length + 1)

/-! ## Laws -/

theorem textBefore_append (before after : List Char) :
    textBefore (before ++ after) (byteLength before) = before := by
  have le : min (byteLength before) (byteLength (before ++ after)) = byteLength before := by
    rw [byteLength_append]; omega
  rw [textBefore, le, splitAtByte?_append]

theorem textBefore_of_le {text : List Char} {offset : Nat} (past : byteLength text ≤ offset) :
    textBefore text offset = text := by
  have le : min offset (byteLength text) = byteLength text := by omega
  have h := splitAtByte?_append text []
  rw [List.append_nil] at h
  rw [textBefore, le, h]

/-- Lines and columns count characters before a place. -/
theorem Location.afterText_le (before : List Char) :
    (afterText before).line ≤ byteLength before + 1 ∧
      (afterText before).column ≤ byteLength before + 1 := by
  have length := length_le_byteLength before
  have lines : before.count '\n' ≤ before.length := List.count_le_length
  have column : lastLineLength before ≤ before.length := by
    have taken : (before.reverse.takeWhile (· ≠ '\n')).length ≤ before.reverse.length :=
      (List.takeWhile_sublist _).length_le
    rwa [List.length_reverse] at taken
  simp only [afterText]
  omega

end Text
end ClientBoundary
