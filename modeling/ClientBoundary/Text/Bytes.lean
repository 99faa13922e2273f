/-!
# Text measured in UTF-8 bytes

Offsets into a source text count UTF-8 bytes, while the text itself is a list of characters.

- `byteLength`: how many bytes a list of characters takes;
- `splitAtByte?`: the two halves of a text at a byte offset, when the offset lies between two
  characters;
- `utf8Bytes`: the bytes themselves.
-/

namespace ClientBoundary
namespace Text

/-- The number of UTF-8 bytes of a text. -/
def byteLength : List Char → Nat
  | [] => 0
  | c :: cs => c.utf8Size + byteLength cs

/-- The characters before and after a byte offset; `none` when the offset lies inside a character
or past the end. -/
def splitAtByte? : List Char → Nat → Option (List Char × List Char)
  | cs, 0 => some ([], cs)
  | [], _ + 1 => none
  | c :: cs, n + 1 =>
      if c.utf8Size ≤ n + 1 then
        (splitAtByte? cs (n + 1 - c.utf8Size)).map fun (before, after) => (c :: before, after)
      else
        none

/-- The UTF-8 encoding of one character. -/
def charBytes (c : Char) : List UInt8 :=
  String.utf8EncodeChar c

/-- The UTF-8 encoding of a text. -/
def utf8Bytes (s : String) : List UInt8 :=
  s.toList.flatMap charBytes

/-! ## Laws -/

@[simp] theorem byteLength_nil : byteLength [] = 0 := rfl

@[simp] theorem byteLength_cons (c : Char) (cs : List Char) :
    byteLength (c :: cs) = c.utf8Size + byteLength cs := rfl

@[simp] theorem byteLength_append (xs ys : List Char) :
    byteLength (xs ++ ys) = byteLength xs + byteLength ys := by
  induction xs with
  | nil => simp
  | cons c cs ih => simp [ih, Nat.add_assoc]

theorem byteLength_eq_zero {cs : List Char} (h : byteLength cs = 0) : cs = [] := by
  cases cs with
  | nil => rfl
  | cons c cs =>
      have pos : 0 < c.utf8Size := Char.utf8Size_pos c
      rw [byteLength_cons] at h
      omega

theorem length_le_byteLength (cs : List Char) : cs.length ≤ byteLength cs := by
  induction cs with
  | nil => exact Nat.le_refl 0
  | cons c cs ih =>
      have pos : 0 < c.utf8Size := Char.utf8Size_pos c
      rw [List.length_cons, byteLength_cons]
      omega

/-- The two halves make up the text, and the first one ends at the offset. -/
theorem splitAtByte?_eq_some {cs before after : List Char} {n : Nat}
    (h : splitAtByte? cs n = some (before, after)) :
    cs = before ++ after ∧ byteLength before = n := by
  induction cs generalizing before n with
  | nil =>
      cases n with
      | zero =>
          simp only [splitAtByte?, Option.some.injEq, Prod.mk.injEq] at h
          simp [← h.1, ← h.2]
      | succ n => simp [splitAtByte?] at h
  | cons c cs ih =>
      cases n with
      | zero =>
          simp only [splitAtByte?, Option.some.injEq, Prod.mk.injEq] at h
          simp [← h.1, ← h.2]
      | succ n =>
          simp only [splitAtByte?] at h
          split at h
          · rename_i le
            obtain ⟨⟨b, a⟩, hs, heq⟩ := Option.map_eq_some_iff.1 h
            simp only [Prod.mk.injEq] at heq
            obtain ⟨rfl, rfl⟩ := heq
            obtain ⟨rfl, len⟩ := ih hs
            refine ⟨rfl, ?_⟩
            simp only [byteLength_cons, len]
            omega
          · simp at h

/-- A text splits exactly where a prefix of it ends. -/
theorem splitAtByte?_append (before after : List Char) :
    splitAtByte? (before ++ after) (byteLength before) = some (before, after) := by
  induction before with
  | nil => cases after <;> simp [splitAtByte?]
  | cons c cs ih =>
      have pos : 0 < c.utf8Size := Char.utf8Size_pos c
      obtain ⟨k, hk⟩ : ∃ k, c.utf8Size + byteLength cs = k + 1 :=
        ⟨c.utf8Size + byteLength cs - 1, by omega⟩
      have rest : k + 1 - c.utf8Size = byteLength cs := by omega
      have le : c.utf8Size ≤ k + 1 := by omega
      simp [hk, splitAtByte?, rest, le, ih]

/-- The bytes of the characters, one after the other, are those that a string is made of. -/
theorem toByteArray_utf8Bytes (s : String) :
    (⟨(utf8Bytes s).toArray⟩ : ByteArray) = s.toByteArray := by
  have encoded : s.toList.utf8Encode = s.toByteArray := String.utf8Encode_toList
  rw [← encoded, List.utf8Encode]
  apply ByteArray.ext
  rw [List.data_toByteArray]
  rfl

theorem utf8Bytes_inj {s t : String} : utf8Bytes s = utf8Bytes t ↔ s = t := by
  refine ⟨fun same => ?_, congrArg utf8Bytes⟩
  rw [← String.toByteArray_inj, ← toByteArray_utf8Bytes, ← toByteArray_utf8Bytes, same]

end Text
end ClientBoundary
