import ClientBoundary.Text.Bytes
import Mathlib.Data.String.Basic
import Mathlib.Tactic.SplitIfs

/-!
# Texts in the order of their bytes

In UTF-8 a byte below 128 stands for its own character only, and a smaller character has smaller
bytes. So a text has the byte of such a character where it has the character, and texts are ordered
as their bytes.

- `toNat_charBytes`: the bytes of a character as numbers;
- `ascii_mem_utf8Bytes`, `slash_mem_utf8Bytes`: where the byte of such a character is;
- `utf8Bytes_lt_iff`: the order of texts and of their bytes.
-/

namespace ClientBoundary
namespace Text

/-- The bytes of a character as numbers: six bits each behind a first byte that tells their
count. -/
theorem toNat_charBytes (c : Char) :
    (charBytes c).map UInt8.toNat =
      if c.toNat < 0x80 then [c.toNat]
      else if c.toNat < 0x800 then [c.toNat / 64 + 0xc0, c.toNat % 64 + 0x80]
      else if c.toNat < 0x10000 then
        [c.toNat / 4096 + 0xe0, c.toNat / 64 % 64 + 0x80, c.toNat % 64 + 0x80]
      else
        [c.toNat / 262144 + 0xf0, c.toNat / 4096 % 64 + 0x80, c.toNat / 64 % 64 + 0x80,
          c.toNat % 64 + 0x80] := by
  have bound : c.toNat < 0x110000 := by
    have valid : c.toNat.isValidChar := c.valid
    rcases valid with low | high
    · omega
    · omega
  have same : c.val.toNat = c.toNat := rfl
  unfold charBytes String.utf8EncodeChar
  simp only [same]
  split_ifs
  all_goals
    simp only [List.map_cons, List.map_nil, UInt8.toNat_ofNat', List.cons.injEq, and_true]
    omega

/-! ## Bytes of ASCII characters -/

/-- The byte of an ASCII character is in no other character. -/
theorem mem_charBytes_ascii {c d : Char} (ascii : d.toNat < 0x80) :
    UInt8.ofNat d.toNat ∈ charBytes c ↔ c = d := by
  have number : (UInt8.ofNat d.toNat).toNat = d.toNat := by
    rw [UInt8.toNat_ofNat']
    omega
  have moved : UInt8.ofNat d.toNat ∈ charBytes c ↔ d.toNat ∈ (charBytes c).map UInt8.toNat := by
    rw [← number, List.mem_map_of_injective fun _ _ => UInt8.toNat_inj.1, number]
  rw [moved, toNat_charBytes, ← Char.toNat_inj]
  split_ifs
  all_goals
    simp only [List.mem_cons, List.not_mem_nil, or_false]
    omega

theorem ascii_mem_utf8Bytes {d : Char} (ascii : d.toNat < 0x80) (s : String) :
    UInt8.ofNat d.toNat ∈ utf8Bytes s ↔ d ∈ s.toList := by
  simp [utf8Bytes, mem_charBytes_ascii ascii]

theorem zero_mem_utf8Bytes (s : String) : 0 ∈ utf8Bytes s ↔ '\x00' ∈ s.toList :=
  ascii_mem_utf8Bytes (show '\x00'.toNat < 0x80 by decide) s

theorem slash_mem_utf8Bytes (s : String) : 47 ∈ utf8Bytes s ↔ '/' ∈ s.toList :=
  ascii_mem_utf8Bytes (show '/'.toNat < 0x80 by decide) s

/-! ## Order -/

theorem map_toNat_lt_iff {xs ys : List UInt8} :
    xs.map UInt8.toNat < ys.map UInt8.toNat ↔ xs < ys := by
  induction xs generalizing ys with
  | nil => cases ys <;> simp
  | cons x xs ih =>
      cases ys with
      | nil => simp
      | cons y ys =>
          rw [List.map_cons, List.map_cons, List.cons_lt_cons_iff, List.cons_lt_cons_iff, ih,
            UInt8.lt_iff_toNat_lt, UInt8.toNat_inj]

/-- A smaller character has smaller bytes, whatever follows. -/
theorem charBytes_append_lt {c d : Char} (less : c < d) (xs ys : List UInt8) :
    charBytes c ++ xs < charBytes d ++ ys := by
  have numbers : c.toNat < d.toNat := less
  rw [← map_toNat_lt_iff, List.map_append, List.map_append, toNat_charBytes, toNat_charBytes]
  -- the bytes differ before what follows is reached
  generalize xs.map UInt8.toNat = ms
  generalize ys.map UInt8.toNat = ns
  by_cases rest : ms < ns
  · split_ifs
    all_goals
      simp only [List.cons_append, List.nil_append, List.cons_lt_cons_iff, rest, and_true]
      omega
  · split_ifs
    all_goals
      simp only [List.cons_append, List.nil_append, List.cons_lt_cons_iff, rest, and_false]
      omega

theorem flatMap_charBytes_lt {cs ds : List Char} (less : cs < ds) :
    cs.flatMap charBytes < ds.flatMap charBytes := by
  induction cs generalizing ds with
  | nil =>
      cases ds with
      | nil => exact absurd less (List.not_lt_nil [])
      | cons d ds =>
          rcases List.exists_cons_of_ne_nil (String.utf8EncodeChar_ne_nil (c := d)) with
            ⟨b, bs, first⟩
          rw [List.flatMap_nil, List.flatMap_cons, charBytes, first]
          exact List.nil_lt_cons b _
  | cons c cs ih =>
      cases ds with
      | nil => exact absurd less (List.not_lt_nil _)
      | cons d ds =>
          rw [List.flatMap_cons, List.flatMap_cons]
          rcases List.cons_lt_cons_iff.1 less with smaller | ⟨rfl, rest⟩
          · exact charBytes_append_lt smaller _ _
          · exact List.append_left_lt (ih rest)

/-- Texts are ordered as their bytes. -/
theorem utf8Bytes_lt_iff {s t : String} : utf8Bytes s < utf8Bytes t ↔ s < t := by
  constructor
  · intro less
    rcases lt_trichotomy s t with smaller | rfl | greater
    · exact smaller
    · exact absurd less (List.lt_irrefl _)
    · exact absurd less (List.lt_asymm (flatMap_charBytes_lt (String.lt_iff_toList_lt.1 greater)))
  · intro less
    exact flatMap_charBytes_lt (String.lt_iff_toList_lt.1 less)

end Text
end ClientBoundary
