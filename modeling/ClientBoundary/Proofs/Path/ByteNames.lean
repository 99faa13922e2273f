import ClientBoundary.Proofs.Path.Normalizing
import ClientBoundary.Proofs.Text.ByteOrder

/-!
# Paths of bytes that are text

A path that is text is the path of its UTF-8 bytes: a slash and a point are bytes of their own, so
the bytes have the same components with their names encoded, and a name that is shown is read back.

- `spelled`: a text as the path of its bytes;
- `components_spelled`: its components;
- `partsBetween_spelled`: what is between two of them;
- `relativeOfBytes_utf8Bytes`: the relative path is that of the texts.
-/

namespace ClientBoundary
namespace Path

open Text (charBytes utf8Bytes)

/-- Characters as the characters that stand for their bytes. -/
def spelledChars (cs : List Char) : List Char :=
  (cs.flatMap charBytes).map Char.ofUInt8

/-- A text as the path of its bytes. -/
def spelled (text : String) : String :=
  byteText (utf8Bytes text)

theorem toList_spelled (text : String) : (spelled text).toList = spelledChars text.toList :=
  String.toList_ofList

/-! ## Reading back -/

theorem toUInt8_ofUInt8 : Function.LeftInverse Char.toUInt8 Char.ofUInt8 :=
  UInt8.toUInt8_toUInt32

theorem toUInt8_spelledChars (cs : List Char) :
    (spelledChars cs).map Char.toUInt8 = cs.flatMap charBytes := by
  rw [spelledChars, List.map_map, toUInt8_ofUInt8.comp_eq_id, List.map_id]

theorem shown_spelled (text : String) : shown (spelled text) = text := by
  rw [shown, toList_spelled, toUInt8_spelledChars, Text.lossyText_flatMap, String.ofList_toList]

theorem spelledChars_inj {cs ds : List Char} : spelledChars cs = spelledChars ds ↔ cs = ds := by
  refine ⟨fun same => ?_, congrArg spelledChars⟩
  rw [← Text.lossyText_flatMap cs, ← toUInt8_spelledChars, same, toUInt8_spelledChars,
    Text.lossyText_flatMap]

/-! ## Components -/

/-- A component with its name encoded. -/
def Component.spelled : Component → Component
  | .name text => .name (Path.spelled text)
  | c => c

theorem Component.spelled_inj {a b : Component} : a.spelled = b.spelled ↔ a = b := by
  refine ⟨fun same => ?_, congrArg Component.spelled⟩
  cases a <;> cases b <;> simp_all [Component.spelled]
  rename_i a b
  rw [← shown_spelled a, same, shown_spelled]

/-- Only a slash has the byte of a slash. -/
theorem slash_mem_spelledChar {c : Char} : '/' ∈ (charBytes c).map Char.ofUInt8 ↔ c = '/' := by
  have slash : UInt8.ofNat '/'.toNat ∈ charBytes c ↔ c = '/' :=
    Text.mem_charBytes_ascii (by decide)
  have byte : Char.ofUInt8 (UInt8.ofNat '/'.toNat) = '/' := rfl
  rw [← slash, ← byte, List.mem_map_of_injective toUInt8_ofUInt8.injective]
  rfl

theorem splitSlash_solid_append {xs ys part : List Char} {parts : List (List Char)}
    (solid : '/' ∉ xs) (split : splitSlash ys = part :: parts) :
    splitSlash (xs ++ ys) = (xs ++ part) :: parts := by
  induction xs with
  | nil => exact split
  | cons c cs ih =>
      rw [List.mem_cons, not_or] at solid
      have slash : c ≠ '/' := fun same => solid.1 same.symm
      simp [splitSlash, slash, ih solid.2]

theorem splitSlash_spelledChars (cs : List Char) :
    splitSlash (spelledChars cs) = (splitSlash cs).map spelledChars := by
  induction cs with
  | nil => rfl
  | cons c cs ih =>
      have cons : spelledChars (c :: cs) =
          (charBytes c).map Char.ofUInt8 ++ spelledChars cs := by
        simp [spelledChars]
      by_cases slash : c = '/'
      · have one : (charBytes '/').map Char.ofUInt8 = ['/'] := rfl
        rw [cons, slash, one, List.singleton_append, splitSlash, if_pos rfl, splitSlash,
          if_pos rfl, ih]
        rfl
      · rcases List.exists_cons_of_ne_nil (splitSlash_ne_nil cs) with ⟨part, parts, shape⟩
        rw [shape, List.map_cons] at ih
        rw [cons, splitSlash_solid_append (fun mem => slash (slash_mem_spelledChar.1 mem)) ih,
          splitSlash, if_neg slash, shape]
        simp [spelledChars]

theorem ofPart_spelledChars (part : List Char) :
    ofPart (spelledChars part) = (ofPart part).map Component.spelled := by
  have empty : spelledChars part = [] ↔ part = [] := @spelledChars_inj part []
  have dot : spelledChars part = ['.'] ↔ part = ['.'] := @spelledChars_inj part ['.']
  have dots : spelledChars part = ['.', '.'] ↔ part = ['.', '.'] :=
    @spelledChars_inj part ['.', '.']
  simp only [ofPart, empty, dot, dots]
  split
  · rfl
  · split
    · rfl
    · simp [Component.spelled, spelled, byteText, utf8Bytes, spelledChars]

theorem head?_spelledChars (cs : List Char) :
    (spelledChars cs).head? = some '/' ↔ cs.head? = some '/' := by
  cases cs with
  | nil => rfl
  | cons c cs =>
      obtain ⟨b, bs, shape⟩ : ∃ b bs, charBytes c = b :: bs :=
        List.exists_cons_of_ne_nil String.utf8EncodeChar_ne_nil
      constructor
      · intro front
        have mem : '/' ∈ (charBytes c).map Char.ofUInt8 := by
          simp_all [spelledChars]
        rw [slash_mem_spelledChar.1 mem]
        rfl
      · intro front
        rw [List.head?_cons, Option.some.injEq] at front
        rw [front]
        rfl

theorem isAbsolute_spelled (path : String) : isAbsolute (spelled path) = isAbsolute path := by
  rw [Bool.eq_iff_iff, isAbsolute, isAbsolute, toList_spelled, beq_iff_eq, beq_iff_eq]
  exact head?_spelledChars path.toList

theorem components_spelled (path : String) :
    components (spelled path) = (components path).map Component.spelled := by
  have front : leading (spelledChars path.toList) =
      (leading path.toList).map Component.spelled := by
    have first : (splitSlash (spelledChars path.toList)).head? = some ['.'] ↔
        (splitSlash path.toList).head? = some ['.'] := by
      rw [splitSlash_spelledChars, List.head?_map, Option.map_eq_some_iff]
      constructor
      · rintro ⟨part, head, dot⟩
        rw [head, spelledChars_inj.1 (dot.trans (show ['.'] = spelledChars ['.'] from rfl))]
      · intro head
        exact ⟨['.'], head, rfl⟩
    simp only [leading, head?_spelledChars, first]
    split
    · rfl
    · split <;> rfl
  have rest : ((splitSlash path.toList).map spelledChars).filterMap ofPart =
      ((splitSlash path.toList).filterMap ofPart).map Component.spelled := by
    rw [List.filterMap_map, List.map_filterMap]
    exact List.filterMap_congr fun part _ => ofPart_spelledChars part
  rw [components_eq, components_eq, List.map_append, toList_spelled, front,
    splitSlash_spelledChars, rest]

/-! ## Relative paths -/

theorem part?_spelled (c : Component) : c.spelled.part? = c.part?.map spelled := by
  cases c <;> rfl

theorem isName_spelled (c : Component) : c.spelled.isName = c.isName := by
  cases c <;> rfl

theorem filterMap_part?_spelled (cs : List Component) :
    (cs.map Component.spelled).filterMap Component.part? =
      (cs.filterMap Component.part?).map spelled := by
  rw [List.filterMap_map, List.map_filterMap]
  exact List.filterMap_congr fun c _ => part?_spelled c

theorem isPrefixOf_spelled (as bs : List Component) :
    (as.map Component.spelled).isPrefixOf (bs.map Component.spelled) = as.isPrefixOf bs := by
  induction as generalizing bs with
  | nil => rfl
  | cons a as ih =>
      cases bs with
      | nil => rfl
      | cons b bs =>
          have same : (a.spelled == b.spelled) = (a == b) := by
            rw [Bool.eq_iff_iff, beq_iff_eq, beq_iff_eq, Component.spelled_inj]
          rw [List.map_cons, List.map_cons, List.isPrefixOf, List.isPrefixOf, same, ih]

theorem dropCommon_spelled (as bs : List Component) :
    dropCommon (as.map Component.spelled) (bs.map Component.spelled) =
      ((dropCommon as bs).1.map Component.spelled, (dropCommon as bs).2.map Component.spelled) := by
  fun_induction dropCommon as bs with
  | case1 as a bs ih =>
      rw [List.map_cons, List.map_cons, dropCommon, if_pos rfl, ih]
  | case2 a as b bs differ =>
      rw [List.map_cons, List.map_cons, dropCommon,
        if_neg fun same => differ (Component.spelled_inj.1 same)]
  | case3 as bs short =>
      cases as with
      | nil => rfl
      | cons a as =>
          cases bs with
          | nil => rfl
          | cons b bs => exact absurd rfl (short a as b bs rfl)

theorem relativeParts_spelled (as bs : List Component) :
    relativeParts (as.map Component.spelled) (bs.map Component.spelled) =
      (relativeParts as bs).map spelled := by
  have up : spelled ".." = ".." := rfl
  have names (cs : List Component) :
      ((cs.map Component.spelled).filter Component.isName).length =
        (cs.filter Component.isName).length := by
    rw [List.filter_map, List.length_map]
    simp [Function.comp_def, isName_spelled]
  simp only [relativeParts, dropCommon_spelled, names, filterMap_part?_spelled, List.map_append,
    List.map_replicate, up]

theorem partsBetween_spelled (root file : String) :
    partsBetween (spelled root) (spelled file) = (partsBetween root file).map spelled := by
  simp only [partsBetween, components_spelled, isPrefixOf_spelled, isAbsolute_spelled,
    relativeParts_spelled, filterMap_part?_spelled, List.length_map, ← List.map_drop]
  split
  · rfl
  · split <;> rfl

/-- Between paths that are text, the relative path of their bytes is that of the texts. -/
theorem relativeOfBytes_utf8Bytes (root file : String) :
    relativeOfBytes (utf8Bytes root) (utf8Bytes file) = relative root file := by
  have parts : (partsBetween (byteText (utf8Bytes root)) (byteText (utf8Bytes file))).map shown =
      partsBetween root file := by
    have between := partsBetween_spelled root file
    rw [spelled, spelled] at between
    rw [between, List.map_map]
    simp [Function.comp_def, shown_spelled]
  rw [relativeOfBytes, parts, relative]

end Path
end ClientBoundary
