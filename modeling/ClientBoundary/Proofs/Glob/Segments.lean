import ClientBoundary.Text.Bytes
import Mathlib.Data.List.Forall2

/-!
# Patterns and paths as segments

A pattern without classes, groups and escapes is a list of segments between slashes, and so is a
path. The two lists are matched segment by segment.

- `Fits`: a segment of a pattern fits a segment of a path;
- `Leads`: the segments of a pattern lead to a path;
- `IsSegment`: what can stand between the slashes of such a pattern;
- `leads_ordinary_iff`, `leads_directory_iff`: patterns without double stars, and with a name
  between two of them.
-/

namespace ClientBoundary
namespace Glob

open Text (charBytes)

/-! ## The law -/

/-- What a character of a segment stands for: a question mark for one byte, a star for any bytes,
and every other character for itself. -/
def Takes (c : Char) (bytes : List UInt8) : Prop :=
  if c = '?' then bytes.length = 1 else if c = '*' then True else bytes = charBytes c

/-- A segment of a pattern fits a segment of a path, character by character. -/
inductive Fits : List Char → List UInt8 → Prop where
  | nothing : Fits [] []
  | char {c : Char} {more : List Char} {front bytes : List UInt8} :
      Takes c front → Fits more bytes → Fits (c :: more) (front ++ bytes)

/-- A double star as a whole segment. -/
def stars : List Char := ['*', '*']

/-- The segments of a pattern lead to a path: an ordinary segment to one segment of the path, a
double star to any number of them, but to at least one at the end of the pattern. -/
inductive Leads : List (List Char) → List (List UInt8) → Prop where
  | arrived : Leads [] []
  | step {s : List Char} {b : List UInt8} {more : List (List Char)} {path : List (List UInt8)}
      (ordinary : s ≠ stars) : Fits s b → Leads more path → Leads (s :: more) (b :: path)
  | inside {path : List (List UInt8)} (filled : path ≠ []) : Leads [stars] path
  | across {more : List (List Char)} {path : List (List UInt8)} (front : List (List UInt8))
      (pending : more ≠ []) : Leads more path → Leads (stars :: more) (front ++ path)

/-- What can stand between the slashes of a pattern: a double star alone, or characters that stand
for themselves, question marks, and stars that are not next to each other. -/
def IsSegment (s : List Char) : Prop :=
  s = stars ∨
    s ≠ [] ∧ (∀ c ∈ s, c ∉ ['/', '[', '{', '}', '\\']) ∧
      s.IsChain fun c d => ¬(c = '*' ∧ d = '*')

instance (s : List Char) : Decidable (IsSegment s) :=
  -- along the segment, not along all characters that there are
  haveI : Decidable (∀ c ∈ s, c ∉ ['/', '[', '{', '}', '\\']) := List.decidableBAll _ s
  inferInstanceAs (Decidable (_ ∨ _ ∧ _ ∧ _))

/-! ## Inversion -/

theorem leads_nil_iff {path : List (List UInt8)} : Leads [] path ↔ path = [] := by
  constructor
  · rintro ⟨⟩
    rfl
  · rintro rfl
    exact .arrived

theorem fits_nil_iff {bytes : List UInt8} : Fits [] bytes ↔ bytes = [] := by
  constructor
  · rintro ⟨⟩
    rfl
  · rintro rfl
    exact .nothing

theorem fits_cons_iff {c : Char} {more : List Char} {bytes : List UInt8} :
    Fits (c :: more) bytes ↔
      ∃ front rest, bytes = front ++ rest ∧ Takes c front ∧ Fits more rest := by
  constructor
  · rintro ⟨⟩
    rename_i front rest takes fits
    exact ⟨front, rest, rfl, takes, fits⟩
  · rintro ⟨front, rest, rfl, takes, fits⟩
    exact .char takes fits

theorem leads_cons_iff {s : List Char} {more : List (List Char)} {path : List (List UInt8)}
    (ordinary : s ≠ stars) :
    Leads (s :: more) path ↔ ∃ b rest, path = b :: rest ∧ Fits s b ∧ Leads more rest := by
  constructor
  · intro leads
    cases leads with
    | step _ fits rest => exact ⟨_, _, rfl, fits, rest⟩
    | inside => exact absurd rfl ordinary
    | across => exact absurd rfl ordinary
  · rintro ⟨b, rest, rfl, fits, leads⟩
    exact .step ordinary fits leads

theorem leads_stars_iff {path : List (List UInt8)} : Leads [stars] path ↔ path ≠ [] := by
  constructor
  · intro leads
    cases leads with
    | step ordinary => exact absurd rfl ordinary
    | inside filled => exact filled
    | across _ pending => exact absurd rfl pending
  · exact .inside

theorem leads_across_iff {more : List (List Char)} {path : List (List UInt8)}
    (pending : more ≠ []) :
    Leads (stars :: more) path ↔ ∃ front rest, path = front ++ rest ∧ Leads more rest := by
  constructor
  · intro leads
    cases leads with
    | step ordinary => exact absurd rfl ordinary
    | inside => exact absurd rfl pending
    | across front _ rest => exact ⟨front, _, rfl, rest⟩
  · rintro ⟨front, rest, rfl, leads⟩
    exact .across front pending leads

/-! ## Deciding -/

instance (c : Char) (bytes : List UInt8) : Decidable (Takes c bytes) :=
  inferInstanceAs (Decidable
    (if c = '?' then bytes.length = 1 else if c = '*' then True else bytes = charBytes c))

/-- The two halves of a list can be looked for at every place. -/
def decidableHalves {α : Type} (P Q : List α → Prop) [DecidablePred P] [DecidablePred Q]
    (l : List α) : Decidable (∃ front rest, l = front ++ rest ∧ P front ∧ Q rest) :=
  decidable_of_iff (∃ k ∈ List.range l.length.succ, P (l.take k) ∧ Q (l.drop k)) (by
    constructor
    · rintro ⟨k, -, first, second⟩
      exact ⟨_, _, (List.take_append_drop k l).symm, first, second⟩
    · rintro ⟨front, rest, rfl, first, second⟩
      have place : front.length ∈ List.range (front ++ rest).length.succ := by
        rw [List.mem_range, List.length_append]
        omega
      exact ⟨front.length, place, by simpa using first, by simpa using second⟩)

instance decidableFits : (s : List Char) → DecidablePred (Fits s)
  | [], _ => decidable_of_iff _ fits_nil_iff.symm
  | c :: more, bytes =>
      @decidable_of_iff _ _ fits_cons_iff.symm
        (@decidableHalves _ (Takes c) (Fits more) _ (decidableFits more) bytes)

instance decidableLeads : (segments : List (List Char)) → DecidablePred (Leads segments)
  | [], _ => decidable_of_iff _ leads_nil_iff.symm
  | s :: more, path =>
      if whole : s = stars then
        if last : more = [] then
          decidable_of_iff (path ≠ []) (by rw [whole, last, leads_stars_iff])
        else
          @decidable_of_iff _ _ (by rw [whole, leads_across_iff last]; simp)
            (@decidableHalves _ (fun _ => True) (Leads more) _ (decidableLeads more) path)
      else
        match path with
        | [] => .isFalse fun leads => by simp [leads_cons_iff whole] at leads
        | b :: rest =>
            @decidable_of_iff _ (Fits s b ∧ Leads more rest) (by simp [leads_cons_iff whole])
              (@instDecidableAnd _ _ _ (decidableLeads more rest))

/-! ## Special shapes -/

/-- Double stars in a row are one. -/
theorem leads_stars_stars {more : List (List Char)} {path : List (List UInt8)} :
    Leads (stars :: stars :: more) path ↔ Leads (stars :: more) path := by
  rw [leads_across_iff (List.cons_ne_nil _ _)]
  constructor
  · rintro ⟨front, rest, rfl, leads⟩
    by_cases pending : more = []
    · rw [pending, leads_stars_iff] at leads ⊢
      simp [leads]
    · rcases (leads_across_iff pending).1 leads with ⟨front', rest', rfl, leads'⟩
      exact (leads_across_iff pending).2 ⟨front ++ front', rest', by simp, leads'⟩
  · intro leads
    exact ⟨[], path, rfl, leads⟩

/-- Without double stars the segments correspond one to one. -/
theorem leads_ordinary_iff {segments : List (List Char)} (ordinary : stars ∉ segments)
    {path : List (List UInt8)} : Leads segments path ↔ List.Forall₂ Fits segments path := by
  induction segments generalizing path with
  | nil => rw [leads_nil_iff, List.forall₂_nil_left_iff]
  | cons s more ih =>
      rw [List.mem_cons, not_or] at ordinary
      rw [leads_cons_iff (Ne.symm ordinary.1), List.forall₂_cons_left_iff]
      simp only [ih ordinary.2]
      constructor
      · rintro ⟨b, rest, rfl, fits, pairs⟩
        exact ⟨b, rest, fits, pairs, rfl⟩
      · rintro ⟨b, rest, fits, pairs, rfl⟩
        exact ⟨b, rest, rfl, fits, pairs⟩

/-- A segment without question marks and stars fits its own bytes only. -/
theorem fits_literal_iff {s : List Char} (literal : '?' ∉ s ∧ '*' ∉ s) {bytes : List UInt8} :
    Fits s bytes ↔ bytes = s.flatMap charBytes := by
  induction s generalizing bytes with
  | nil => exact fits_nil_iff
  | cons c s ih =>
      simp only [List.mem_cons, not_or] at literal
      rcases literal with ⟨⟨question, question'⟩, star, star'⟩
      rw [fits_cons_iff, List.flatMap_cons]
      simp only [Takes, Ne.symm question, Ne.symm star, if_false, ih ⟨question', star'⟩]
      constructor
      · rintro ⟨_, _, rfl, rfl, rfl⟩
        rfl
      · rintro rfl
        exact ⟨_, _, rfl, rfl, rfl⟩

/-- Between double stars a name stands for a directory above the end of the path. -/
theorem leads_directory_iff {s : List Char} (literal : '?' ∉ s ∧ '*' ∉ s)
    {path : List (List UInt8)} :
    Leads [stars, s, stars] path ↔
      ∃ above below, below ≠ [] ∧ path = above ++ s.flatMap charBytes :: below := by
  have single : s ≠ stars := by
    rintro rfl
    exact literal.2 List.mem_cons_self
  rw [leads_across_iff (List.cons_ne_nil _ _)]
  simp only [leads_cons_iff single, leads_stars_iff, fits_literal_iff literal]
  constructor
  · rintro ⟨above, _, rfl, _, below, rfl, rfl, filled⟩
    exact ⟨above, below, filled, rfl⟩
  · rintro ⟨above, below, filled, rfl⟩
    exact ⟨above, _, rfl, _, below, rfl, rfl, filled⟩

end Glob
end ClientBoundary
