import ClientBoundary.Glob.Matching

/-!
# What tokens take of a path

A token takes a beginning of a text. For each token it is told which beginnings these are, by what
they leave.

- `mem_afterBytes`, `mem_rests_any`, `mem_segmentRests`: a literal, a question mark and a star;
- `rests_leading`, `rests_between`, `mem_endings`: double stars;
- `sequenceRests_append`: tokens one after the other;
- `accepts_iff`: a pattern takes all of a path.
-/

namespace ClientBoundary
namespace Glob

/-! ## One token -/

theorem mem_afterBytes {bytes text rest : List UInt8} :
    rest ∈ afterBytes bytes text ↔ text = bytes ++ rest := by
  fun_induction afterBytes bytes text with
  | case1 text => simp [eq_comm]
  | case2 b bs cs ih => simp [ih]
  | case3 b bs c cs differ => simp [Ne.symm differ]
  | case4 => simp

theorem mem_rests_any {text rest : List UInt8} :
    rest ∈ Token.any.rests text ↔ ∃ b, b ≠ slash ∧ text = b :: rest := by
  cases text with
  | nil => simp [Token.rests]
  | cons b text =>
      have head : (∃ c, c ≠ slash ∧ b :: text = c :: rest) ↔ b ≠ slash ∧ rest = text := by
        constructor
        · rintro ⟨c, stop, shape⟩
          rcases List.cons.inj shape with ⟨rfl, rfl⟩
          exact ⟨stop, rfl⟩
        · rintro ⟨stop, rfl⟩
          exact ⟨b, stop, rfl⟩
      rw [head]
      by_cases stop : b = slash <;> simp [Token.rests, stop]

theorem mem_segmentRests {text rest : List UInt8} :
    rest ∈ segmentRests text ↔ ∃ front, slash ∉ front ∧ text = front ++ rest := by
  induction text with
  | nil =>
      constructor
      · intro mem
        exact ⟨[], List.not_mem_nil, (List.mem_singleton.1 mem).symm⟩
      · rintro ⟨front, -, shape⟩
        exact List.mem_singleton.2 (List.append_eq_nil_iff.1 shape.symm).2
  | cons b text ih =>
      by_cases stop : b = slash
      · rw [segmentRests, if_pos stop, List.mem_singleton]
        constructor
        · rintro rfl
          exact ⟨[], List.not_mem_nil, rfl⟩
        · rintro ⟨front, solid, shape⟩
          cases front with
          | nil => exact shape.symm
          | cons c front =>
              rcases List.cons.inj shape with ⟨rfl, -⟩
              exact absurd (stop ▸ List.mem_cons_self) solid
      · rw [segmentRests, if_neg stop, List.mem_cons, ih]
        constructor
        · rintro (rfl | ⟨front, solid, rfl⟩)
          · exact ⟨[], List.not_mem_nil, rfl⟩
          · exact ⟨b :: front, by simp [solid, Ne.symm stop], rfl⟩
        · rintro ⟨front, solid, shape⟩
          cases front with
          | nil => exact .inl shape.symm
          | cons c front =>
              exact .inr ⟨front, fun mem => solid (List.mem_cons_of_mem c mem),
                (List.cons.inj shape).2⟩

/-- Nothing is left after a slash inside a text without one. -/
theorem afterSlashes_append {front : List UInt8} (solid : slash ∉ front) (text : List UInt8) :
    afterSlashes (front ++ text) = afterSlashes text := by
  induction front with
  | nil => rfl
  | cons b front ih =>
      rw [List.mem_cons, not_or] at solid
      rw [List.cons_append, afterSlashes, if_neg (Ne.symm solid.1), ih solid.2]

theorem rests_leading (text : List UInt8) :
    Token.leading.rests text = afterSlashes (slash :: text) := by
  rw [Token.rests, afterSlashes, if_pos rfl]

theorem rests_between (text : List UInt8) :
    Token.between.rests (slash :: text) = afterSlashes (slash :: text) := by
  rw [Token.rests, if_pos rfl, afterSlashes, if_pos rfl]

theorem rests_slash_nil : (Token.literal '/').rests [] = [] :=
  rfl

theorem rests_slash (text : List UInt8) : (Token.literal '/').rests (slash :: text) = [text] :=
  rfl

theorem mem_endings {text rest : List UInt8} : rest ∈ endings text ↔ rest <:+ text := by
  induction text with
  | nil => simp [endings]
  | cons b text ih => rw [endings, List.mem_cons, ih, List.suffix_cons_iff]

/-- A slash and what stands for one inside a pattern or at its end take a slash first. -/
theorem head?_of_mem_rests {t : Token}
    (inner : t = .literal '/' ∨ t = .between ∨ t = .trailing) {text rest : List UInt8}
    (mem : rest ∈ t.rests text) : text.head? = some slash := by
  have first (b : UInt8) (more : List UInt8) (mem : rest ∈ t.rests (b :: more)) : b = slash := by
    refine Decidable.byContradiction fun other => ?_
    rcases inner with rfl | rfl | rfl
    · rw [Token.rests, mem_afterBytes] at mem
      exact other (List.cons.inj mem).1
    · simp [Token.rests, other] at mem
    · simp [Token.rests, other] at mem
  cases text with
  | nil => rcases inner with rfl | rfl | rfl <;> cases mem
  | cons b more => rw [first b more mem, List.head?_cons]

/-! ## Sequences -/

theorem sequenceRests_single (t : Token) (text : List UInt8) :
    sequenceRests [t] text = t.rests text := by
  simp [sequenceRests]

theorem sequenceRests_append (ts us : List Token) (text : List UInt8) :
    sequenceRests (ts ++ us) text = (sequenceRests ts text).flatMap (sequenceRests us) := by
  induction ts generalizing text with
  | nil => simp [sequenceRests]
  | cons t ts ih => simp [sequenceRests, ih, List.flatMap_assoc]

theorem accepts_iff {pattern : List Token} {path : List UInt8} :
    accepts pattern path = true ↔
      isEverything pattern = true ∨ [] ∈ sequenceRests pattern path := by
  rw [accepts, Bool.or_eq_true, List.any_eq_true]
  refine or_congr_right ⟨?_, fun mem => ⟨[], mem, rfl⟩⟩
  rintro ⟨rest, mem, empty⟩
  rwa [List.isEmpty_iff.1 empty] at mem

end Glob
end ClientBoundary
