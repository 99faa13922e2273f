import ClientBoundary.Text.Insertion
import Mathlib.Data.List.Dedup

/-!
# What insertions make of a text

Insertions are sorted by their offsets and then applied in one pass. What comes out can be said
without the pass: at every boundary between two characters stands the text of the first insertion
there, if there is one, and all characters of the source stay.

- `IsBoundary`: an offset between two characters, or at an end of the text;
- `firstAt`: the text of the first insertion at an offset;
- `Piece`, `weave`: the characters of the source with the texts at their boundaries between them;
- `pending`, `insertSorted_eq`: what the pass still has to insert, and what it makes of the rest;
- `insertAll_weaves`: the result of insertions.
-/

namespace ClientBoundary
namespace Text

/-! ## Boundaries -/

/-- An offset lies between two characters of a text, or at one of its ends. -/
def IsBoundary (text : List Char) (offset : Nat) : Prop :=
  ∃ before after, text = before ++ after ∧ byteLength before = offset

theorem isBoundary_iff {text : List Char} {offset : Nat} :
    IsBoundary text offset ↔ (splitAtByte? text offset).isSome = true := by
  constructor
  · rintro ⟨before, after, rfl, rfl⟩
    rw [splitAtByte?_append]
    rfl
  · intro some_
    rcases Option.isSome_iff_exists.1 some_ with ⟨⟨before, after⟩, split⟩
    exact ⟨before, after, splitAtByte?_eq_some split⟩

instance (text : List Char) (offset : Nat) : Decidable (IsBoundary text offset) :=
  decidable_of_iff _ isBoundary_iff.symm

theorem IsBoundary.le {text : List Char} {offset : Nat} (h : IsBoundary text offset) :
    offset ≤ byteLength text := by
  rcases h with ⟨before, after, rfl, rfl⟩
  rw [byteLength_append]
  exact Nat.le_add_right _ _

/-- The text of the first insertion at an offset. -/
def firstAt (insertions : List Insertion) (offset : Nat) : Option String :=
  (insertions.find? (·.offset = offset)).map (·.text)

theorem firstAt_cons_self (i : Insertion) (more : List Insertion) :
    firstAt (i :: more) i.offset = some i.text := by
  simp [firstAt]

theorem firstAt_cons_of_ne {i : Insertion} {offset : Nat} (other : i.offset ≠ offset)
    (more : List Insertion) : firstAt (i :: more) offset = firstAt more offset := by
  simp [firstAt, other]

theorem firstAt_eq_none {insertions : List Insertion} {offset : Nat}
    (others : ∀ i ∈ insertions, i.offset ≠ offset) : firstAt insertions offset = none := by
  rw [firstAt, Option.map_eq_none_iff, List.find?_eq_none]
  simpa using others

/-- The first insertion at an offset is the first of those at this offset. -/
theorem firstAt_eq_of_filter {insertions others : List Insertion} {offset : Nat}
    (same : others.filter (·.offset = offset) = insertions.filter (·.offset = offset)) :
    firstAt others offset = firstAt insertions offset := by
  rw [firstAt, firstAt, ← List.head?_filter, ← List.head?_filter, same]

/-! ## Pieces -/

/-- A piece of a text with insertions. -/
inductive Piece where
  | kept (c : Char)
  | inserted (text : String)

namespace Piece

def chars : Piece → List Char
  | .kept c => [c]
  | .inserted text => text.toList

def kept? : Piece → Option Char
  | .kept c => some c
  | .inserted _ => none

def isInserted : Piece → Bool
  | .kept _ => false
  | .inserted _ => true

end Piece

/-- A text from an offset on, with texts at the boundaries before, between and behind its
characters. -/
def weave (texts : Nat → Option String) (position : Nat) : List Char → List Piece
  | [] => (texts position).toList.map .inserted
  | c :: rest =>
      (texts position).toList.map .inserted ++
        .kept c :: weave texts (position + c.utf8Size) rest

theorem filterMap_kept?_weave (texts : Nat → Option String) (position : Nat) (rest : List Char) :
    (weave texts position rest).filterMap Piece.kept? = rest := by
  have deleted (position : Nat) :
      ((texts position).toList.map Piece.inserted).filterMap Piece.kept? = [] := by
    cases texts position <;> rfl
  induction rest generalizing position with
  | nil => rw [weave, deleted]
  | cons c rest ih => simp [weave, deleted, ih, Piece.kept?]

/-- Only the texts at boundaries matter. -/
theorem weave_congr {texts others : Nat → Option String} {position : Nat} {rest : List Char}
    (same : ∀ offset, IsBoundary rest offset →
      texts (position + offset) = others (position + offset)) :
    weave texts position rest = weave others position rest := by
  have here : texts position = others position := same 0 ⟨[], rest, rfl, rfl⟩
  induction rest generalizing position with
  | nil => rw [weave, weave, here]
  | cons c rest ih =>
      have later : ∀ offset, IsBoundary rest offset →
          texts (position + c.utf8Size + offset) = others (position + c.utf8Size + offset) := by
        rintro offset ⟨before, after, rfl, rfl⟩
        rw [Nat.add_assoc]
        exact same _ ⟨c :: before, after, rfl, rfl⟩
      rw [weave, weave, here, ih later (later 0 ⟨[], rest, rfl, rfl⟩)]

/-- Without a text the characters are all there is. -/
theorem weave_none {texts : Nat → Option String} {position : Nat} {rest : List Char}
    (nothing : ∀ offset, IsBoundary rest offset → texts (position + offset) = none) :
    weave texts position rest = rest.map .kept := by
  have alike : weave texts position rest = weave (fun _ => none) position rest :=
    weave_congr nothing
  rw [alike]
  clear alike nothing
  induction rest generalizing position with
  | nil => rfl
  | cons c rest ih => simp [weave, ih]

/-- Up to the first text the characters stand alone. -/
theorem weave_append {texts : Nat → Option String} {position : Nat} {before after : List Char}
    (nothing : ∀ offset, offset < byteLength before → texts (position + offset) = none) :
    weave texts position (before ++ after) =
      before.map .kept ++ weave texts (position + byteLength before) after := by
  induction before generalizing position with
  | nil => rfl
  | cons c before ih =>
      have pos : 0 < c.utf8Size := Char.utf8Size_pos c
      have here : texts position = none :=
        nothing 0 (by rw [byteLength_cons]; omega)
      have later : ∀ offset, offset < byteLength before →
          texts (position + c.utf8Size + offset) = none := by
        intro offset less
        rw [Nat.add_assoc]
        exact nothing _ (by rw [byteLength_cons]; omega)
      rw [List.cons_append, weave, here, ih later, byteLength_cons, ← Nat.add_assoc]
      rfl

/-- A text at the front, and what stands behind it. -/
theorem weave_insert {texts others : Nat → Option String} {position : Nat} {text : String}
    (here : texts position = some text) (gone : others position = none)
    (same : ∀ offset, position < offset → texts offset = others offset) (rest : List Char) :
    weave texts position rest = .inserted text :: weave others position rest := by
  cases rest with
  | nil => simp [weave, here, gone]
  | cons c rest =>
      have pos : 0 < c.utf8Size := Char.utf8Size_pos c
      have tail : weave texts (position + c.utf8Size) rest =
          weave others (position + c.utf8Size) rest :=
        weave_congr fun offset _ => same _ (by omega)
      simp [weave, here, gone, tail]

/-! ## One pass -/

/-- The text of pieces, and how many of them are inserted. -/
def assemble (pieces : List Piece) : List Char × Nat :=
  (pieces.flatMap Piece.chars, pieces.countP Piece.isInserted)

theorem assemble_kept (chars : List Char) (pieces : List Piece) :
    assemble (chars.map .kept ++ pieces) =
      (chars ++ (assemble pieces).1, (assemble pieces).2) := by
  induction chars with
  | nil => rfl
  | cons c chars ih => simp_all [assemble, Piece.chars, Piece.isInserted]

theorem assemble_inserted (text : String) (pieces : List Piece) :
    assemble (.inserted text :: pieces) =
      (text.toList ++ (assemble pieces).1, (assemble pieces).2 + 1) := by
  rw [assemble, List.flatMap_cons, List.countP_cons_of_pos rfl]
  rfl

/-- The texts that are still to come: the first at each offset, but none up to the last one. -/
def pending (last : Option Nat) (insertions : List Insertion) (offset : Nat) : Option String :=
  if last.any (offset ≤ ·) then none else firstAt insertions offset

section pending

variable {last : Option Nat} {i : Insertion} {more : List Insertion} {offset : Nat}

theorem pending_cons_of_ne (other : i.offset ≠ offset) :
    pending last (i :: more) offset = pending last more offset := by
  rw [pending, pending, firstAt_cons_of_ne other]

/-- What is passed over is not at an offset that is still to come. -/
theorem pending_passed (skip : last.any (i.offset ≤ ·) = true) :
    pending last (i :: more) offset = pending last more offset := by
  by_cases here : i.offset = offset
  · rw [pending, pending, ← here, if_pos skip, if_pos skip]
  · exact pending_cons_of_ne here

/-- Nothing comes before the first of the insertions. -/
theorem pending_before (sorted : ∀ j ∈ more, i.offset ≤ j.offset) (before : offset < i.offset) :
    pending last (i :: more) offset = none := by
  have none_ : firstAt (i :: more) offset = none := by
    refine firstAt_eq_none fun j hj => ?_
    rcases List.mem_cons.1 hj with rfl | hj
    · omega
    · have := sorted j hj
      omega
  rw [pending, none_, ite_self]

theorem pending_here (keep : ¬ last.any (i.offset ≤ ·) = true) :
    pending last (i :: more) i.offset = some i.text := by
  rw [pending, if_neg keep, firstAt_cons_self]

/-- Behind an insertion, no other at its offset is to come. -/
theorem pending_behind (keep : ¬ last.any (i.offset ≤ ·) = true) (behind : i.offset < offset) :
    pending last (i :: more) offset = pending (some i.offset) more offset := by
  have open_ : ¬ last.any (offset ≤ ·) = true := by
    intro closed
    refine keep ?_
    cases last with
    | none => cases closed
    | some l =>
        simp only [Option.any_some, decide_eq_true_eq] at closed ⊢
        omega
  have open' : ¬ (some i.offset).any (offset ≤ ·) = true := by
    simpa using behind
  rw [pending, pending, if_neg open_, if_neg open', firstAt_cons_of_ne (by omega)]

end pending

/-- The pass over sorted insertions puts the first text at every boundary that is left. -/
theorem insertSorted_eq (position : Nat) (last : Option Nat) (rest : List Char)
    {insertions : List Insertion} (sorted : insertions.Pairwise fun i j => i.offset ≤ j.offset)
    (ahead : ∀ i ∈ insertions, position ≤ i.offset) :
    insertSorted position last rest insertions =
      assemble (weave (pending last insertions) position rest) := by
  fun_induction insertSorted position last rest insertions with
  | case1 position last rest =>
      have nothing : weave (pending last []) position rest = rest.map .kept :=
        weave_none fun offset _ => by simp [pending, firstAt]
      have kept := assemble_kept rest []
      rw [List.append_nil] at kept
      rw [nothing, kept]
      simp [assemble]
  | case2 position last rest i more skip ih =>
      rw [List.pairwise_cons] at sorted
      rw [ih sorted.2 fun j hj => ahead j (List.mem_cons_of_mem i hj)]
      congr 1
      exact weave_congr fun offset _ => (pending_passed skip).symm
  | case3 position last rest i more keep inside ih =>
      rw [List.pairwise_cons] at sorted
      rw [ih sorted.2 fun j hj => ahead j (List.mem_cons_of_mem i hj)]
      congr 1
      refine weave_congr fun offset boundary => (pending_cons_of_ne ?_).symm
      -- an insertion inside a character or past the end is at no boundary
      intro same
      have here : i.offset - position = offset := by omega
      rw [here] at inside
      rw [isBoundary_iff, inside] at boundary
      cases boundary
  | case4 position last rest i more keep before after split tail applied rec ih =>
      rw [List.pairwise_cons] at sorted
      have later := ih sorted.2 sorted.1
      rw [rec] at later
      rcases splitAtByte?_eq_some split with ⟨rfl, length⟩
      have start : position + byteLength before = i.offset := by
        have := ahead i List.mem_cons_self
        omega
      have nothing : ∀ offset, offset < byteLength before →
          pending last (i :: more) (position + offset) = none :=
        fun offset less => pending_before sorted.1 (by omega)
      have gone : pending (some i.offset) more i.offset = none := by
        simp [pending]
      rw [weave_append nothing, start,
        weave_insert (pending_here keep) gone (fun _ => pending_behind keep), assemble_kept,
        assemble_inserted, ← later]
      simp

/-! ## Sorting -/

theorem pairwise_byOffset (size : Nat) (insertions : List Insertion) :
    (byOffset size insertions).Pairwise fun i j => i.offset ≤ j.offset := by
  have sorted : (byOffset size insertions).Pairwise
      fun i j => decide (i.offset ≤ j.offset) = true :=
    List.pairwise_mergeSort (fun i j k => by simpa using Nat.le_trans)
      (fun i j => by simpa using Nat.le_total _ _) _
  exact sorted.imp fun h => of_decide_eq_true h

/-- Sorting keeps the order of the insertions at one offset. -/
theorem filter_byOffset {size offset : Nat} (le : offset ≤ size) (insertions : List Insertion) :
    (byOffset size insertions).filter (·.offset = offset) =
      insertions.filter (·.offset = offset) := by
  have inside : (insertions.filter (·.offset ≤ size)).filter (·.offset = offset) =
      insertions.filter (·.offset = offset) := by
    rw [List.filter_filter]
    refine List.filter_congr fun i _ => ?_
    by_cases here : i.offset = offset <;> simp [here, le]
  rw [← inside, byOffset]
  generalize insertions.filter (·.offset ≤ size) = candidates
  -- those at one offset are a sorted sublist, and sorting keeps it one
  have alike : (candidates.filter (·.offset = offset)).Pairwise
      fun i j => decide (i.offset ≤ j.offset) = true := by
    refine List.pairwise_of_forall_mem_list fun i hi j hj => ?_
    have left : i.offset = offset := by simpa using List.of_mem_filter hi
    have right : j.offset = offset := by simpa using List.of_mem_filter hj
    simp [left, right]
  have kept : (candidates.filter (·.offset = offset)).Sublist
      (candidates.mergeSort fun i j => decide (i.offset ≤ j.offset)) :=
    List.sublist_mergeSort (fun i j k => by simpa using Nat.le_trans)
      (fun i j => by simpa using Nat.le_total _ _) alike List.filter_sublist
  have again := kept.filter (·.offset = offset)
  rw [List.filter_filter] at again
  simp only [Bool.and_self] at again
  exact (again.eq_of_length ((List.mergeSort_perm _ _).filter _).length_eq.symm).symm

/-- The result of insertions is the source with the first text at every boundary. -/
theorem insertAll_eq (source : String) (insertions : List Insertion) :
    ((insertAll source insertions).1.toList, (insertAll source insertions).2) =
      assemble (weave (firstAt insertions) 0 source.toList) := by
  have pass := insertSorted_eq 0 none source.toList
    (pairwise_byOffset (byteLength source.toList) insertions) fun i _ => Nat.zero_le i.offset
  have texts : weave (pending none (byOffset (byteLength source.toList) insertions)) 0
      source.toList = weave (firstAt insertions) 0 source.toList := by
    refine weave_congr fun offset boundary => ?_
    rw [Nat.zero_add]
    exact firstAt_eq_of_filter (filter_byOffset boundary.le insertions)
  rw [← texts, ← pass, insertAll, String.toList_ofList]

/-! ## Counting -/

/-- The boundaries of a text that begins at an offset, in their order. -/
def boundaries (position : Nat) : List Char → List Nat
  | [] => [position]
  | c :: rest => position :: boundaries (position + c.utf8Size) rest

theorem mem_boundaries_iff {position offset : Nat} {rest : List Char} :
    offset ∈ boundaries position rest ↔
      ∃ before after, rest = before ++ after ∧ position + byteLength before = offset := by
  induction rest generalizing position with
  | nil => simp [boundaries, eq_comm]
  | cons c rest ih =>
      rw [boundaries, List.mem_cons, ih]
      constructor
      · rintro (rfl | ⟨before, after, rfl, rfl⟩)
        · exact ⟨[], c :: rest, rfl, rfl⟩
        · exact ⟨c :: before, after, rfl, by rw [byteLength_cons, Nat.add_assoc]⟩
      · rintro ⟨before, after, shape, rfl⟩
        cases before with
        | nil => exact .inl rfl
        | cons d before =>
            rcases List.cons.inj shape with ⟨rfl, rfl⟩
            exact .inr ⟨before, after, rfl, by rw [byteLength_cons, Nat.add_assoc]⟩

theorem boundaries_increasing (position : Nat) (rest : List Char) :
    (boundaries position rest).Pairwise (· < ·) := by
  induction rest generalizing position with
  | nil => exact List.pairwise_singleton _ _
  | cons c rest ih =>
      refine List.pairwise_cons.2 ⟨fun offset mem => ?_, ih _⟩
      have pos : 0 < c.utf8Size := Char.utf8Size_pos c
      rcases mem_boundaries_iff.1 mem with ⟨before, -, -, rfl⟩
      omega

/-- As many texts are inserted as there are boundaries with a text. -/
theorem count_weave (texts : Nat → Option String) (position : Nat) (rest : List Char) :
    (weave texts position rest).countP Piece.isInserted =
      ((boundaries position rest).filter fun offset => (texts offset).isSome).length := by
  have own (position : Nat) : ((texts position).toList.map Piece.inserted).countP
      Piece.isInserted = if (texts position).isSome then 1 else 0 := by
    cases texts position <;> rfl
  induction rest generalizing position with
  | nil =>
      rw [weave, own, boundaries]
      cases h : (texts position).isSome <;> simp [h]
  | cons c rest ih =>
      have kept : ¬ Piece.isInserted (.kept c) = true := Bool.false_ne_true
      rw [weave, boundaries, List.countP_append, own, List.countP_cons_of_neg kept, ih]
      cases h : (texts position).isSome <;> simp [h, Nat.add_comm]

theorem isSome_firstAt_iff {insertions : List Insertion} {offset : Nat} :
    (firstAt insertions offset).isSome = true ↔ offset ∈ insertions.map (·.offset) := by
  simp [firstAt]

/-- As many insertions take place as there are different boundaries among their offsets. -/
theorem count_insertAll (source : String) (insertions : List Insertion) :
    (insertAll source insertions).2 =
      ((insertions.map (·.offset)).dedup.filter (IsBoundary source.toList ·)).length := by
  have result : (insertAll source insertions).2 =
      (weave (firstAt insertions) 0 source.toList).countP Piece.isInserted :=
    congrArg Prod.snd (insertAll_eq source insertions)
  rw [count_weave] at result
  refine result.trans (List.Perm.length_eq ?_)
  have distinct := (boundaries_increasing 0 source.toList).imp Nat.ne_of_lt
  rw [List.perm_ext_iff_of_nodup (distinct.filter _) ((List.nodup_dedup _).filter _)]
  intro offset
  rw [List.mem_filter, List.mem_filter, isSome_firstAt_iff, List.mem_dedup, mem_boundaries_iff,
    decide_eq_true_eq, and_comm]
  simp only [Nat.zero_add]
  rfl

/-! ## The result -/

/-- Insertions with the same first text at every boundary have the same result. -/
theorem insertAll_congr {source : String} {insertions others : List Insertion}
    (same : ∀ offset, IsBoundary source.toList offset →
      others.filter (·.offset = offset) = insertions.filter (·.offset = offset)) :
    insertAll source others = insertAll source insertions := by
  have woven : weave (firstAt others) 0 source.toList =
      weave (firstAt insertions) 0 source.toList := by
    refine weave_congr fun offset boundary => ?_
    rw [Nat.zero_add]
    exact firstAt_eq_of_filter (same offset boundary)
  have result := insertAll_eq source others
  rw [woven, ← insertAll_eq source insertions, Prod.mk.injEq, String.toList_inj] at result
  exact Prod.ext result.1 result.2

/-- The result of insertions is the source with the text of the first insertion at every boundary
that is an offset of some insertion, and nothing else. They are counted by these offsets. Insertions
at other offsets make no difference, nor does the order of insertions at different offsets. -/
theorem insertAll_weaves (source : String) (insertions : List Insertion) :
    ((insertAll source insertions).1.toList =
        (weave (firstAt insertions) 0 source.toList).flatMap Piece.chars ∧
      (weave (firstAt insertions) 0 source.toList).filterMap Piece.kept? = source.toList) ∧
      (insertAll source insertions).2 =
        ((insertions.map (·.offset)).dedup.filter (IsBoundary source.toList ·)).length ∧
      (∀ others : List Insertion,
        others.filter (IsBoundary source.toList ·.offset) =
          insertions.filter (IsBoundary source.toList ·.offset) →
        insertAll source others = insertAll source insertions) ∧
      (∀ others : List Insertion,
        (∀ offset, others.filter (·.offset = offset) = insertions.filter (·.offset = offset)) →
        insertAll source others = insertAll source insertions) ∧
      ((insertAll source insertions).2 = 0 → (insertAll source insertions).1 = source) := by
  have result := congrArg Prod.fst (insertAll_eq source insertions)
  have deleted := filterMap_kept?_weave (firstAt insertions) 0 source.toList
  refine ⟨⟨result, deleted⟩, count_insertAll source insertions, ?_, ?_, ?_⟩
  · intro others same
    refine insertAll_congr fun offset boundary => ?_
    -- those at a boundary are among those at any boundary
    have among (list : List Insertion) : list.filter (·.offset = offset) =
        (list.filter (IsBoundary source.toList ·.offset)).filter (·.offset = offset) := by
      rw [List.filter_filter]
      refine List.filter_congr fun i _ => ?_
      by_cases here : i.offset = offset <;> simp [here, boundary]
    rw [among others, among insertions, same]
  · intro others same
    exact insertAll_congr fun offset _ => same offset
  · intro nothing
    rw [← String.toList_inj]
    rw [insertAll] at nothing ⊢
    simpa using insertSorted_unchanged nothing

example : insertAll "aéb" [⟨3, "x"⟩, ⟨2, "y"⟩, ⟨9, "z"⟩, ⟨0, "u"⟩, ⟨3, "v"⟩] = ("uaéxb", 2) := by
  cbv

end Text
end ClientBoundary
