import ClientBoundary.Proofs.Text.Inserting
import ClientBoundary.Text.Location
import Mathlib.Data.Nat.Basic

/-!
# Locations and the offsets they stand for

A text before an offset is some whole lines, each with its line feed, and a part of a line behind
them. The location counts those lines and the characters of that part, so it tells the offset.

- `WholeLines`, `exists_wholeLines`: the lines in front of the last one;
- `Location.afterText_wholeLines`: what a location counts;
- `skipLines?`, `skipChars?`, `Location.offset?`: the offset of a location;
- `Location.Before`: the order of locations;
- `ofOffset_identifies`: locations stand for offsets, and their numbers fit in words.
-/

namespace ClientBoundary
namespace Text

/-! ## Whole lines -/

/-- Lines one after the other, each with the line feed at its end. -/
inductive WholeLines : List Char → Prop
  | none : WholeLines []
  | line {body rest : List Char} (plain : '\n' ∉ body) (more : WholeLines rest) :
      WholeLines (body ++ '\n' :: rest)

/-- Every text is some whole lines and a part of a line behind them. -/
theorem exists_wholeLines (text : List Char) :
    ∃ front last, text = front ++ last ∧ WholeLines front ∧ '\n' ∉ last := by
  induction text with
  | nil => exact ⟨[], [], rfl, .none, List.not_mem_nil⟩
  | cons c text ih =>
      rcases ih with ⟨front, last, rfl, lines, plain⟩
      by_cases feed : c = '\n'
      · subst feed
        have empty : WholeLines ([] ++ '\n' :: front) := .line List.not_mem_nil lines
        exact ⟨'\n' :: front, last, rfl, empty, plain⟩
      · have other : '\n' ≠ c := Ne.symm feed
        -- the character belongs to the first line, be it a whole one or not
        cases lines with
        | none => exact ⟨[], c :: last, rfl, .none, by simp [other, plain]⟩
        | line first more =>
            rename_i body rest
            refine ⟨(c :: body) ++ '\n' :: rest, last, rfl, .line ?_ more, plain⟩
            simp [other, first]

theorem WholeLines.end {front : List Char} (h : WholeLines front) :
    front = [] ∨ ∃ body, front = body ++ ['\n'] := by
  induction h with
  | none => exact .inl rfl
  | line plain more ih =>
      rename_i body rest
      rcases ih with rfl | ⟨others, rfl⟩
      · exact .inr ⟨body, rfl⟩
      · exact .inr ⟨body ++ '\n' :: others, by simp⟩

section Lines

variable {front last : List Char}

theorem lastLineLength_wholeLines (lines : WholeLines front) (plain : '\n' ∉ last) :
    lastLineLength (front ++ last) = last.length := by
  have part : ∀ c ∈ last.reverse, decide (c ≠ '\n') = true := by
    intro c mem
    rw [decide_eq_true_eq]
    rintro rfl
    exact plain (List.mem_reverse.1 mem)
  have stop : front.reverse.takeWhile (· ≠ '\n') = [] := by
    rcases lines.end with rfl | ⟨body, rfl⟩
    · rfl
    · simp
  rw [lastLineLength, List.reverse_append, List.takeWhile_append_of_pos part, stop,
    List.append_nil, List.length_reverse]

/-- A location counts the whole lines before it, and the characters behind them. -/
theorem Location.afterText_wholeLines (lines : WholeLines front) (plain : '\n' ∉ last) :
    afterText (front ++ last) = ⟨front.count '\n' + 1, last.length + 1⟩ := by
  rw [afterText, lastLineLength_wholeLines lines plain, List.count_append,
    List.count_eq_zero_of_not_mem plain, Nat.add_zero]

/-! ## The last line by its offset -/

theorem lastFeed?_eq_none (plain : '\n' ∉ last) : lastFeed? last = none := by
  induction last with
  | nil => rfl
  | cons c last ih =>
      rw [List.mem_cons, not_or] at plain
      rw [lastFeed?, ih plain.2]
      exact if_neg (Ne.symm plain.1)

theorem lastFeed?_append (body : List Char) (plain : '\n' ∉ last) :
    lastFeed? (body ++ '\n' :: last) = some (byteLength body) := by
  induction body with
  | nil => simp [lastFeed?, lastFeed?_eq_none plain]
  | cons c body ih => rw [List.cons_append, lastFeed?, ih, byteLength_cons]

theorem lastLineStart_wholeLines (lines : WholeLines front) (plain : '\n' ∉ last) :
    lastLineStart (front ++ last) = byteLength front := by
  rcases lines.end with rfl | ⟨body, rfl⟩
  · rw [lastLineStart, List.nil_append, lastFeed?_eq_none plain, byteLength_nil]
  · have feed : byteLength ['\n'] = 1 := by decide
    rw [lastLineStart, List.append_assoc, List.singleton_append, lastFeed?_append body plain,
      byteLength_append, feed]

end Lines

/-! ## From locations to offsets -/

/-- Skip a line with its line feed; none if there is no line feed. -/
def skipLine? (position : Nat) : List Char → Option (Nat × List Char)
  | [] => none
  | c :: rest =>
      if c = '\n' then some (position + c.utf8Size, rest)
      else skipLine? (position + c.utf8Size) rest

/-- Skip so many lines, each with its line feed. -/
def skipLines? (position : Nat) (text : List Char) : Nat → Option (Nat × List Char)
  | 0 => some (position, text)
  | lines + 1 => (skipLine? position text).bind fun (next, rest) => skipLines? next rest lines

/-- Skip so many characters. -/
def skipChars? (position : Nat) : List Char → Nat → Option Nat
  | _, 0 => some position
  | [], _ + 1 => none
  | c :: rest, n + 1 => skipChars? (position + c.utf8Size) rest n

/-- The length of the first line of a text, its line feed counted. -/
def firstLineLength : List Char → Nat
  | [] => 0
  | c :: rest => if c = '\n' then 1 else firstLineLength rest + 1

/-- The offset behind the lines before a location and the characters before it in its line. -/
def Location.offset? (l : Location) (source : String) : Option Nat :=
  (skipLines? 0 source.toList (l.line - 1)).bind fun (position, rest) =>
    skipChars? position rest (l.column - 1)

theorem skipLine?_append {body : List Char} (plain : '\n' ∉ body) (position : Nat)
    (rest : List Char) : skipLine? position (body ++ '\n' :: rest) =
      some (position + byteLength (body ++ ['\n']), rest) := by
  induction body generalizing position with
  | nil => rfl
  | cons c body ih =>
      rw [List.mem_cons, not_or] at plain
      rw [List.cons_append, skipLine?, if_neg (Ne.symm plain.1), ih plain.2, List.cons_append,
        byteLength_cons, Nat.add_assoc]

theorem skipLines?_append {front : List Char} (lines : WholeLines front) (position : Nat)
    (rest : List Char) : skipLines? position (front ++ rest) (front.count '\n') =
      some (position + byteLength front, rest) := by
  induction lines generalizing position with
  | none => rfl
  | line plain more ih =>
      rename_i body others
      have count : (body ++ '\n' :: others).count '\n' = others.count '\n' + 1 := by
        rw [List.count_append, List.count_eq_zero_of_not_mem plain, List.count_cons_self,
          Nat.zero_add]
      have length : byteLength (body ++ '\n' :: others) =
          byteLength (body ++ ['\n']) + byteLength others := by
        rw [← byteLength_append, List.append_assoc, List.singleton_append]
      have first := skipLine?_append plain position (others ++ rest)
      rw [count, skipLines?, List.append_assoc, List.cons_append, first, Option.bind_some, length,
        ← Nat.add_assoc]
      exact ih (position + byteLength (body ++ ['\n']))

theorem skipChars?_append (last : List Char) (position : Nat) (rest : List Char) :
    skipChars? position (last ++ rest) last.length = some (position + byteLength last) := by
  induction last generalizing position with
  | nil => cases rest <;> rfl
  | cons c last ih =>
      rw [List.cons_append, List.length_cons, skipChars?, ih, byteLength_cons, Nat.add_assoc]

theorem length_le_firstLineLength {last : List Char} (plain : '\n' ∉ last) (rest : List Char) :
    last.length ≤ firstLineLength (last ++ rest) := by
  induction last with
  | nil => exact Nat.zero_le _
  | cons c last ih =>
      rw [List.mem_cons, not_or] at plain
      rw [List.cons_append, firstLineLength, if_neg (Ne.symm plain.1), List.length_cons]
      exact Nat.succ_le_succ (ih plain.2)

/-! ## Texts before an offset -/

/-- What stands before an offset is a beginning of the text. -/
theorem textBefore_split (text : List Char) (offset : Nat) :
    ∃ after, text = textBefore text offset ++ after := by
  rw [textBefore]
  split
  · rename_i before after split
    exact ⟨after, (splitAtByte?_eq_some split).1⟩
  · exact ⟨[], (List.append_nil text).symm⟩

/-! ## Locations -/

/-- A location stands before another one in reading order. -/
def Location.Before (l m : Location) : Prop :=
  l.line < m.line ∨ l.line = m.line ∧ l.column < m.column

/-- A longer text has a later location behind it. -/
theorem Location.before_append (before : List Char) {between : List Char} (some_ : between ≠ []) :
    (afterText before).Before (afterText (before ++ between)) := by
  by_cases feed : '\n' ∈ between
  · -- a further line feed makes a further line
    have counted : 0 < between.count '\n' := List.count_pos_iff.2 feed
    left
    simp only [afterText, List.count_append]
    omega
  · rcases exists_wholeLines before with ⟨front, last, rfl, lines, plain⟩
    have part : '\n' ∉ last ++ between := by simp [plain, feed]
    have longer : 0 < between.length := List.length_pos_iff.2 some_
    right
    rw [List.append_assoc, afterText_wholeLines lines plain, afterText_wholeLines lines part]
    simp only [List.length_append, true_and]
    omega

/-- The location behind the beginning of a text leads back to the end of that beginning. -/
theorem Location.offset?_afterText (before after : List Char) :
    (afterText before).offset? (String.ofList (before ++ after)) = some (byteLength before) := by
  rcases exists_wholeLines before with ⟨front, last, rfl, lines, plain⟩
  rw [afterText_wholeLines lines plain, offset?, String.toList_ofList]
  simp only [Nat.add_sub_cancel]
  rw [List.append_assoc, skipLines?_append lines, Option.bind_some, skipChars?_append,
    byteLength_append, Nat.zero_add]

/-- The column of a location is within its line. -/
theorem Location.column_le_afterText (before after : List Char) :
    ∃ position rest, skipLines? 0 (before ++ after) ((afterText before).line - 1) =
        some (position, rest) ∧ (afterText before).column - 1 ≤ firstLineLength rest := by
  rcases exists_wholeLines before with ⟨front, last, rfl, lines, plain⟩
  rw [afterText_wholeLines lines plain]
  simp only [Nat.add_sub_cancel]
  rw [List.append_assoc, skipLines?_append lines]
  exact ⟨_, _, rfl, length_le_firstLineLength plain after⟩

/-! ## Words -/

theorem toNat_ofNat_add_one {n : Nat} (small : n + 1 < UInt32.size) :
    (UInt32.ofNat n + 1).toNat = n + 1 := by
  have fits : (UInt32.ofNat n).toNat = n := UInt32.toNat_ofNat_of_lt' (Nat.lt_of_succ_lt small)
  rw [UInt32.toNat_add, fits]
  exact Nat.mod_eq_of_lt small

/-- In a short text the words are the numbers of the location, and the last line is found. -/
theorem wordsOfOffset?_eq {source : String} (short : byteLength source.toList < UInt32.size - 1)
    (offset : UInt32) : ∃ line column, wordsOfOffset? source offset = some (line, column) ∧
      line.toNat = (Location.ofOffset source offset.toNat).line ∧
      column.toNat = (Location.ofOffset source offset.toNat).column := by
  rw [wordsOfOffset?, Location.ofOffset]
  rcases textBefore_split source.toList offset.toNat with ⟨after, whole⟩
  generalize textBefore source.toList offset.toNat = before at whole ⊢
  rcases exists_wholeLines before with ⟨front, last, rfl, lines, plain⟩
  -- lines and characters are no more than bytes
  have bytes : (front ++ last).length ≤ byteLength source.toList := by
    have length := length_le_byteLength (front ++ last)
    rw [whole, byteLength_append]
    omega
  have feeds : front.count '\n' ≤ front.length := List.count_le_length
  rw [List.length_append] at bytes
  rw [lastLineStart_wholeLines lines plain, splitAtByte?_append,
    Location.afterText_wholeLines lines plain, List.count_append,
    List.count_eq_zero_of_not_mem plain, Nat.add_zero]
  refine ⟨_, _, rfl, ?_, ?_⟩
  · exact toNat_ofNat_add_one (by omega)
  · exact toNat_ofNat_add_one (by omega)

/-! ## Offsets -/

theorem ofOffset_of_split {source : String} {before after : List Char}
    (whole : source.toList = before ++ after) :
    Location.ofOffset source (byteLength before) = .afterText before := by
  rw [Location.ofOffset, whole, textBefore_append]

/-- The text before the greater one of two boundaries is longer. -/
theorem exists_between {text before after front rest : List Char} (here : text = before ++ after)
    (there : text = front ++ rest) (less : byteLength before < byteLength front) :
    ∃ between, front = before ++ between ∧ between ≠ [] := by
  have first : before <+: text := ⟨after, here.symm⟩
  have second : front <+: text := ⟨rest, there.symm⟩
  rcases List.prefix_or_prefix_of_prefix first second with ⟨between, rfl⟩ | ⟨between, rfl⟩
  · refine ⟨between, rfl, ?_⟩
    rintro rfl
    simp at less
  · rw [byteLength_append] at less
    omega

/-- In a text of fewer than `UInt32.size - 1` bytes the locations of boundaries are in the order of
their offsets, and each of them leads back to its offset, line by line and then character by
character. Every location is in a line of the text and within that line, the same is counted in
words without wrapping around, and offsets past the end have the location of the end. -/
theorem ofOffset_identifies {source : String} (short : byteLength source.toList < UInt32.size - 1) :
    (∀ a b, IsBoundary source.toList a → IsBoundary source.toList b → a < b →
        (Location.ofOffset source a).Before (.ofOffset source b)) ∧
      (∀ a, IsBoundary source.toList a → (Location.ofOffset source a).offset? source = some a) ∧
      (∀ offset, 1 ≤ (Location.ofOffset source offset).line ∧
        1 ≤ (Location.ofOffset source offset).column ∧
        (Location.ofOffset source offset).line ≤ source.toList.count '\n' + 1 ∧
        ∃ position rest, skipLines? 0 source.toList
            ((Location.ofOffset source offset).line - 1) = some (position, rest) ∧
          (Location.ofOffset source offset).column - 1 ≤ firstLineLength rest) ∧
      (∀ offset : UInt32, ∃ line column, wordsOfOffset? source offset = some (line, column) ∧
        line.toNat = (Location.ofOffset source offset.toNat).line ∧
        column.toNat = (Location.ofOffset source offset.toNat).column) ∧
      ∀ offset, byteLength source.toList ≤ offset →
        Location.ofOffset source offset = .ofOffset source (byteLength source.toList) := by
  refine ⟨?_, ?_, ?_, wordsOfOffset?_eq short, ?_⟩
  · rintro a b ⟨before, after, here, rfl⟩ ⟨front, rest, there, rfl⟩ less
    rcases exists_between here there less with ⟨between, rfl, some_⟩
    rw [ofOffset_of_split here, ofOffset_of_split there]
    exact Location.before_append before some_
  · rintro a ⟨before, after, whole, rfl⟩
    rw [ofOffset_of_split whole, ← String.ofList_toList (s := source), whole]
    exact Location.offset?_afterText before after
  · intro offset
    rcases textBefore_split source.toList offset with ⟨after, whole⟩
    rw [Location.ofOffset]
    generalize textBefore source.toList offset = before at whole ⊢
    have lines : before.count '\n' ≤ source.toList.count '\n' := by
      rw [whole, List.count_append]
      exact Nat.le_add_right _ _
    refine ⟨Nat.le_add_left 1 _, Nat.le_add_left 1 _, Nat.succ_le_succ lines, ?_⟩
    rw [whole]
    exact Location.column_le_afterText before after
  · intro offset past
    rw [Location.ofOffset, Location.ofOffset, textBefore_of_le past,
      textBefore_of_le (Nat.le_refl _)]

/-- A character of two bytes, an empty line and a last line without a line feed: the offset four is
behind the accented character. -/
theorem ofOffset_identifies_accented :
    byteLength "a\né\n\nb".toList < UInt32.size - 1 ∧
      (Location.ofOffset "a\né\n\nb" 4).Before (.ofOffset "a\né\n\nb" 5) ∧
      (Location.ofOffset "a\né\n\nb" 4).offset? "a\né\n\nb" = some 4 ∧
      Location.ofOffset "a\né\n\nb" 4 = ⟨2, 2⟩ ∧
      Location.ofOffset "a\né\n\nb" 9 = ⟨4, 2⟩ := by
  have short : byteLength "a\né\n\nb".toList < UInt32.size - 1 := by decide
  rcases ofOffset_identifies short with ⟨ordered, back, -, -, past⟩
  refine ⟨short, ?_, ?_, by decide, ?_⟩
  · exact ordered 4 5 (by decide) (by decide) (by decide)
  · exact back 4 (by decide)
  · rw [past 9 (by decide)]
    decide

end Text
end ClientBoundary
