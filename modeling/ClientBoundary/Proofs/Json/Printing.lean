import ClientBoundary.Proofs.Json.RoundTrip

/-!
# Written text has no control characters

Whatever a value holds, its compact text is a single line of characters from the space upwards:
control characters stand in strings alone, and there they are escaped.

- `Printable`: a text without control characters;
- `printable_escapeChar`, `printable_number`: characters inside quotes, and numbers;
- `Value.printable_render`: whole values.
-/

namespace ClientBoundary
namespace Json

/-- A text without control characters. -/
def Printable (text : List Char) : Prop :=
  ∀ c ∈ text, 0x20 ≤ c.toNat

@[simp] theorem printable_nil : Printable [] := by simp [Printable]

@[simp] theorem printable_cons {c : Char} {text : List Char} :
    Printable (c :: text) ↔ 0x20 ≤ c.toNat ∧ Printable text :=
  List.forall_mem_cons

@[simp] theorem printable_append {front back : List Char} :
    Printable (front ++ back) ↔ Printable front ∧ Printable back :=
  List.forall_mem_append

theorem Printable.of_subset {part text : List Char} (h : Printable text) (inside : part ⊆ text) :
    Printable part := fun c mem => h c (inside mem)

theorem printable_replicate {c : Char} (solid : 0x20 ≤ c.toNat) (n : Nat) :
    Printable (List.replicate n c) := by
  intro d mem
  rw [List.eq_of_mem_replicate mem]
  exact solid

/-! ## Strings -/

theorem printable_hexDigit : ∀ n < 16, 0x20 ≤ (Text.hexDigit n).toNat := by decide

/-- A control character is escaped, by a letter or by its number. -/
theorem printable_escapeChar (c : Char) : Printable (escapeChar c) := by
  unfold escapeChar
  split_ifs with quote backslash control n r t b f
  -- two characters and five controls have an escape of their own
  iterate 7 simp
  · have high := printable_hexDigit (c.toNat / 16) (by omega)
    have low := printable_hexDigit (c.toNat % 16) (by omega)
    simp [high, low]
  · simpa using control

theorem printable_quote (s : String) : Printable (quote s) := by
  have body : Printable (s.toList.flatMap escapeChar) := by
    intro d mem
    rcases List.mem_flatMap.1 mem with ⟨c, -, here⟩
    exact printable_escapeChar c d here
  simpa [quote] using body

/-! ## Numbers -/

theorem printable_decimal (n : Nat) : Printable (decimal n) := by
  intro c mem
  have digit := isDigit_of_mem_decimal mem
  simp only [isDigit, Bool.and_eq_true, decide_eq_true_eq] at digit
  have least : '0'.toNat ≤ c.toNat := digit.1
  exact Nat.le_trans (by decide) least

theorem printable_signedDecimal (n : Int) : Printable (signedDecimal n) := by
  unfold signedDecimal
  split
  · simp [printable_decimal]
  · exact printable_decimal _

theorem printable_positional {digits : List Char} (h : Printable digits) (lead : Int) :
    Printable (positional digits lead) := by
  have zeros (n : Nat) : Printable (List.replicate n '0') := printable_replicate (by decide) n
  have front (n : Nat) : Printable (digits.take n) := h.of_subset (List.take_subset n digits)
  have back (n : Nat) : Printable (digits.drop n) := h.of_subset (List.drop_subset n digits)
  unfold positional
  dsimp only
  split_ifs
  · simp [zeros, h]
  · simp [zeros, h]
  · simp [front, back]

theorem printable_scientific {digits : List Char} (h : Printable digits) (lead : Int) :
    Printable (scientific digits lead) := by
  have sign : 0x20 ≤ (if lead < 0 then '-' else '+').toNat := by split <;> decide
  have power : Printable ('e' :: (if lead < 0 then '-' else '+') :: decimal lead.natAbs) := by
    simp [sign, printable_decimal]
  -- a point stands behind the first digit if there are more of them
  unfold scientific
  refine printable_append.2 ⟨?_, power⟩
  rcases digits with - | ⟨d, - | ⟨e, more⟩⟩
  · exact printable_nil
  · exact h
  · simpa using h

theorem Magnitude.printable_chars (m : Magnitude) : Printable m.chars := by
  unfold Magnitude.chars
  split
  · simp
  · dsimp only
    split
    · exact printable_positional (printable_decimal _) _
    · exact printable_scientific (printable_decimal _) _

theorem Number.printable_chars (n : Number) : Printable n.chars := by
  cases n with
  | integer n => exact printable_signedDecimal n
  | real negative m =>
      have digits := m.printable_chars
      cases negative with
      | true => simpa [Number.chars] using digits
      | false => simpa [Number.chars] using digits

/-! ## Values -/

namespace Value

mutual

/-- The compact text of a value has no control characters, whatever strings and numbers are in
it. -/
theorem printable_chars : ∀ v : Value, Printable v.chars
  | .null => by simp [chars]
  | .bool true => by simp [chars]
  | .bool false => by simp [chars]
  | .number n => n.printable_chars
  | .string s => printable_quote s
  | .array items => by
      have inside := printable_itemChars items
      simpa [chars] using inside
  | .object members => by
      have inside := printable_memberChars members
      simpa [chars] using inside

theorem printable_itemChars : ∀ items : List Value, Printable (itemChars items)
  | [] => printable_nil
  | [v] => printable_chars v
  | v :: w :: more => by
      have first := printable_chars v
      have rest := printable_itemChars (w :: more)
      simpa [itemChars, first] using rest

theorem printable_memberChars : ∀ members : List (String × Value), Printable (memberChars members)
  | [] => printable_nil
  | [(key, v)] => by
      have value := printable_chars v
      simpa [memberChars, printable_quote] using value
  | (key, v) :: m :: more => by
      have value := printable_chars v
      have rest := printable_memberChars (m :: more)
      simpa [memberChars, printable_quote, value] using rest

end

theorem printable_render (v : Value) : Printable v.render.toList := by
  rw [render, String.toList_ofList]
  exact v.printable_chars

end Value

/-- A zero in a string is written by its number. -/
example : (Value.string "\x00").render = "\"\\u0000\"" := by decide

end Json
end ClientBoundary
