import ClientBoundary.Json.Printer
import ClientBoundary.Json.Reader
import Mathlib.Data.List.TakeWhile
import Mathlib.Tactic.SplitIfs

/-!
# Written values read back

Compact text is read as the value that was written.

- `stringBody?_escaped`, `number?_decimal`: strings and numbers, in front of any text that may
  follow them;
- `Value.Writable`: the values that are read back, with brackets nested at most so deep;
- `Value.parse?_render`: the value of a whole document.
-/

namespace ClientBoundary
namespace Json

/-! ## Strings -/

theorem hexNumber?_control : ∀ n < 0x20,
    Text.hexNumber? ['0', '0', Text.hexDigit (n / 16), Text.hexDigit (n % 16)] = some n := by
  decide

theorem stringBody?_escapeChar (c : Char) (rest : List Char) :
    stringBody? (escapeChar c ++ rest) =
      (stringBody? rest).map fun (s, r) => (c :: s, r) := by
  unfold escapeChar
  by_cases quote : c = '"'
  · subst quote
    simp [stringBody?, unescape?]
  by_cases backslash : c = '\\'
  · subst backslash
    simp [stringBody?, unescape?]
  rw [if_neg quote, if_neg backslash]
  by_cases control : c.toNat < 0x20
  · rw [if_pos control]
    split_ifs with n r t b f
    · subst n
      simp [stringBody?, unescape?]
    · subst r
      simp [stringBody?, unescape?]
    · subst t
      simp [stringBody?, unescape?]
    · obtain rfl : c = Char.ofNat 8 := by rw [← b, Char.ofNat_toNat]
      simp [stringBody?, unescape?]
    · obtain rfl : c = Char.ofNat 12 := by rw [← f, Char.ofNat_toNat]
      simp [stringBody?, unescape?]
    -- the other control characters are written by number, which no surrogate has
    · have high : isHighSurrogate c.toNat = false := by
        simp only [isHighSurrogate, Bool.and_eq_false_iff, decide_eq_false_iff_not]
        exact .inl (by omega)
      have low : isLowSurrogate c.toNat = false := by
        simp only [isLowSurrogate, Bool.and_eq_false_iff, decide_eq_false_iff_not]
        exact .inl (by omega)
      simp [stringBody?, hexNumber?_control c.toNat control, high, low]
  · have plain : ¬(c = '\\' ∨ c.toNat < 0x20) := not_or.2 ⟨backslash, control⟩
    rw [if_neg control, List.singleton_append, stringBody?, if_neg plain]
    all_goals simp_all

/-- Reading stops at the quote that ends what was written. -/
theorem stringBody?_escaped (text rest : List Char) :
    stringBody? (text.flatMap escapeChar ++ '"' :: rest) = some (text, rest) := by
  induction text with
  | nil => simp [stringBody?]
  | cons c cs ih =>
      rw [List.flatMap_cons, List.append_assoc, stringBody?_escapeChar, ih]
      rfl

theorem string?_quote (s : String) (rest : List Char) :
    string? (quote s ++ rest) = some (s, rest) := by
  have body := stringBody?_escaped s.toList rest
  simp [quote, string?, body]

/-! ## Numbers -/

theorem digitValue_digitChar : ∀ d < 10, digitValue d.digitChar = d := by decide

theorem digitChar_ne_zero : ∀ d < 10, 0 < d → d.digitChar ≠ '0' := by decide

theorem decimal_of_lt {n : Nat} (h : n < 10) : decimal n = [n.digitChar] :=
  Nat.toDigits_of_lt_base h

theorem decimal_of_le {n : Nat} (h : 10 ≤ n) :
    decimal n = decimal (n / 10) ++ [(n % 10).digitChar] :=
  Nat.toDigits_of_base_le (by decide) h

theorem isDigit_of_mem_decimal {n : Nat} {c : Char} (h : c ∈ decimal n) : isDigit c = true :=
  Nat.isDigit_of_mem_toDigits (by decide) (by decide) h

theorem ne_of_isDigit {c d : Char} (h : isDigit c = true) (other : isDigit d = false) : c ≠ d := by
  rintro rfl
  rw [h] at other
  cases other

/-- The first character of a number. -/
theorem exists_digit (n : Nat) : ∃ d more, decimal n = d :: more ∧ isDigit d = true := by
  obtain ⟨d, more, shape⟩ : ∃ d more, decimal n = d :: more :=
    List.exists_cons_of_ne_nil Nat.toDigits_ne_nil
  have mem : d ∈ decimal n := by simp [shape]
  exact ⟨d, more, shape, isDigit_of_mem_decimal mem⟩

theorem appendDigits_cons {significand : Nat} {c : Char} {cs : List Char}
    (fits : significand * 10 + digitValue c < UInt64.size) :
    appendDigits significand (c :: cs) = appendDigits (significand * 10 + digitValue c) cs :=
  if_pos fits

theorem appendDigits_append {significand value : Nat} {digits more : List Char}
    (h : appendDigits significand digits = (value, [])) :
    appendDigits significand (digits ++ more) = appendDigits value more := by
  induction digits generalizing significand with
  | nil =>
      simp only [appendDigits, Prod.mk.injEq, and_true] at h
      rw [h, List.nil_append]
  | cons c cs ih =>
      simp only [appendDigits] at h
      split_ifs at h with fits
      · rw [List.cons_append, appendDigits_cons fits]
        exact ih h
      · simp at h

theorem appendDigits_decimal {n : Nat} (fits : n < UInt64.size) :
    appendDigits 0 (decimal n) = (n, []) := by
  -- the last digit is split off, as the number is written
  induction n using Nat.strong_induction_on with
  | _ n ih =>
      by_cases small : n < 10
      · have value : 0 * 10 + digitValue n.digitChar = n := by
          rw [digitValue_digitChar n small, Nat.zero_mul, Nat.zero_add]
        rw [decimal_of_lt small, appendDigits_cons (by rwa [value]), value, appendDigits]
      · have large : 10 ≤ n := Nat.le_of_not_lt small
        have front := ih (n / 10) (by omega) (by omega)
        have value : n / 10 * 10 + digitValue (n % 10).digitChar = n := by
          rw [digitValue_digitChar (n % 10) (Nat.mod_lt n (by decide)), Nat.div_add_mod']
        rw [decimal_of_le large, appendDigits_append front, appendDigits_cons (by rwa [value]),
          value, appendDigits]

/-- Only zero is written with a zero in front. -/
theorem decimal_head {n : Nat} (pos : 0 < n) : (decimal n).head? ≠ some '0' := by
  induction n using Nat.strong_induction_on with
  | _ n ih =>
      by_cases small : n < 10
      · have ne := digitChar_ne_zero n small pos
        simp [decimal_of_lt small, ne]
      · have large : 10 ≤ n := Nat.le_of_not_lt small
        have front := ih (n / 10) (by omega) (by omega)
        have digits : decimal (n / 10) ≠ [] := Nat.toDigits_ne_nil
        rw [decimal_of_le large, List.head?_append, List.head?_eq_some_head digits] at *
        exact front

/-- What may follow a value: nothing, a comma or a closing bracket. -/
def Ends (rest : List Char) : Prop :=
  ∀ c ∈ rest.head?, c = ',' ∨ c = ']' ∨ c = '}'

theorem ends_nil : Ends [] := by
  intro c h
  cases h

theorem ends_cons {c : Char} {rest : List Char} (h : c = ',' ∨ c = ']' ∨ c = '}') :
    Ends (c :: rest) := by
  intro d hd
  cases hd
  exact h

/-- A number ends where a value may end. -/
theorem Ends.cases {rest : List Char} (h : Ends rest) :
    rest = [] ∨ ∃ c more, rest = c :: more ∧
      isDigit c = false ∧ c ≠ '.' ∧ c ≠ 'e' ∧ c ≠ 'E' ∧ isBlank c = false := by
  cases rest with
  | nil => exact .inl rfl
  | cons c more =>
      refine .inr ⟨c, more, rfl, ?_⟩
      rcases h c rfl with rfl | rfl | rfl <;> decide

theorem digits_of_ends {n : Nat} {rest : List Char} (h : Ends rest) :
    (decimal n ++ rest).takeWhile isDigit = decimal n ∧
      (decimal n ++ rest).dropWhile isDigit = rest := by
  have digits : ∀ c ∈ decimal n, isDigit c = true := fun c => isDigit_of_mem_decimal
  rw [List.takeWhile_append_of_pos digits, List.dropWhile_append_of_pos digits]
  rcases h.cases with rfl | ⟨c, more, rfl, digit, -⟩
  · simp
  · simp [digit]

/-- Reading stops behind the digits that were written. -/
theorem number?_decimal {n : Nat} {rest : List Char} (fits : n < UInt64.size) (h : Ends rest) :
    number? (decimal n ++ rest) = some (.integer n, rest) := by
  rcases exists_digit n with ⟨d, ds, shape, digit⟩
  have unsigned : ∀ more, decimal n ++ rest ≠ '-' :: more := by
    intro more same
    rw [shape] at same
    exact ne_of_isDigit digit (by decide) (List.cons.inj same).1
  -- a number has digits, and no zero in front of others
  have sound : ((decimal n).isEmpty ||
      (decide (1 < (decimal n).length) && (decimal n).head? == some '0')) = false := by
    have filled : (decimal n).isEmpty = false := by simp [shape]
    rcases Nat.eq_zero_or_pos n with rfl | pos
    · decide
    · simp [filled, decimal_head pos]
  rcases digits_of_ends (n := n) h with ⟨taken, dropped⟩
  have written : numeral? (decimal n ++ rest) = some (⟨false, decimal n, none, none⟩, rest) := by
    unfold numeral?
    split
    rename_i negative text same
    split at same
    · rename_i more shape
      exact absurd shape (unsigned more)
    · rcases Prod.mk.inj same with ⟨rfl, rfl⟩
      simp only [taken, dropped, sound, Bool.false_eq_true, if_false]
      rcases h.cases with rfl | ⟨c, more, rfl, -, point, small, capital, -⟩
      · simp
      · simp [point, small, capital]
  simp [number?, written, Numeral.number?, appendDigits_decimal fits]

/-! ## Lists -/

/-- Texts with commas between them. -/
def commaSeparated {α : Type} (write : α → List Char) : List α → List Char
  | [] => []
  | [a] => write a
  | a :: b :: more => write a ++ ',' :: commaSeparated write (b :: more)

/-- What is written for an item begins with a character of its own and is read back. -/
structure ReadsBack {α : Type} (item : Reader α) (write : α → List Char) (a : α) : Prop where
  begins : ∃ c more, write a = c :: more ∧ isBlank c = false ∧ c ≠ ']' ∧ c ≠ '}'
  reads : ∀ rest, Ends rest → item (write a ++ rest) = some (a, rest)

section Lists

variable {α : Type} {item : Reader α} {write : α → List Char} {close : Char}

theorem ReadsBack.skipBlanks {a : α} (h : ReadsBack item write a) (rest : List Char) :
    skipBlanks (write a ++ rest) = write a ++ rest := by
  rcases h.begins with ⟨c, more, shape, blank, -⟩
  simp [shape, Json.skipBlanks, blank]

theorem items?_commaSeparated (closing : close = ']' ∨ close = '}') (rest : List Char) :
    ∀ (as : List α) (fuel : Nat), (∀ a ∈ as, ReadsBack item write a) → as ≠ [] →
      as.length ≤ fuel →
        items? item close fuel (commaSeparated write as ++ close :: rest) = some (as, rest)
  | [], _, _, filled, _ => absurd rfl filled
  | _ :: _, 0, _, _, enough => absurd enough (Nat.not_succ_le_zero _)
  | [a], fuel + 1, back, _, _ => by
      have head := back a List.mem_cons_self
      have ends : Ends (close :: rest) := ends_cons (.inr closing)
      have blank : isBlank close = false := by rcases closing with rfl | rfl <;> decide
      have solid : Json.skipBlanks (close :: rest) = close :: rest := by
        simp [Json.skipBlanks, blank]
      simp only [items?, commaSeparated, head.skipBlanks, head.reads _ ends, solid,
        Option.bind_some]
      rcases closing with rfl | rfl <;> simp
  | a :: b :: more, fuel + 1, back, _, enough => by
      have head := back a List.mem_cons_self
      have tail : ∀ x ∈ b :: more, ReadsBack item write x := by
        intro x hx
        exact back x (List.mem_cons_of_mem a hx)
      have ih := items?_commaSeparated closing rest (b :: more) fuel tail (by simp)
        (Nat.le_of_succ_le_succ enough)
      have ends : Ends (',' :: (commaSeparated write (b :: more) ++ close :: rest)) :=
        ends_cons (.inl rfl)
      have solid : ∀ text, Json.skipBlanks (',' :: text) = ',' :: text := fun text => rfl
      simp [items?, commaSeparated, head.skipBlanks, head.reads _ ends, solid, ih]

/-- The reader of lists takes the length of the text as its fuel, which is enough. -/
theorem length_le_commaSeparated :
    ∀ as : List α, (∀ a ∈ as, ReadsBack item write a) →
      as.length ≤ (commaSeparated write as).length
  | [], _ => Nat.le_refl 0
  | [a], back => by
      rcases (back a List.mem_cons_self).begins with ⟨c, more, shape, -⟩
      simp [commaSeparated, shape]
  | a :: b :: more, back => by
      have ih := length_le_commaSeparated (b :: more) fun x hx =>
        back x (List.mem_cons_of_mem a hx)
      simp only [commaSeparated, List.length_append, List.length_cons] at ih ⊢
      omega

/-- The items between two brackets are read back. -/
theorem bracketed?_commaSeparated (closing : close = ']' ∨ close = '}') (rest : List Char)
    {as : List α} (back : ∀ a ∈ as, ReadsBack item write a) :
    bracketed? item close (commaSeparated write as ++ close :: rest) = some (as, rest) := by
  cases as with
  | nil =>
      have blank : isBlank close = false := by rcases closing with rfl | rfl <;> decide
      simp [bracketed?, commaSeparated, Json.skipBlanks, blank]
  | cons a more =>
      have enough := length_le_commaSeparated (a :: more) back
      have read := items?_commaSeparated closing rest (a :: more)
        (commaSeparated write (a :: more) ++ close :: rest).length back (by simp) (by
          rw [List.length_append]
          omega)
      rcases (back a List.mem_cons_self).begins with ⟨c, cs, shape, blank, square, curly⟩
      -- the first item shows that the list does not close at once
      obtain ⟨ds, front⟩ : ∃ ds, commaSeparated write (a :: more) ++ close :: rest = c :: ds := by
        cases more with
        | nil => exact ⟨_, by rw [commaSeparated, shape]; rfl⟩
        | cons b more => exact ⟨_, by rw [commaSeparated, shape]; rfl⟩
      have other : c ≠ close := by
        rintro rfl
        rcases closing with rfl | rfl
        · exact square rfl
        · exact curly rfl
      rw [front] at read ⊢
      simp only [bracketed?, Json.skipBlanks, List.dropWhile_cons, blank]
      simpa [other] using read

end Lists

/-! ## Values -/

/-- How a member of an object is written. -/
def memberText (m : String × Value) : List Char :=
  quote m.1 ++ ':' :: m.2.chars

theorem itemChars_eq : ∀ items : List Value,
    Value.itemChars items = commaSeparated Value.chars items
  | [] => rfl
  | [v] => rfl
  | v :: w :: more => by
      rw [Value.itemChars, commaSeparated, itemChars_eq (w :: more)]

theorem memberChars_eq : ∀ members : List (String × Value),
    Value.memberChars members = commaSeparated memberText members
  | [] => rfl
  | [(key, v)] => rfl
  | (key, v) :: m :: more => by
      rw [Value.memberChars, commaSeparated, memberChars_eq (m :: more), memberText]

/-- Values without floating-point numbers whose integers are natural numbers of 64 bits, with at
most `depth` brackets inside each other. -/
def Value.Writable : Nat → Value → Prop
  | _, .null => True
  | _, .bool _ => True
  | _, .string _ => True
  | _, .number (.integer n) => ∃ k : Nat, n = k ∧ k < UInt64.size
  | _, .number (.real _ _) => False
  | 0, .array _ => False
  | 0, .object _ => False
  | depth + 1, .array items => ∀ v ∈ items, v.Writable depth
  | depth + 1, .object members => ∀ m ∈ members, m.2.Writable depth

theorem number_chars (k : Nat) : (Value.number (.integer k)).chars = decimal k := by
  have natural : ¬((k : Int) < 0) := by omega
  simp [Value.chars, Number.chars, signedDecimal, natural]

theorem Value.Writable.begins {depth : Nat} {v : Value} (h : v.Writable depth) :
    ∃ c more, v.chars = c :: more ∧ isBlank c = false ∧ c ≠ ']' ∧ c ≠ '}' := by
  cases v with
  | null => exact ⟨'n', _, rfl, by decide⟩
  | bool b =>
      cases b with
      | true => exact ⟨'t', _, rfl, by decide⟩
      | false => exact ⟨'f', _, rfl, by decide⟩
  | string s => exact ⟨'"', _, rfl, by decide⟩
  | array items => exact ⟨'[', _, rfl, by decide⟩
  | object members => exact ⟨'{', _, rfl, by decide⟩
  | number n =>
      cases n with
      | real negative magnitude => simp [Writable] at h
      | integer n =>
          obtain ⟨k, rfl, -⟩ : ∃ k : Nat, n = k ∧ k < UInt64.size := by simpa [Writable] using h
          rcases exists_digit k with ⟨d, more, shape, digit⟩
          refine ⟨d, more, (number_chars k).trans shape, ?_, ?_, ?_⟩
          · cases blank : isBlank d with
            | false => rfl
            | true =>
                simp only [isBlank, Bool.or_eq_true, decide_eq_true_eq] at blank
                rcases blank with ((rfl | rfl) | rfl) | rfl <;> exact absurd digit (by decide)
          · exact ne_of_isDigit digit (by decide)
          · exact ne_of_isDigit digit (by decide)

theorem scalar?_decimal {n : Nat} {rest : List Char} (fits : n < UInt64.size) (h : Ends rest) :
    scalar? (decimal n ++ rest) = some (.number (.integer n), rest) := by
  have read := number?_decimal fits h
  rcases exists_digit n with ⟨d, more, shape, digit⟩
  rw [shape, List.cons_append] at read ⊢
  unfold scalar?
  split
  -- no digit begins `null`, `true`, `false` or a string
  iterate 4
    rename_i same
    exact absurd (List.cons.inj same).1 (ne_of_isDigit digit (by decide))
  rw [read]
  rfl

/-- A text that begins with no bracket is read as a value without brackets. -/
theorem value?_of_begins {depth : Nat} {c : Char} {more : List Char} (square : c ≠ '[')
    (curly : c ≠ '{') : value? depth (c :: more) = scalar? (c :: more) := by
  cases depth with
  | zero => rfl
  | succ depth =>
      rw [value?]
      · rintro rest same
        exact square (List.cons.inj same).1
      · rintro rest same
        exact curly (List.cons.inj same).1

/-- Values without brackets are read back at every depth. -/
theorem value?_scalar {depth : Nat} {v : Value} {rest : List Char} (writable : v.Writable 0)
    (ends : Ends rest) : value? depth (v.chars ++ rest) = some (v, rest) := by
  cases v with
  | null =>
      rw [Value.chars, List.cons_append, value?_of_begins (by decide) (by decide)]
      simp [scalar?, after?]
  | bool b =>
      cases b with
      | true =>
          rw [Value.chars, List.cons_append, value?_of_begins (by decide) (by decide)]
          simp [scalar?, after?]
      | false =>
          rw [Value.chars, List.cons_append, value?_of_begins (by decide) (by decide)]
          simp [scalar?, after?]
  | string s =>
      have read := string?_quote s rest
      rw [Value.chars, quote, List.cons_append, List.cons_append] at *
      rw [value?_of_begins (by decide) (by decide), scalar?, read]
      rfl
  | array items => simp [Value.Writable] at writable
  | object members => simp [Value.Writable] at writable
  | number n =>
      cases n with
      | real negative magnitude => simp [Value.Writable] at writable
      | integer n =>
          obtain ⟨k, rfl, fits⟩ : ∃ k : Nat, n = k ∧ k < UInt64.size := by
            simpa [Value.Writable] using writable
          have read := scalar?_decimal fits ends
          rcases exists_digit k with ⟨d, more, shape, digit⟩
          rw [number_chars]
          rw [shape, List.cons_append] at read ⊢
          rw [value?_of_begins (ne_of_isDigit digit (by decide)) (ne_of_isDigit digit (by decide)),
            read]

section Members

variable {α : Type} {value : String → Reader α} {write : α → List Char} {m : String × α}

/-- A key, a colon and a value are read back, with any blanks behind the colon. -/
theorem readsBack_spacedMember (gap : List Char) (blanks : ∀ c ∈ gap, isBlank c = true)
    (back : ReadsBack (value m.1) write m.2) :
    ReadsBack (member? string? value) (fun m => quote m.1 ++ ':' :: (gap ++ write m.2)) m := by
  refine ⟨⟨'"', _, rfl, by decide⟩, ?_⟩
  intro rest ends
  have colon : ∀ text, skipBlanks (':' :: text) = ':' :: text := fun text => rfl
  have solid : skipBlanks (gap ++ (write m.2 ++ rest)) = write m.2 ++ rest := by
    rw [skipBlanks, List.dropWhile_append_of_pos blanks]
    exact back.skipBlanks rest
  rw [List.append_assoc, member?, string?_quote]
  simp only [List.cons_append, List.append_assoc, Option.bind_some, colon, solid,
    back.reads rest ends]
  rfl

theorem readsBack_member (back : ReadsBack (value m.1) write m.2) :
    ReadsBack (member? string? value) (fun m => quote m.1 ++ ':' :: write m.2) m :=
  readsBack_spacedMember [] (by simp) back

end Members

/-- Every writable value is read back, in front of whatever may follow it. -/
theorem value?_chars (depth : Nat) : ∀ (v : Value), v.Writable depth → ∀ rest, Ends rest →
    value? depth (v.chars ++ rest) = some (v, rest) := by
  -- the items of an array and the members of an object need one bracket less
  induction depth with
  | zero =>
      intro v writable rest ends
      exact value?_scalar writable ends
  | succ depth ih =>
      intro v writable rest ends
      cases v with
      | null => exact value?_scalar trivial ends
      | bool b => exact value?_scalar trivial ends
      | string s => exact value?_scalar trivial ends
      | number n =>
          refine value?_scalar ?_ ends
          cases n with
          | integer n => simpa [Value.Writable] using writable
          | real negative magnitude => simp [Value.Writable] at writable
      | array items =>
          have inner : ∀ v ∈ items, v.Writable depth := by
            simpa only [Value.Writable] using writable
          have back : ∀ v ∈ items, ReadsBack (value? depth) Value.chars v := fun v hv =>
            ⟨(inner v hv).begins, ih v (inner v hv)⟩
          have read := bracketed?_commaSeparated (.inl rfl) rest back
          rw [← itemChars_eq] at read
          simp [Value.chars, value?, read]
      | object members =>
          have inner : ∀ m ∈ members, m.2.Writable depth := by
            simpa only [Value.Writable] using writable
          have back : ∀ m ∈ members,
              ReadsBack (member? string? fun _ => value? depth) memberText m :=
            fun m hm => readsBack_member ⟨(inner m hm).begins, ih m.2 (inner m hm)⟩
          have read := bracketed?_commaSeparated (.inr rfl) rest back
          rw [← memberChars_eq] at read
          simp [Value.chars, value?, read]

theorem Value.Writable.readsBack {depth : Nat} {v : Value} (writable : v.Writable depth) :
    ReadsBack (value? depth) Value.chars v :=
  ⟨writable.begins, value?_chars depth v writable⟩

/-- A document that was written is read back. -/
theorem ReadsBack.document?_eq {α : Type} {item : Reader α} {write : α → List Char} {a : α}
    (h : ReadsBack item write a) : document? item (String.ofList (write a)) = some a := by
  have solid := h.skipBlanks []
  have read := h.reads [] ends_nil
  rw [List.append_nil] at solid read
  rw [document?, String.toList_ofList, solid, read]
  rfl

theorem Value.parse?_render {v : Value} (writable : v.Writable maxDepth) :
    Value.parse? v.render = some v :=
  writable.readsBack.document?_eq

/-! ## Lists of strings -/

theorem mapM_map_of_reads {α : Type} {write : α → Value} {read : Value → Option α} {as : List α}
    (h : ∀ a ∈ as, read (write a) = some a) : (as.map write).mapM read = some as := by
  induction as with
  | nil => rfl
  | cons a more ih =>
      have head := h a List.mem_cons_self
      have tail := ih fun b hb => h b (List.mem_cons_of_mem a hb)
      rw [List.map_cons, List.mapM_cons, head, tail]
      rfl

theorem Value.asStrings?_ofStrings (texts : List String) :
    (Value.ofStrings texts).asStrings? = some texts :=
  mapM_map_of_reads fun _ _ => rfl

theorem Value.writable_ofStrings (depth : Nat) (texts : List String) :
    (Value.ofStrings texts).Writable (depth + 1) := by
  intro v mem
  rcases List.mem_map.1 mem with ⟨text, -, rfl⟩
  cases depth <;> trivial

end Json
end ClientBoundary
