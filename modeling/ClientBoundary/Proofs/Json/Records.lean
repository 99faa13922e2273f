import ClientBoundary.Json.Record
import ClientBoundary.Proofs.Json.RoundTrip

/-!
# Records that are read back

A record that was written is read back through the readers of its fields, and whatever can be read
can also be passed over.

- `readsBack_record`, `readsBack_list`, `readsBack_nullable`: readers of records read back what
  their fields read back;
- `skip?_of_value?`: the value of a member that is no field may be any value.
-/

namespace ClientBoundary
namespace Json

/-! ## What was written -/

theorem commaSeparated_map {α β : Type} (write : β → List Char) (f : α → β) : ∀ as : List α,
    commaSeparated write (as.map f) = commaSeparated (fun a => write (f a)) as
  | [] => rfl
  | [_] => rfl
  | a :: b :: more => congrArg (write (f a) ++ ',' :: ·) (commaSeparated_map write f (b :: more))

theorem readsBack_scalar {v : Value} (writable : v.Writable 0) :
    ReadsBack scalar? Value.chars v :=
  writable.readsBack

theorem readsBack_list {item : Reader Value} {items : List Value}
    (back : ∀ v ∈ items, ReadsBack item Value.chars v) :
    ReadsBack (list? item) Value.chars (.array items) := by
  refine ⟨⟨'[', _, rfl, by decide⟩, ?_⟩
  intro rest _
  have read := bracketed?_commaSeparated (.inl rfl) rest back
  rw [← itemChars_eq] at read
  simp [Value.chars, list?, read]

/-- An object whose members are fields is read back if the value of each is. -/
theorem readsBack_record {fields : Fields} {members : List (String × Value)}
    (back : ∀ m ∈ members, ∃ field, fields.lookup m.1 = some field ∧
      ReadsBack field Value.chars m.2) :
    ReadsBack (record? fields) Value.chars (.object members) := by
  refine ⟨⟨'{', _, rfl, by decide⟩, ?_⟩
  intro rest _
  -- every member is read as one with the value of a field
  let write (v : Option Value) : List Char := (v.getD .null).chars
  have known : ∀ m ∈ members.map fun m => (m.1, some m.2),
      ReadsBack (member? string? fields.value?) (fun m => quote m.1 ++ ':' :: write m.2) m := by
    intro m mem
    rcases List.mem_map.1 mem with ⟨m, here, rfl⟩
    rcases back m here with ⟨field, isField, own⟩
    refine readsBack_member ⟨own.begins, ?_⟩
    intro rest ends
    simp [Fields.value?, isField, write, own.reads rest ends]
  have read := bracketed?_commaSeparated (.inr rfl) rest known
  have fieldsOnly : (members.map fun m => (m.1, some m.2)).filterMap
      (fun m => m.2.map (m.1, ·)) = members := by
    rw [List.filterMap_map]
    exact List.filterMap_some
  have text : commaSeparated (fun m => quote m.1 ++ ':' :: write m.2)
      (members.map fun m => (m.1, some m.2)) = Value.memberChars members := by
    rw [commaSeparated_map, memberChars_eq]
    rfl
  rw [text] at read
  simp only [Value.chars, record?, List.cons_append, List.append_assoc, List.nil_append, read]
  exact congrArg (fun ms => some (Value.object ms, rest)) fieldsOnly

theorem readsBack_nullable {α : Type} {item : Reader Value} {toValue : α → Value} {a : Option α}
    (back : ∀ b, a = some b → ReadsBack item Value.chars (toValue b) ∧
      (toValue b).chars.head? ≠ some 'n') :
    ReadsBack (nullable? item) Value.chars (Value.ofOption toValue a) := by
  cases a with
  | none => exact ⟨⟨'n', _, rfl, by decide⟩, fun rest _ => rfl⟩
  | some b =>
      rcases back b rfl with ⟨own, other⟩
      refine ⟨own.begins, ?_⟩
      intro rest ends
      rcases own.begins with ⟨c, more, shape, -⟩
      have read := own.reads rest ends
      rw [shape] at other
      rw [Value.ofOption]
      rw [shape, List.cons_append] at read ⊢
      rw [nullable?]
      · exact read
      · intro more same
        exact other (congrArg some (List.cons.inj same).1)

/-! ## What is passed over -/

theorem skipBody?_of_stringBody? {text s rest : List Char}
    (read : stringBody? text = some (s, rest)) : skipBody? text = some rest := by
  fun_induction stringBody? text generalizing s rest <;> simp_all [skipBody?]
  -- what is read of a longer text is what is read behind its first character
  all_goals
    rename_i behind
    rcases read with ⟨more, read, -⟩
    exact behind read

/-- Whatever one reader reads, another one passes over. -/
def Skips {α β : Type} (skip : Reader β) (reader : Reader α) : Prop :=
  ∀ text a rest, reader text = some (a, rest) → ∃ b, skip text = some (b, rest)

theorem skips_string : Skips skipString? string? := by
  intro text s rest read
  unfold string? at read
  split at read
  · rcases Option.map_eq_some_iff.1 read with ⟨⟨body, more⟩, body_read, same⟩
    cases same
    exact ⟨(), by simp [skipString?, skipBody?_of_stringBody? body_read]⟩
  · cases read

theorem skips_scalar : Skips skipScalar? scalar? := by
  intro text v rest read
  unfold scalar? at read
  split at read
  · rcases Option.map_eq_some_iff.1 read with ⟨⟨s, more⟩, string_read, same⟩
    cases same
    exact skips_string _ _ _ string_read
  · simp_all [skipScalar?]
  · simp_all [skipScalar?]
  · simp_all [skipScalar?]
  · rename_i quote n t f
    rcases Option.map_eq_some_iff.1 read with ⟨⟨number, more⟩, number_read, same⟩
    cases same
    rcases Option.bind_eq_some_iff.1 number_read with ⟨⟨numeral, behind⟩, written, value⟩
    rcases Option.map_eq_some_iff.1 value with ⟨number, -, same⟩
    cases same
    rw [skipScalar?]
    · exact ⟨(), by rw [written]; rfl⟩
    · exact quote
    · exact n
    · exact t
    · exact f

section Lists

variable {α β : Type} {item : Reader α} {skip : Reader β}

theorem Skips.items (h : Skips skip item) (close : Char) (fuel : Nat) :
    Skips (items? skip close fuel) (items? item close fuel) := by
  induction fuel with
  | zero =>
      intro text as rest read
      cases read
  | succ fuel ih =>
      intro text as rest read
      -- both readers stand at the same place behind the first item
      rcases Option.bind_eq_some_iff.1 read with ⟨⟨a, behind⟩, first, others⟩
      rcases h _ _ _ first with ⟨b, skipped⟩
      cases shape : skipBlanks behind with
      | nil => simp [shape] at others
      | cons c more =>
          by_cases comma : c = ','
          · subst comma
            simp only [shape, Option.map_eq_some_iff] at others
            rcases others with ⟨⟨as, end_⟩, others, same⟩
            cases same
            rcases ih _ _ _ others with ⟨bs, passed⟩
            exact ⟨b :: bs, by simp [items?, skipped, shape, passed]⟩
          · obtain ⟨rfl, rfl⟩ : c = close ∧ more = rest := by simp_all
            exact ⟨[b], by simp [items?, skipped, shape]⟩

theorem Skips.bracketed (h : Skips skip item) (close : Char) :
    Skips (bracketed? skip close) (bracketed? item close) := by
  intro text as rest read
  unfold bracketed? at read ⊢
  split at read
  · split at read
    · cases read
      exact ⟨[], by simp_all⟩
    · rcases h.items close _ _ _ _ read with ⟨bs, skipped⟩
      exact ⟨bs, by simp_all⟩
  · cases read

theorem Skips.member (h : Skips skip item) :
    Skips (member? skipString? fun _ => skip) (member? string? fun _ => item) := by
  intro text m rest read
  -- the key of a value that is passed over is a string only in its form
  rcases Option.bind_eq_some_iff.1 read with ⟨⟨name, behind⟩, name_read, value⟩
  rcases skips_string _ _ _ name_read with ⟨k, skipped⟩
  cases shape : skipBlanks behind with
  | nil => simp [shape] at value
  | cons c more =>
      by_cases colon : c = ':'
      · subst colon
        simp only [shape, Option.map_eq_some_iff] at value
        rcases value with ⟨⟨a, end_⟩, value, same⟩
        cases same
        rcases h _ _ _ value with ⟨b, passed⟩
        exact ⟨(k, b), by simp [member?, skipped, shape, passed]⟩
      · simp [shape, colon] at value

end Lists

theorem scalar?_bracket {c : Char} (bracket : c = '[' ∨ c = '{') (rest : List Char) :
    scalar? (c :: rest) = none := by
  rcases bracket with rfl | rfl <;> rfl

theorem skips_scalar_value (bound : Nat) : Skips (skip? bound) scalar? := by
  intro text v rest read
  have skipped := skips_scalar _ _ _ read
  cases bound with
  | zero => exact skipped
  | succ bound =>
      unfold skip?
      split
      · rw [scalar?_bracket (.inl rfl)] at read
        cases read
      · rw [scalar?_bracket (.inr rfl)] at read
        cases read
      · exact skipped

/-- Every value that is read can be passed over. -/
theorem skips_value {depth bound : Nat} (enough : depth ≤ bound) :
    Skips (skip? bound) (value? depth) := by
  -- the parts of a value need one bracket less
  induction depth generalizing bound with
  | zero => exact skips_scalar_value bound
  | succ depth ih =>
      obtain ⟨bound, rfl⟩ : ∃ n, bound = n + 1 := ⟨bound - 1, by omega⟩
      have inner := ih (Nat.le_of_succ_le_succ enough)
      intro text v rest read
      rw [value?.eq_def] at read
      dsimp only at read
      split at read
      · rcases Option.map_eq_some_iff.1 read with ⟨⟨vs, behind⟩, items, same⟩
        cases same
        rcases inner.bracketed ']' _ _ _ items with ⟨bs, skipped⟩
        exact ⟨(), by simp [skip?, skipped]⟩
      · rcases Option.map_eq_some_iff.1 read with ⟨⟨ms, behind⟩, members, same⟩
        cases same
        rcases inner.member.bracketed '}' _ _ _ members with ⟨bs, skipped⟩
        exact ⟨(), by simp [skip?, skipped]⟩
      · exact skips_scalar_value _ _ _ _ read

end Json
end ClientBoundary
