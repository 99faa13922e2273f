import ClientBoundary.Proofs.Json.Schema
import ClientBoundary.Proofs.Rules.ReadingBack
import Mathlib.Data.Set.List

/-!
# Values that describe options

Options are given by null, by an object, or by an array with at most one object, and an object has
no other key than `ignorePath`. Besides these, an array is read as its only item, whatever that is,
so any number of brackets may stand around such a value.

- `Options.DescribesGlobs`, `Options.DescribesObject`, `Options.Documented`: the values that are
  meant to describe options, with the options that they describe;
- `Options.ofSorted_object`: an object is read if it describes options;
- `Options.conformsInPlace_iff`: the arrays that the schema describes;
- `Options.ofValue_eq_ok_iff`: the values that are read, with the options that they give.
-/

namespace ClientBoundary
namespace Rules
namespace Options

open Json (Increasing Value lastMember? sortMembers)

/-! ## Documented values -/

/-- One glob, or a list of globs. -/
inductive DescribesGlobs : Value → IgnorePath → Prop where
  | single (p : String) : DescribesGlobs (.string p) (.single p)
  | multiple (ps : List String) : DescribesGlobs (.array (ps.map .string)) (.multiple ps)

/-- The globs of options are those of a value, if there is one. -/
def GlobsOf (describes : Value → IgnorePath → Prop) (v : Option Value) (o : Options) : Prop :=
  match v with
  | none => o = default
  | some v => describes v o.ignorePath

/-- An object that has no key but `ignorePath`, with globs under it. -/
structure DescribesObject (members : List (String × Value)) (o : Options) : Prop where
  keys : ∀ key v, lastMember? key members = some v → key = "ignorePath"
  globs : GlobsOf DescribesGlobs (lastMember? "ignorePath" members) o

/-- Null, an object, or an array with at most one object. -/
inductive Documented : Value → Options → Prop where
  | null : Documented .null default
  | empty : Documented (.array []) default
  | object {members : List (String × Value)} {o : Options} (given : DescribesObject members o) :
      Documented (.object members) o
  | single {members : List (String × Value)} {o : Options} (given : DescribesObject members o) :
      Documented (.array [.object members]) o

/-! ## Globs -/

theorem mapM_asString?_eq_some_iff {items : List Value} {ps : List String} :
    items.mapM Value.asString? = some ps ↔ items = ps.map .string := by
  constructor
  · intro read
    induction items generalizing ps with
    | nil => cases read; rfl
    | cons v more ih =>
        rw [List.mapM_cons] at read
        rcases Option.bind_eq_some_iff.1 read with ⟨p, first, behind⟩
        rcases Option.bind_eq_some_iff.1 behind with ⟨rest, others, whole⟩
        cases v <;> cases first
        cases whole
        rw [ih others, List.map_cons]
  · rintro rfl
    exact Json.mapM_map_of_reads fun _ _ => rfl

theorem ignorePathOf?_eq_some_iff {v : Value} {i : IgnorePath} :
    ignorePathOf? v.sorted = some i ↔ DescribesGlobs v i := by
  constructor
  · intro read
    cases v with
    | string p =>
        rcases Option.some.inj read with rfl
        exact .single p
    | array items =>
        have texts : (items.map Value.sorted).mapM Value.asString? =
            items.mapM Value.asString? := by
          rw [List.mapM_map]
          exact congrArg (List.mapM · items) (funext Value.asString?_sorted)
        rw [Value.sorted, Value.sortedItems_eq_map, ignorePathOf?, texts,
          Option.map_eq_some_iff] at read
        rcases read with ⟨ps, strings, rfl⟩
        rcases mapM_asString?_eq_some_iff.1 strings with rfl
        exact .multiple ps
    | null => cases read
    | bool b => cases read
    | number n => cases read
    | object members => cases read
  · intro given
    cases given with
    | single p => rfl
    | multiple ps =>
        rw [Value.sorted, Value.sortedItems_ofStrings, ignorePathOf?,
          mapM_asString?_eq_some_iff.2 rfl]
        rfl

/-! ## Objects -/

/-- Members in the order of their keys are read if there is none but `ignorePath`, with globs. -/
theorem ofMembers_eq_ok_iff {members : List (String × Value)} (increasing : Increasing members)
    {o : Options} :
    ofMembers default members = .ok o ↔
      (∀ m ∈ members, m.1 = "ignorePath") ∧
        GlobsOf (fun v i => ignorePathOf? v = some i) (members.lookup "ignorePath") o := by
  cases members with
  | nil => simp [ofMembers, GlobsOf, eq_comm]
  | cons m more =>
      rcases m with ⟨key, v⟩
      by_cases here : key = "ignorePath"
      · subst here
        cases more with
        | nil => cases given : ignorePathOf? v <;> cases o <;> simp [ofMembers, GlobsOf, given]
        | cons n more =>
            -- the next key is greater, so it is another one
            have less : "ignorePath" < n.1 :=
              (Json.increasing_cons.1 increasing).1 n List.mem_cons_self
            have other : n.1 ≠ "ignorePath" := ne_of_gt less
            rcases n with ⟨key, w⟩
            cases given : ignorePathOf? v <;> simp [ofMembers, given, other]
      · simp [ofMembers, here]

/-- An object is read as options if it describes them. -/
theorem ofSorted_object {members : List (String × Value)} {o : Options} :
    ofSorted (Value.object members).sorted = .ok o ↔ DescribesObject members o := by
  have globs : GlobsOf (fun v i => ignorePathOf? v = some i)
      ((lastMember? "ignorePath" members).map Value.sorted) o ↔
        GlobsOf DescribesGlobs (lastMember? "ignorePath" members) o := by
    cases lastMember? "ignorePath" members with
    | none => exact Iff.rfl
    | some v => exact ignorePathOf?_eq_some_iff
  rw [Value.sorted, ofSorted, ofMembers_eq_ok_iff (Json.increasing_sortMembers _),
    Value.forall_members_iff, Value.lookup_sortedMembers, globs]
  constructor
  · rintro ⟨keys, given⟩
    exact ⟨keys, given⟩
  · rintro ⟨keys, given⟩
    exact ⟨keys, given⟩

/-! ## Values -/

/-- A value with brackets around it. -/
def bracketed : Nat → Value → Value
  | 0, v => v
  | n + 1, v => .array [bracketed n v]

theorem exists_bracketed : ∀ {v : Value} {o : Options}, ofSorted v.sorted = .ok o →
    ∃ n w, v = bracketed n w ∧ Documented w o
  | .null, _, read => ⟨0, .null, rfl, Except.ok.inj read ▸ .null⟩
  | .array [], _, read => ⟨0, .array [], rfl, Except.ok.inj read ▸ .empty⟩
  | .array [v], o, read => by
      have inner : ofSorted v.sorted = .ok o := read
      rcases exists_bracketed inner with ⟨n, w, shape, given⟩
      exact ⟨n + 1, w, by rw [shape, bracketed], given⟩
  | .object members, _, read => ⟨0, .object members, rfl, .object (ofSorted_object.1 read)⟩

theorem ofSorted_bracketed {w : Value} {o : Options} (given : Documented w o) (n : Nat) :
    ofSorted (bracketed n w).sorted = .ok o := by
  induction n with
  | zero =>
      cases given with
      | null => rfl
      | empty => rfl
      | object given => exact ofSorted_object.2 given
      | single given => exact ofSorted_object.2 given
  | succ n ih => exact ih

theorem ofValue_eq_ok {rule : String} {v : Value} {o : Options} :
    ofValue rule v = .ok o ↔ ofSorted v.sorted = .ok o := by
  rw [ofValue]
  cases ofSorted v.sorted <;> simp

/-! ## The schema -/

/-- The schema of a text. -/
def textSchema : Value :=
  .object [("type", .string "string")]

/-- The schema of globs. -/
def globSchema : Value :=
  .object [("anyOf", .array [textSchema,
    .object [("items", textSchema), ("type", .string "array")]])]

/-- The schema of an object. -/
def objectSchema : Value :=
  .object [("additionalProperties", .bool false),
    ("properties", .object [("ignorePath", globSchema)]), ("type", .string "object")]

theorem optionsSchema_eq : optionsSchema = .array [objectSchema] := rfl

theorem textSchema_conforms : textSchema.conforms = fun v => v.asString?.isSome := by
  funext v
  cases v <;> simp [textSchema, Value.conforms, Value.conformsAll, Value.asString?, Value.kind]

theorem globSchema_conforms (v : Value) :
    globSchema.conforms v =
      match v with
      | .string _ => true
      | .array items => items.all fun w => w.asString?.isSome
      | _ => false := by
  cases v <;>
    simp [globSchema, Value.conforms, Value.conformsAll, Value.conformsAny, Value.conformsSome,
      textSchema_conforms, Value.asString?, Value.kind]

theorem objectSchema_conforms (v : Value) :
    objectSchema.conforms v =
      match v with
      | .object members => (members.all fun m => decide (m.1 = "ignorePath")) &&
          (members.lookup "ignorePath").all globSchema.conforms
      | _ => false := by
  cases v <;>
    simp [objectSchema, Value.conforms, Value.conformsAll, Value.conformsEach, Value.conformsNamed,
      Value.propertyNames, Value.asString?, Value.kind, List.lookup_cons]

/-- The schema of globs describes one text and lists of texts. -/
theorem globSchema_conforms_iff {v : Value} :
    globSchema.conforms v.sorted = true ↔ ∃ i, DescribesGlobs v i := by
  rw [globSchema_conforms]
  constructor
  · intro conforms
    cases v with
    | string p => exact ⟨_, .single p⟩
    | array items =>
        simp only [Value.sorted, Value.sortedItems_eq_map, List.all_map, List.all_eq_true,
          Function.comp_apply, Value.asString?_sorted] at conforms
        -- a list of which every item is a text is a list of texts
        have texts : items ∈ Set.range (List.map Value.string) := by
          rw [Set.range_list_map]
          intro w mem
          rcases Option.isSome_iff_exists.1 (conforms w mem) with ⟨p, text⟩
          cases w <;> cases text
          exact ⟨p, rfl⟩
        rcases texts with ⟨ps, rfl⟩
        exact ⟨_, .multiple ps⟩
    | null => cases conforms
    | bool b => cases conforms
    | number n => cases conforms
    | object members => cases conforms
  · rintro ⟨i, given⟩
    cases given with
    | single p => rfl
    | multiple ps => simp [Value.sorted, Value.sortedItems_ofStrings, Value.asString?]

/-- The schema of an object describes the objects that are read. -/
theorem objectSchema_conforms_iff {members : List (String × Value)} :
    objectSchema.conforms (Value.object members).sorted = true ↔
      ∃ o, DescribesObject members o := by
  rw [objectSchema_conforms]
  simp only [Value.sorted, Bool.and_eq_true, List.all_eq_true, decide_eq_true_eq,
    Value.lookup_sortedMembers, Value.forall_members_iff]
  constructor
  · rintro ⟨keys, conforms⟩
    cases value : lastMember? "ignorePath" members with
    | none => exact ⟨default, keys, by rw [value]; rfl⟩
    | some v =>
        rw [value, Option.map_some, Option.all_some, globSchema_conforms_iff] at conforms
        rcases conforms with ⟨i, globs⟩
        exact ⟨⟨i⟩, keys, by rw [value]; exact globs⟩
  · rintro ⟨o, keys, globs⟩
    refine ⟨keys, ?_⟩
    cases value : lastMember? "ignorePath" members with
    | none => rfl
    | some v =>
        rw [value] at globs
        rw [Option.map_some, Option.all_some, globSchema_conforms_iff]
        exact ⟨_, globs⟩

/-- The schema of a rule describes the arrays that are documented. -/
theorem conformsInPlace_iff {items : List Value} :
    optionsSchema.asArray?.any (fun schemas =>
        Value.conformsInPlace schemas (Value.sortedItems items)) = true ↔
      ∃ o, Documented (.array items) o := by
  rw [optionsSchema_eq]
  constructor
  · intro conforms
    match items with
    | [] => exact ⟨_, .empty⟩
    | [v] =>
        have alone : objectSchema.conforms v.sorted = true := by
          simpa [Value.asArray?, Value.sortedItems, Value.conformsInPlace] using conforms
        cases v with
        | object members =>
            rcases objectSchema_conforms_iff.1 alone with ⟨o, given⟩
            exact ⟨o, .single given⟩
        | _ => simp [objectSchema_conforms, Value.sorted] at alone
    | v :: w :: more =>
        simp [Value.asArray?, Value.sortedItems, Value.conformsInPlace] at conforms
  · rintro ⟨o, given⟩
    cases given with
    | empty => rfl
    | single given =>
        have alone := objectSchema_conforms_iff.2 ⟨o, given⟩
        simp [Value.asArray?, Value.sortedItems, Value.conformsInPlace, alone]

/-! ## What is read -/

/-- The values that are read as options are the documented ones with any number of brackets around
them, and they give the options that the documented ones describe. So the values that are read and
not documented are the arrays of one item that is read and is no object. The arrays that are
documented are those of the schema. Options that are written as text are read back as they were. -/
theorem ofValue_eq_ok_iff (rule : String) :
    (∀ v o, ofValue rule v = .ok o ↔ ∃ n w, v = bracketed n w ∧ Documented w o) ∧
    (∀ v, ((∃ o, ofValue rule v = .ok o) ∧ ¬ ∃ o, Documented v o) ↔
      ∃ w, v = .array [w] ∧ (∃ o, ofValue rule w = .ok o) ∧ ∀ members, w ≠ .object members) ∧
    (∀ items, optionsSchema.asArray?.any (fun schemas =>
        Value.conformsInPlace schemas (Value.sortedItems items)) = true ↔
      ∃ o, Documented (.array items) o) ∧
    ∀ o : Options, ∃ w, Value.parse? o.toValue.render = some w ∧ ofValue rule w = .ok o := by
  have reads (v : Value) (o : Options) :
      ofValue rule v = .ok o ↔ ∃ n w, v = bracketed n w ∧ Documented w o := by
    rw [ofValue_eq_ok]
    constructor
    · exact exists_bracketed
    · rintro ⟨n, w, rfl, given⟩
      exact ofSorted_bracketed given n
  refine ⟨reads, ?_, fun items => conformsInPlace_iff, ?_⟩
  · intro v
    constructor
    · rintro ⟨⟨o, read⟩, undocumented⟩
      rcases (reads v o).1 read with ⟨n, w, rfl, given⟩
      cases n with
      | zero => exact absurd ⟨o, given⟩ undocumented
      | succ n =>
          refine ⟨bracketed n w, rfl, ⟨o, (reads _ o).2 ⟨n, w, rfl, given⟩⟩, ?_⟩
          intro members object
          cases n with
          | zero =>
              rw [bracketed] at object
              subst object
              cases given with
              | object given => exact undocumented ⟨o, .single given⟩
          | succ n => cases object
    · rintro ⟨w, rfl, ⟨o, read⟩, other⟩
      refine ⟨⟨o, read⟩, ?_⟩
      rintro ⟨p, given⟩
      cases given with
      | single given => exact other _ rfl
  · intro o
    have writable := o.writable_toValue (Json.maxDepth - 2)
    exact ⟨o.toValue, Value.parse?_render writable, ofValue_toValue rule o⟩

/-- An array in an array is read, though it is not documented. -/
theorem ofValue_eq_ok_iff_nested :
    let object := Value.object [("ignorePath", .string "legacy/**")]
    ofValue "browser-api" (.array [.array [object]]) = .ok ⟨.single "legacy/**"⟩ ∧
      ¬ ∃ o, Documented (.array [.array [object]]) o := by
  intro object
  rcases ofValue_eq_ok_iff "browser-api" with ⟨reads, undocumented, -, -⟩
  have given : DescribesObject [("ignorePath", .string "legacy/**")] ⟨.single "legacy/**"⟩ := by
    refine ⟨?_, .single "legacy/**"⟩
    intro key v last
    by_contra other
    simp [lastMember?, Json.lookup_member, other] at last
  have alone : ofValue "browser-api" (.array [object]) = .ok ⟨.single "legacy/**"⟩ :=
    (reads _ _).2 ⟨1, object, rfl, .object given⟩
  have outer := (undocumented (.array [.array [object]])).2
    ⟨_, rfl, ⟨_, alone⟩, fun members => by simp⟩
  exact ⟨(reads _ _).2 ⟨2, object, rfl, .object given⟩, outer.2⟩

end Options
end Rules
end ClientBoundary
