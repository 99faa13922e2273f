import ClientBoundary.Proofs.Rules.LeadingRun

/-!
# The directive of a program

Directives are looked for in two lists, in those that the parser found and in the statements at the
front of the body. It makes no difference that they are two: what counts is the first directive of
all strings that the program begins with.

- `IsFirstDirective`, `Decides`: what a run of strings says;
- `LeadingRun`: the strings that a program begins with;
- `scanStepwise_eq`: the two passes find what is found in one;
- `scanDirectives_decided`: a scan finds what the leading run says, and nothing else matters for it.
-/

namespace ClientBoundary
namespace Rules

open Script (Node Directive Program)

/-! ## What a run says -/

/-- A string that says where a file runs. -/
def IsDirective (value : String) : Prop :=
  value = "use client" ∨ value = "use server"

instance (value : String) : Decidable (IsDirective value) :=
  inferInstanceAs (Decidable (_ ∨ _))

/-- A string is a directive of a run and has none before it. -/
inductive IsFirstDirective : List String → String → Prop where
  | here {value : String} (directive : IsDirective value) (more : List String) :
      IsFirstDirective (value :: more) value
  | later {other value : String} {more : List String} (plain : ¬ IsDirective other)
      (h : IsFirstDirective more value) : IsFirstDirective (other :: more) value

/-- What a run of strings says: nothing, or what its first directive says. -/
inductive Decides (run : List String) : DirectiveState → Prop where
  | nothing (plain : ∀ value ∈ run, ¬ IsDirective value) : Decides run ⟨false, false⟩
  | client (first : IsFirstDirective run "use client") : Decides run ⟨true, false⟩
  | server (first : IsFirstDirective run "use server") : Decides run ⟨false, true⟩

theorem any_ofString_iff {value : String} :
    (DirectiveState.ofString value).any = true ↔ IsDirective value := by
  simp [DirectiveState.ofString, DirectiveState.any, IsDirective]

theorem ofStrings_cons_of_directive {value : String} (directive : IsDirective value)
    (more : List String) :
    DirectiveState.ofStrings (value :: more) = .ofString value := by
  rw [DirectiveState.ofStrings, if_pos (any_ofString_iff.2 directive)]

theorem ofStrings_cons_of_plain {value : String} (plain : ¬ IsDirective value)
    (more : List String) :
    DirectiveState.ofStrings (value :: more) = .ofStrings more := by
  rw [DirectiveState.ofStrings, if_neg (mt any_ofString_iff.1 plain)]

theorem Decides.cons {value : String} {run : List String} {s : DirectiveState}
    (plain : ¬ IsDirective value) (h : Decides run s) : Decides (value :: run) s := by
  cases h with
  | nothing none => exact .nothing (List.forall_mem_cons.2 ⟨plain, none⟩)
  | client first => exact .client (.later plain first)
  | server first => exact .server (.later plain first)

theorem decides_ofStrings (run : List String) : Decides run (.ofStrings run) := by
  induction run with
  | nil => exact .nothing (by simp)
  | cons value more ih =>
      by_cases directive : IsDirective value
      · rw [ofStrings_cons_of_directive directive]
        rcases directive with rfl | rfl
        · exact .client (.here (.inl rfl) more)
        · exact .server (.here (.inr rfl) more)
      · rw [ofStrings_cons_of_plain directive]
        exact ih.cons directive

/-- Strings that are no directives make no difference. -/
theorem ofStrings_filter (run : List String) :
    DirectiveState.ofStrings (run.filter (IsDirective ·)) = .ofStrings run := by
  induction run with
  | nil => rfl
  | cons value more ih =>
      by_cases directive : IsDirective value
      · rw [List.filter_cons_of_pos (by simpa using directive),
          ofStrings_cons_of_directive directive, ofStrings_cons_of_directive directive]
      · rw [List.filter_cons_of_neg (by simpa using directive),
          ofStrings_cons_of_plain directive, ih]

theorem ofStrings_append (xs ys : List String) :
    DirectiveState.ofStrings (xs ++ ys) =
      if (DirectiveState.ofStrings xs).any then .ofStrings xs else .ofStrings ys := by
  induction xs with
  | nil => rfl
  | cons value more ih =>
      by_cases directive : IsDirective value
      · rw [List.cons_append, ofStrings_cons_of_directive directive,
          ofStrings_cons_of_directive directive, if_pos (any_ofString_iff.2 directive)]
      · rw [List.cons_append, ofStrings_cons_of_plain directive,
          ofStrings_cons_of_plain directive, ih]

/-! ## Two passes -/

theorem eq_none_of_any {s : DirectiveState} (h : s.any = false) : s = .none := by
  rcases s with ⟨client, server⟩
  rw [DirectiveState.any, Bool.or_eq_false_iff] at h
  rcases h with ⟨rfl, rfl⟩
  rfl

/-- As long as nothing is known, a string tells what it says. -/
theorem observe_none (value : String) : DirectiveState.none.observe value = .ofString value := by
  by_cases client : value = "use client"
  · rw [client]
    rfl
  · by_cases server : value = "use server"
    · rw [server]
      rfl
    · simp [DirectiveState.observe, DirectiveState.ofString, DirectiveState.none, client, server]

theorem observeDirectives_eq (directives : List Directive) :
    DirectiveState.none.observeDirectives directives = .ofStrings (directives.map (·.value)) := by
  induction directives with
  | nil => rfl
  | cons d more ih =>
      rw [DirectiveState.observeDirectives, observe_none, List.map_cons, DirectiveState.ofStrings]
      cases any : (DirectiveState.ofString d.value).any with
      | true => rfl
      | false => rw [eq_none_of_any any, ← ih]

theorem observeStatements_eq (parts : List Node) :
    DirectiveState.none.observeStatements parts = .ofStrings (leadingStatements parts) := by
  induction parts with
  | nil => rfl
  | cons n more ih =>
      rw [DirectiveState.observeStatements, leadingStatements]
      cases string : statementString? n with
      | none => rfl
      | some value =>
          simp only [observe_none, DirectiveState.ofStrings]
          cases any : (DirectiveState.ofString value).any with
          | true => rfl
          | false => rw [eq_none_of_any any, ← ih]

/-- The two passes find what is found in one. -/
theorem scanStepwise_eq (program : Program) : scanStepwise program = scanDirectives program := by
  rw [scanDirectives, leadingStrings, ofStrings_append, ← observeDirectives_eq, scanStepwise]
  cases any : (DirectiveState.none.observeDirectives program.directives).any with
  | true => rfl
  | false => rw [eq_none_of_any any, ← observeStatements_eq]

/-! ## Leading runs -/

/-- The strings that a program begins with: those of its directives, and then those of the longest
run of statements at the front of its body that are just strings. -/
inductive LeadingRun (program : Program) : List String → Prop where
  | mk {front rest : List Node} {strings : List String} (parts : program.parts = front ++ rest)
      (run : List.Forall₂ IsStringStatement front strings)
      (ends : ∀ n, rest.head? = some n → ∀ value, ¬ IsStringStatement n value) :
      LeadingRun program (program.directives.map (·.value) ++ strings)

/-- The strings at the front of a list of statements, up to the first other statement. -/
theorem leadingStatements_append {front rest : List Node} {strings : List String}
    (run : List.Forall₂ IsStringStatement front strings)
    (ends : ∀ n, rest.head? = some n → ∀ value, ¬ IsStringStatement n value) :
    leadingStatements (front ++ rest) = strings := by
  induction run with
  | nil =>
      cases rest with
      | nil => rfl
      | cons n rest =>
          have other : statementString? n = none := by
            rw [Option.eq_none_iff_forall_not_mem]
            intro value string
            exact ends n rfl value (statementString?_eq_some_iff.1 string)
          rw [List.nil_append, leadingStatements, other]
  | cons here run ih =>
      rw [List.cons_append, leadingStatements, statementString?_eq_some_iff.2 here, ih]

theorem exists_leadingStatements (parts : List Node) :
    ∃ front rest, parts = front ++ rest ∧
      List.Forall₂ IsStringStatement front (leadingStatements parts) ∧
      ∀ n, rest.head? = some n → ∀ value, ¬ IsStringStatement n value := by
  induction parts with
  | nil => exact ⟨[], [], rfl, .nil, by simp⟩
  | cons n more ih =>
      cases string : statementString? n with
      | none =>
          have none_ : leadingStatements (n :: more) = [] := by rw [leadingStatements, string]
          refine ⟨[], n :: more, rfl, by rw [none_]; exact .nil, ?_⟩
          intro m first value here
          rcases Option.some.inj first with rfl
          rw [statementString?_eq_some_iff.2 here] at string
          cases string
      | some value =>
          rcases ih with ⟨front, rest, rfl, run, ends⟩
          refine ⟨n :: front, rest, rfl, ?_, ends⟩
          rw [leadingStatements, string]
          exact .cons (statementString?_eq_some_iff.1 string) run

/-- What is scanned is the leading run. -/
theorem leadingRun_iff {program : Program} {run : List String} :
    LeadingRun program run ↔ run = leadingStrings program := by
  constructor
  · rintro ⟨parts, strings, ends⟩
    rw [leadingStrings, parts, leadingStatements_append strings ends]
  · rintro rfl
    rcases exists_leadingStatements program.parts with ⟨front, rest, parts, strings, ends⟩
    exact .mk parts strings ends

/-- Up to the first statement that is no string the body decides what the run is. -/
theorem leadingStatements_stop {n : Node} (other : ∀ value, ¬ IsStringStatement n value)
    (front rest rest' : List Node) :
    leadingStatements (front ++ n :: rest) = leadingStatements (front ++ n :: rest') := by
  induction front with
  | nil =>
      have ends (rest : List Node) : leadingStatements ([] ++ n :: rest) = [] :=
        leadingStatements_append .nil fun m first => by
          rcases Option.some.inj first with rfl
          exact other
      rw [ends, ends]
  | cons m front ih => rw [List.cons_append, List.cons_append, leadingStatements,
      leadingStatements, ih]

/-- A scan finds what the strings say that a program begins with, be it in two passes or in one. It
never finds both. Strings that are no directives make no difference to it, wherever in the run they
stand, and neither do statements behind the first one that is no string. -/
theorem scanDirectives_decided (program : Program) :
    ∃ run, LeadingRun program run ∧ (∀ other, LeadingRun program other → other = run) ∧
      Decides run (scanDirectives program) ∧ scanStepwise program = scanDirectives program ∧
      ¬ ((scanDirectives program).client = true ∧ (scanDirectives program).server = true) ∧
      (∀ program' run', LeadingRun program' run' →
        run'.filter (IsDirective ·) = run.filter (IsDirective ·) →
        scanDirectives program' = scanDirectives program) ∧
      ∀ program' front n rest rest', program'.directives = program.directives →
        program.parts = front ++ n :: rest → program'.parts = front ++ n :: rest' →
        (∀ value, ¬ IsStringStatement n value) →
        scanDirectives program' = scanDirectives program := by
  have decided : Decides (leadingStrings program) (scanDirectives program) := decides_ofStrings _
  refine ⟨leadingStrings program, leadingRun_iff.2 rfl, fun _ => leadingRun_iff.1, decided,
    scanStepwise_eq program, ?_, ?_, ?_⟩
  · rintro ⟨client, server⟩
    generalize scanDirectives program = found at decided client server
    cases decided with
    | nothing => cases client
    | client => cases server
    | server => cases client
  · intro program' run' leads same
    rcases leadingRun_iff.1 leads with rfl
    rw [scanDirectives, scanDirectives, ← ofStrings_filter, same, ofStrings_filter]
  · intro program' front n rest rest' directives parts parts' other
    rw [scanDirectives, scanDirectives, leadingStrings, leadingStrings, directives, parts, parts',
      leadingStatements_stop other front rest' rest]

end Rules
end ClientBoundary
