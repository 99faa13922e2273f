import ClientBoundary.Proofs.Text.ByteOrder
import ClientBoundary.Rules.BrowserGlobals
import Mathlib.Data.List.Sort

/-!
# What is derived as a browser global

The derived list has the names of the browser whose lower-case form is that of no name of the
server, in the order of their bytes. Names that differ in their letter case only are kept or left
out one by one.

- `mem_sortNames`, `increasing_sortNames`: sorting names and leaving out the repeated ones;
- `mem_deriveBrowserGlobals`: the names that are derived;
- `deriveBrowserGlobals_difference`: the derived list, and what it depends on.
-/

namespace ClientBoundary
namespace Rules

open Text (lowercase utf8Bytes utf8Bytes_lt_iff)

/-! ## Sorted names -/

theorem mem_dropRepeats {name : String} (names : List String) :
    name ∈ dropRepeats names ↔ name ∈ names := by
  fun_induction dropRepeats names with
  | case1 n more ih =>
      -- the name that is left out stands in the rest as well
      rw [ih, List.mem_cons (a := name) (b := n) (l := n :: more)]
      exact (or_iff_right_of_imp fun same => same ▸ List.mem_cons_self).symm
  | case2 n m more differ ih => rw [List.mem_cons, ih, List.mem_cons (b := n)]
  | case3 names short => rfl

/-- In a sorted list all occurrences of a name stand side by side, so that one of them is left. -/
theorem increasing_dropRepeats {names : List String} (sorted : names.Pairwise (· ≤ ·)) :
    (dropRepeats names).Pairwise (· < ·) := by
  fun_induction dropRepeats names with
  | case1 n more ih => exact ih (List.pairwise_cons.1 sorted).2
  | case2 n m more differ ih =>
      rcases List.pairwise_cons.1 sorted with ⟨first, rest⟩
      refine List.pairwise_cons.2 ⟨?_, ih rest⟩
      intro name mem
      have next : n < m := lt_of_le_of_ne (first m List.mem_cons_self) differ
      rcases List.mem_cons.1 ((mem_dropRepeats (m :: more)).1 mem) with rfl | later
      · exact next
      · exact lt_of_lt_of_le next ((List.pairwise_cons.1 rest).1 name later)
  | case3 names short =>
      match names, short with
      | [], _ => exact List.Pairwise.nil
      | [n], _ => exact List.pairwise_singleton _ n
      | n :: m :: more, short => exact absurd rfl (short n m more)

theorem mem_sortNames {name : String} (names : List String) :
    name ∈ sortNames names ↔ name ∈ names := by
  rw [sortNames, mem_dropRepeats, List.mem_mergeSort]

theorem increasing_sortNames (names : List String) : (sortNames names).Pairwise (· < ·) := by
  have sorted : (names.mergeSort fun a b => a ≤ b).Pairwise
      fun a b => decide (a ≤ b) = true := by
    apply List.pairwise_mergeSort
    · intro a b c first next
      rw [decide_eq_true_eq] at *
      exact le_trans first next
    · intro a b
      simpa using le_total a b
  apply increasing_dropRepeats
  simpa using sorted

/-! ## Derived names -/

/-- The server knows a name if one of its names has the same lower-case form. -/
def KnowsName (runtime : List String) (name : String) : Prop :=
  ∃ other, (other ∈ runtime ∨ other ∈ runtimeOverlap) ∧ lowercase other = lowercase name

theorem mem_deriveBrowserGlobals {browser runtime : List String} {name : String} :
    name ∈ deriveBrowserGlobals browser runtime ↔ name ∈ browser ∧ ¬KnowsName runtime name := by
  have known : ((runtime ++ runtimeOverlap).map lowercase).contains (lowercase name) = true ↔
      KnowsName runtime name := by
    rw [List.contains_iff_mem, List.mem_map]
    simp only [List.mem_append, KnowsName]
  rw [deriveBrowserGlobals, mem_sortNames, List.mem_filter, ← known]
  simp

theorem increasing_deriveBrowserGlobals (browser runtime : List String) :
    (deriveBrowserGlobals browser runtime).Pairwise (· < ·) :=
  increasing_sortNames _

/-- What is known depends on the lower-case forms of the names of the server. -/
theorem KnowsName.of_forms {runtime others : List String} {name : String}
    (among : ∀ form ∈ runtime.map lowercase, form ∈ others.map lowercase)
    (h : KnowsName runtime name) : KnowsName others name := by
  rcases h with ⟨other, declared | overlap, same⟩
  · rcases List.mem_map.1 (among _ (List.mem_map_of_mem declared)) with ⟨twin, mem, form⟩
    exact ⟨twin, .inl mem, form.trans same⟩
  · exact ⟨other, .inr overlap, same⟩

/-- Two derived lists are the same if they have the same names. -/
theorem deriveBrowserGlobals_eq_iff {browser runtime browser' runtime' : List String} :
    deriveBrowserGlobals browser' runtime' = deriveBrowserGlobals browser runtime ↔
      ∀ name, name ∈ browser' ∧ ¬KnowsName runtime' name ↔
        name ∈ browser ∧ ¬KnowsName runtime name := by
  simp only [← mem_deriveBrowserGlobals]
  refine ⟨fun same name => by rw [same], fun same => ?_⟩
  exact (increasing_deriveBrowserGlobals browser' runtime').eq_of_mem_iff
    (increasing_deriveBrowserGlobals browser runtime) same

/-- The derived list is the difference of the two lists up to letter case, in the order of bytes: a
name of the browser is in it unless its lower-case form is that of a name of the server or of one
that both have. So it depends on the names of the browser and the lower-case forms of those of the
server only, deriving it again changes nothing, and it grows with the names of the browser and
shrinks with those of the server. -/
theorem deriveBrowserGlobals_difference (browser runtime : List String) :
    (deriveBrowserGlobals browser runtime).Pairwise (fun a b => utf8Bytes a < utf8Bytes b) ∧
      (∀ name, name ∈ deriveBrowserGlobals browser runtime ↔
        name ∈ browser ∧ (∀ other ∈ runtime, lowercase name ≠ lowercase other) ∧
          ∀ other ∈ runtimeOverlap, lowercase name ≠ lowercase other) ∧
      (∀ browser' runtime', (∀ name, name ∈ browser' ↔ name ∈ browser) →
        (∀ form, form ∈ runtime'.map lowercase ↔ form ∈ runtime.map lowercase) →
        deriveBrowserGlobals browser' runtime' = deriveBrowserGlobals browser runtime) ∧
      deriveBrowserGlobals (deriveBrowserGlobals browser runtime) runtime =
        deriveBrowserGlobals browser runtime ∧
      (∀ browser', browser ⊆ browser' →
        deriveBrowserGlobals browser runtime ⊆ deriveBrowserGlobals browser' runtime) ∧
      ∀ runtime', runtime ⊆ runtime' →
        deriveBrowserGlobals browser runtime' ⊆ deriveBrowserGlobals browser runtime := by
  refine ⟨?_, ?_, ?_, ?_, ?_, ?_⟩
  · exact (increasing_deriveBrowserGlobals browser runtime).imp utf8Bytes_lt_iff.2
  · intro name
    rw [mem_deriveBrowserGlobals]
    refine and_congr_right fun _ => ?_
    constructor
    · intro unknown
      exact ⟨fun other mem same => unknown ⟨other, .inl mem, same.symm⟩,
        fun other mem same => unknown ⟨other, .inr mem, same.symm⟩⟩
    · rintro ⟨undeclared, apart⟩ ⟨other, declared | overlap, same⟩
      · exact undeclared other declared same.symm
      · exact apart other overlap same.symm
  · intro browser' runtime' names forms
    rw [deriveBrowserGlobals_eq_iff]
    intro name
    have known : KnowsName runtime' name ↔ KnowsName runtime name :=
      ⟨.of_forms fun form => (forms form).1, .of_forms fun form => (forms form).2⟩
    rw [names, known]
  · rw [deriveBrowserGlobals_eq_iff]
    intro name
    rw [mem_deriveBrowserGlobals, and_assoc, and_self]
  · intro browser' among name derived
    rw [mem_deriveBrowserGlobals] at derived ⊢
    exact ⟨among derived.1, derived.2⟩
  · intro runtime' among name derived
    rw [mem_deriveBrowserGlobals] at derived ⊢
    -- what is known of fewer names is known of more
    refine ⟨derived.1, fun known => derived.2 (known.of_forms ?_)⟩
    intro form mem
    rcases List.mem_map.1 mem with ⟨other, declared, rfl⟩
    exact List.mem_map_of_mem (among declared)

end Rules
end ClientBoundary
