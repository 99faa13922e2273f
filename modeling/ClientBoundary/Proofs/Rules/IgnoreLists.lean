import ClientBoundary.Proofs.Rules.Independence

/-!
# Lists of globs

The globs of a list are compiled one after the other, up to the first that is none. A list ignores
the files that one of its globs ignores, so a longer list takes findings of its rule away and leaves
those of other rules.

- `IgnoreMatcher.ofPatterns_eq_error_iff`, `IgnoreMatcher.compiles_iff`: whether a list compiles,
  told by its globs alone;
- `IgnoreMatcher.someIgnores`: whether some glob of a list ignores a path;
- `Config.isActive_set_ignoring`: for which files a rule with a list of globs is on;
- `ignoring_union`: two lists put together, other orders, and longer lists.
-/

namespace ClientBoundary
namespace Rules

open Script (Program)

/-- The fault of a result that is none. -/
def fault? {ε α : Type} : Except ε α → Option ε
  | .ok _ => none
  | .error e => some e

@[simp] theorem fault?_eq_some {ε α : Type} {x : Except ε α} {e : ε} :
    fault? x = some e ↔ x = .error e := by
  cases x <;> simp [fault?]

@[simp] theorem fault?_eq_none {ε α : Type} {x : Except ε α} :
    fault? x = none ↔ ∃ a, x = .ok a := by
  cases x <;> simp [fault?]

namespace IgnoreMatcher

/-! ## Compiling a list -/

/-- The fault of a list is the first fault of its members. -/
theorem fault?_ofPatterns (patterns : List String) :
    fault? (ofPatterns patterns) = patterns.findSome? fun p => fault? (ofPatterns [p]) := by
  have whole (ps : List String) : fault? (ofPatterns ps) = fault? (compileAll ps) := by
    cases compiled : compileAll ps <;> simp [ofPatterns, compiled, fault?]
  rw [whole]
  -- along the list: what stands behind a fault is not looked at
  induction patterns with
  | nil => rfl
  | cons p more ih =>
      rw [List.findSome?_cons, ← ih]
      cases head : compile p with
      | error e => simp [ofPatterns, compileAll, head, fault?]
      | ok g => cases rest : compileAll more <;> simp [ofPatterns, compileAll, head, rest, fault?]

/-- A list fails with the first of its members that fails alone. -/
theorem ofPatterns_eq_error_iff {patterns : List String} {e : Failure} :
    ofPatterns patterns = .error e ↔
      ∃ before p after, patterns = before ++ p :: after ∧
        (∀ q ∈ before, ∃ m, ofPatterns [q] = .ok m) ∧ ofPatterns [p] = .error e := by
  rw [← fault?_eq_some, fault?_ofPatterns, List.findSome?_eq_some_iff]
  simp only [fault?_eq_some, fault?_eq_none, and_comm (a := ofPatterns [_] = _)]

/-- The globs of a list compile. -/
def Compiles (patterns : List String) : Prop :=
  ∃ m, ofPatterns patterns = .ok m

/-- A list compiles if and only if each of its members does. -/
theorem compiles_iff {patterns : List String} :
    Compiles patterns ↔ ∀ p ∈ patterns, Compiles [p] := by
  rw [Compiles, ← fault?_eq_none, fault?_ofPatterns, List.findSome?_eq_none_iff]
  simp only [fault?_eq_none, Compiles]

/-- A glob fails with its own text as it was given. -/
theorem exists_badGlob {p : String} {e : Failure} (failed : ofPatterns [p] = .error e) :
    ∃ fault, e = .badGlob p fault := by
  cases parsed : Glob.parse (stripDotSlash p).toList with
  | ok tokens => simp [ofPatterns, compileAll, compile, parsed] at failed
  | error fault =>
      exact ⟨fault, by simpa [ofPatterns, compileAll, compile, parsed, eq_comm] using failed⟩

/-! ## Matching a list -/

/-- Whether some glob of a list, compiled alone, ignores a path. -/
def someIgnores (patterns : List String) (text : String) : Bool :=
  patterns.any fun p => (ofPatterns [p]).toOption.any fun m => m.ignores text

theorem someIgnores_iff {patterns : List String} {text : String} :
    someIgnores patterns text = true ↔
      ∃ p ∈ patterns, ∃ m, ofPatterns [p] = .ok m ∧ m.ignores text = true := by
  rw [someIgnores, List.any_eq_true]
  refine exists_congr fun p => and_congr_right fun _ => ?_
  cases ofPatterns [p] <;> simp [Except.toOption]

theorem someIgnores_append (ps qs : List String) (text : String) :
    someIgnores (ps ++ qs) text = (someIgnores ps text || someIgnores qs text) :=
  List.any_append

/-- A longer list ignores no less. -/
theorem someIgnores_of_subset {ps qs : List String} (more : ps ⊆ qs) {text : String}
    (ignored : someIgnores ps text = true) : someIgnores qs text = true := by
  rcases someIgnores_iff.1 ignored with ⟨p, mem, found⟩
  exact someIgnores_iff.2 ⟨p, more mem, found⟩

/-- A compiled list ignores what its members ignore. -/
theorem ignores_eq_someIgnores {patterns : List String} {m : IgnoreMatcher}
    (compiled : ofPatterns patterns = .ok m) (text : String) :
    m.ignores text = someIgnores patterns text := by
  induction patterns generalizing m with
  | nil =>
      have none_ : IgnoreMatcher.empty = m := Except.ok.inj compiled
      simp [← none_, empty, ignores, someIgnores]
  | cons p more ih =>
      cases head : compile p with
      | error e => simp [ofPatterns, compileAll, head] at compiled
      | ok g =>
          cases rest : compileAll more with
          | error e => simp [ofPatterns, compileAll, head, rest] at compiled
          | ok gs =>
              have whole : (⟨g :: gs⟩ : IgnoreMatcher) = m := by
                simpa [ofPatterns, compileAll, head, rest] using compiled
              have behind : ignores ⟨gs⟩ text = someIgnores more text :=
                ih (by simp [ofPatterns, rest])
              have first : ignores ⟨[g]⟩ text = someIgnores [p] text := by
                simp [someIgnores, ofPatterns, compileAll, head, Except.toOption]
              calc m.ignores text
                  = (ignores ⟨[g]⟩ text || ignores ⟨gs⟩ text) := by
                      simp [← whole, ignores, Bool.and_or_distrib_left]
                _ = (someIgnores [p] text || someIgnores more text) := by rw [first, behind]
                _ = someIgnores (p :: more) text := (someIgnores_append [p] more text).symm

end IgnoreMatcher

open IgnoreMatcher (Compiles ofPatterns someIgnores)

/-! ## Rules with lists of globs -/

namespace Config

/-- A rule takes every list that compiles. -/
theorem exists_set_ignoring (c : Config) (r : Rule) {patterns : List String}
    (compiles : Compiles patterns) :
    ∃ d, c.set r.name (.ignoring patterns) = .ok d := by
  rcases compiles with ⟨m, compiled⟩
  exact ⟨_, set_name compiled⟩

section Ignoring

variable {c d : Config} {r : Rule} {patterns : List String}
  (turned : c.set r.name (.ignoring patterns) = .ok d)

include turned

/-- With a list of globs a rule is on for the files that none of them ignores. -/
theorem isActive_set_ignoring (path : String) (q : Rule) :
    d.isActive path q =
      if q = r then !someIgnores patterns (Path.relative c.root path) else c.isActive path q := by
  rcases set_eq_ok_iff.1 turned with ⟨-, ignore, -, compiled, rfl⟩
  have root : (c.put r.name ⟨.ignoring patterns, ignore⟩).root = c.root := rfl
  rw [isActive, settings_put, root]
  by_cases here : q = r
  · have verdict : ignore.ignores (Path.relative c.root path) =
        someIgnores patterns (Path.relative c.root path) :=
      IgnoreMatcher.ignores_eq_someIgnores compiled _
    simp [here, verdict]
  · simp [isActive, here]

/-- What is found of the rule, and of the others. -/
theorem findingsOf_set_ignoring (path source : String) (program : Program) (q : Rule) :
    findingsOf q (d.lintProgram path source program) =
      if q = r then
        if someIgnores patterns (Path.relative c.root path) then []
        else (r.outcome (.of path source program) program).toList
      else findingsOf q (c.lintProgram path source program) := by
  rw [findingsOf_lintProgram, findingsOf_lintProgram, lintProgram_only, lintProgram_only,
    isActive_set_ignoring turned]
  by_cases here : q = r
  · cases someIgnores patterns (Path.relative c.root path) <;> simp [here]
  · simp [here]

/-- The rule reports where it has something to report and none of its globs ignores the file. -/
theorem findingsOf_ne_nil_iff (path source : String) (program : Program) :
    findingsOf r (d.lintProgram path source program) ≠ [] ↔
      r.outcome (.of path source program) program ≠ none ∧
        ∀ p ∈ patterns, ∀ m, ofPatterns [p] = .ok m →
          m.ignores (Path.relative c.root path) = false := by
  have bare : someIgnores patterns (Path.relative c.root path) = false ↔
      ∀ p ∈ patterns, ∀ m, ofPatterns [p] = .ok m →
        m.ignores (Path.relative c.root path) = false := by
    rw [← Bool.not_eq_true, IgnoreMatcher.someIgnores_iff]
    simp
  rw [findingsOf_set_ignoring turned, if_pos rfl, ← bare]
  cases someIgnores patterns (Path.relative c.root path) <;>
    cases r.outcome (.of path source program) program <;> simp

end Ignoring

theorem lint_of_parse? {path source : String} {program : Program}
    (read : Program.parse? (.ofPath path) source = some program) (c : Config) :
    c.lint path source = .ok (c.lintProgram path source program) := by
  rw [lint, read]

section Lists

variable {c dp dq : Config} {r : Rule} {ps qs : List String}
  (left : c.set r.name (.ignoring ps) = .ok dp) (right : c.set r.name (.ignoring qs) = .ok dq)

include left right

/-- With two lists together a rule reports what it reports with both of them. -/
theorem findingsOf_append {both : Config}
    (whole : c.set r.name (.ignoring (ps ++ qs)) = .ok both) (path source : String)
    (program : Program) :
    (findingsOf r (both.lintProgram path source program) ≠ [] ↔
      findingsOf r (dp.lintProgram path source program) ≠ [] ∧
        findingsOf r (dq.lintProgram path source program) ≠ []) ∧
      (findingsOf r (both.lintProgram path source program) ≠ [] →
        ∃ f, findingsOf r (both.lintProgram path source program) = [f] ∧
          findingsOf r (dp.lintProgram path source program) = [f] ∧
          findingsOf r (dq.lintProgram path source program) = [f]) := by
  rw [findingsOf_set_ignoring left, findingsOf_set_ignoring right, findingsOf_set_ignoring whole,
    IgnoreMatcher.someIgnores_append]
  -- whether each list ignores the file, and whether there is something to report
  cases someIgnores ps (Path.relative c.root path) <;>
    cases someIgnores qs (Path.relative c.root path) <;>
    cases r.outcome (.of path source program) program <;> simp

/-- Lists with the same members, in any order and however often, are the same to a rule. -/
theorem lint_eq_of_members (same : ∀ p, p ∈ ps ↔ p ∈ qs) (path source : String) :
    dp.lint path source = dq.lint path source := by
  have verdict : someIgnores ps (Path.relative c.root path) =
      someIgnores qs (Path.relative c.root path) := by
    rw [Bool.eq_iff_iff]
    exact ⟨IgnoreMatcher.someIgnores_of_subset fun p => (same p).1,
      IgnoreMatcher.someIgnores_of_subset fun p => (same p).2⟩
  have active (q : Rule) : dp.isActive path q = dq.isActive path q := by
    rw [isActive_set_ignoring left, isActive_set_ignoring right, verdict]
  cases read : Program.parse? (.ofPath path) source with
  | none => simp [lint, read]
  | some program =>
      have equal : dp.lintProgram path source program = dq.lintProgram path source program :=
        lintProgram_eq_iff.2 fun q _ => active q
      rw [lint_of_parse? read, lint_of_parse? read, equal]

/-- With more globs a rule reports no more, and other rules report what they did. -/
theorem findingsOf_longer (more : ps ⊆ qs) (path source : String) (program : Program) :
    findingsOf r (dq.lintProgram path source program) ⊆
        findingsOf r (dp.lintProgram path source program) ∧
      ∀ q, q ≠ r → findingsOf q (dq.lintProgram path source program) =
        findingsOf q (dp.lintProgram path source program) := by
  constructor
  · rw [findingsOf_set_ignoring left, findingsOf_set_ignoring right, if_pos rfl, if_pos rfl]
    cases ignored : someIgnores ps (Path.relative c.root path) with
    | false => cases someIgnores qs (Path.relative c.root path) <;> simp
    | true => simp [IgnoreMatcher.someIgnores_of_subset more ignored]
  · intro q other
    rw [findingsOf_set_ignoring left, findingsOf_set_ignoring right, if_neg other, if_neg other]

end Lists

end Config

/-- The lists of globs of a rule, whatever else is on.

A list fails to compile if and only if one of its globs fails alone, and then with the first that
does. The rule reports where it has something to report and none of its globs ignores the file. So
with two lists together it reports where it reports with each of them, and reports the same, and no
more than once. Lists with the same members are the same to it. With more globs it reports no more,
and what is found of other rules stays. -/
theorem ignoring_union (c : Config) (r : Rule) :
    (∀ ps, (∃ e, ofPatterns ps = .error e) ↔ ∃ p ∈ ps, ∃ e, ofPatterns [p] = .error e) ∧
    (∀ ps e, ofPatterns ps = .error e ↔
      ∃ before p after fault, ps = before ++ p :: after ∧ (∀ q ∈ before, Compiles [q]) ∧
        ofPatterns [p] = .error e ∧ e = .badGlob p fault) ∧
    (∀ ps, Compiles ps → ∃ d, c.set r.name (.ignoring ps) = .ok d ∧
      ∀ path source program, Program.parse? (.ofPath path) source = some program →
        ∃ xs, d.lint path source = .ok xs ∧
          (findingsOf r xs ≠ [] ↔ r.outcome (.of path source program) program ≠ none ∧
            ∀ p ∈ ps, ∀ m, ofPatterns [p] = .ok m →
              m.ignores (Path.relative c.root path) = false)) ∧
    (∀ ps qs, Compiles ps → Compiles qs →
      ∃ dp dq both, c.set r.name (.ignoring ps) = .ok dp ∧ c.set r.name (.ignoring qs) = .ok dq ∧
        c.set r.name (.ignoring (ps ++ qs)) = .ok both ∧
        ∀ path source program, Program.parse? (.ofPath path) source = some program →
          ∃ xs ys zs, dp.lint path source = .ok xs ∧ dq.lint path source = .ok ys ∧
            both.lint path source = .ok zs ∧
            (findingsOf r zs ≠ [] ↔ findingsOf r xs ≠ [] ∧ findingsOf r ys ≠ []) ∧
            (findingsOf r zs ≠ [] → ∃ f, findingsOf r zs = [f] ∧ findingsOf r xs = [f] ∧
              findingsOf r ys = [f])) ∧
    (∀ ps qs, Compiles ps → (∀ p, p ∈ ps ↔ p ∈ qs) →
      ∃ dp dq, c.set r.name (.ignoring ps) = .ok dp ∧ c.set r.name (.ignoring qs) = .ok dq ∧
        ∀ path source, dp.lint path source = dq.lint path source) ∧
    ∀ ps qs, Compiles qs → ps ⊆ qs →
      ∃ dp dq, c.set r.name (.ignoring ps) = .ok dp ∧ c.set r.name (.ignoring qs) = .ok dq ∧
        ∀ path source program, Program.parse? (.ofPath path) source = some program →
          ∃ xs ys, dp.lint path source = .ok xs ∧ dq.lint path source = .ok ys ∧
            findingsOf r ys ⊆ findingsOf r xs ∧
            ∀ q, q ≠ r → findingsOf q ys = findingsOf q xs := by
  refine ⟨?_, ?_, ?_, ?_, ?_, ?_⟩
  · intro ps
    constructor
    · rintro ⟨e, failed⟩
      rcases IgnoreMatcher.ofPatterns_eq_error_iff.1 failed with ⟨before, p, after, rfl, -, alone⟩
      exact ⟨p, by simp, e, alone⟩
    · rintro ⟨p, mem, e, alone⟩
      cases result : ofPatterns ps with
      | error e' => exact ⟨e', rfl⟩
      | ok m =>
          rcases IgnoreMatcher.compiles_iff.1 ⟨m, result⟩ p mem with ⟨m', compiled⟩
          cases compiled.symm.trans alone
  · intro ps e
    rw [IgnoreMatcher.ofPatterns_eq_error_iff]
    constructor
    · rintro ⟨before, p, after, shape, compiled, failed⟩
      rcases IgnoreMatcher.exists_badGlob failed with ⟨fault, same⟩
      exact ⟨before, p, after, fault, shape, compiled, failed, same⟩
    · rintro ⟨before, p, after, fault, shape, compiled, failed, -⟩
      exact ⟨before, p, after, shape, compiled, failed⟩
  · intro ps compiles
    rcases c.exists_set_ignoring r compiles with ⟨d, turned⟩
    refine ⟨d, turned, ?_⟩
    intro path source program read
    exact ⟨_, Config.lint_of_parse? read d, Config.findingsOf_ne_nil_iff turned path source program⟩
  · intro ps qs compiles compiles'
    have together : Compiles (ps ++ qs) := IgnoreMatcher.compiles_iff.2 fun p mem =>
      (List.mem_append.1 mem).elim (IgnoreMatcher.compiles_iff.1 compiles p)
        (IgnoreMatcher.compiles_iff.1 compiles' p)
    rcases c.exists_set_ignoring r compiles with ⟨dp, left⟩
    rcases c.exists_set_ignoring r compiles' with ⟨dq, right⟩
    rcases c.exists_set_ignoring r together with ⟨both, whole⟩
    refine ⟨dp, dq, both, left, right, whole, ?_⟩
    intro path source program read
    exact ⟨_, _, _, Config.lint_of_parse? read dp, Config.lint_of_parse? read dq,
      Config.lint_of_parse? read both,
      Config.findingsOf_append left right whole path source program⟩
  · intro ps qs compiles same
    have compiles' : Compiles qs := IgnoreMatcher.compiles_iff.2 fun p mem =>
      IgnoreMatcher.compiles_iff.1 compiles p ((same p).2 mem)
    rcases c.exists_set_ignoring r compiles with ⟨dp, left⟩
    rcases c.exists_set_ignoring r compiles' with ⟨dq, right⟩
    exact ⟨dp, dq, left, right, Config.lint_eq_of_members left right same⟩
  · intro ps qs compiles more
    have compiles' : Compiles ps := IgnoreMatcher.compiles_iff.2 fun p mem =>
      IgnoreMatcher.compiles_iff.1 compiles p (more mem)
    rcases c.exists_set_ignoring r compiles' with ⟨dp, left⟩
    rcases c.exists_set_ignoring r compiles with ⟨dq, right⟩
    refine ⟨dp, dq, left, right, ?_⟩
    intro path source program read
    exact ⟨_, _, Config.lint_of_parse? read dp, Config.lint_of_parse? read dq,
      Config.findingsOf_longer left right more path source program⟩

/-- A file that neither of two globs ignores, one that the second ignores, and a list in which two
globs fail. -/
theorem ignoring_union_legacy :
    ∃ dp dq both, (Config.new "p").set "browser-api" (.ignoring ["legacy/**"]) = .ok dp ∧
      (Config.new "p").set "browser-api" (.ignoring ["*.tsx"]) = .ok dq ∧
      (Config.new "p").set "browser-api" (.ignoring ["legacy/**", "*.tsx"]) = .ok both ∧
      (∃ f, (both.lint "p/src/a.tsx" "window.x").map (findingsOf .browserApi) = .ok [f]) ∧
      (both.lint "p/a.tsx" "window.x").map (findingsOf .browserApi) = .ok [] ∧
      ∃ fault, ofPatterns ["*.tsx", "[", "\x7b"] = .error (.badGlob "[" fault) := by
  let found (path : String) (d : Config) : Option Nat :=
    (d.lint path "window.x").toOption.map fun findings => (findingsOf .browserApi findings).length
  let turned (pattern : String) : Option Config :=
    ((Config.new "p").set "browser-api" (.ignoring [pattern])).toOption
  have runs : (turned "legacy/**").bind (found "p/src/a.tsx") = some 1 ∧
      (turned "*.tsx").bind (found "p/src/a.tsx") = some 1 ∧
      (turned "*.tsx").bind (found "p/a.tsx") = some 0 := by
    decide +kernel
  have globs : Compiles ["legacy/**"] ∧ Compiles ["*.tsx"] ∧
      (ofPatterns ["["]).toOption.isSome = false := by
    have compiled : (ofPatterns ["legacy/**"]).toOption.isSome ∧
        (ofPatterns ["*.tsx"]).toOption.isSome ∧ (ofPatterns ["["]).toOption.isSome = false := by
      decide +kernel
    have ok {p : String} (h : (ofPatterns [p]).toOption.isSome = true) : Compiles [p] := by
      cases result : ofPatterns [p] with
      | ok m => exact ⟨m, result⟩
      | error e => simp [result, Except.toOption] at h
    exact ⟨ok compiled.1, ok compiled.2.1, compiled.2.2⟩
  rcases ignoring_union (Config.new "p") .browserApi with ⟨-, first, -, union, -, -⟩
  rcases union ["legacy/**"] ["*.tsx"] globs.1 globs.2.1 with
    ⟨dp, dq, both, left, right, whole, each⟩
  have here : found "p/src/a.tsx" dp = some 1 ∧ found "p/src/a.tsx" dq = some 1 ∧
      found "p/a.tsx" dq = some 0 := by
    have left' : turned "legacy/**" = some dp := congrArg Except.toOption left
    have right' : turned "*.tsx" = some dq := congrArg Except.toOption right
    simpa [left', right'] using runs
  -- what a configuration finds in a file that is read
  have reading {path : String} {n : Nat} (h : found path dq = some n) :
      ∃ program, Program.parse? (.ofPath path) "window.x" = some program := by
    cases read : Program.parse? (.ofPath path) "window.x" with
    | none => simp [found, Config.lint, read, Except.toOption] at h
    | some program => exact ⟨program, rfl⟩
  refine ⟨dp, dq, both, left, right, whole, ?_, ?_, ?_⟩
  · rcases reading here.2.1 with ⟨program, read⟩
    rcases each _ _ program read with ⟨xs, ys, zs, lint, lint', lint'', iff, same⟩
    have filled : findingsOf .browserApi xs ≠ [] ∧ findingsOf .browserApi ys ≠ [] := by
      have one := here.1
      have one' := here.2.1
      simp only [found, lint, lint', Except.toOption, Option.map_some,
        Option.some.injEq] at one one'
      exact ⟨List.ne_nil_of_length_pos (by omega), List.ne_nil_of_length_pos (by omega)⟩
    rcases same (iff.2 filled) with ⟨f, alone, -⟩
    exact ⟨f, by rw [lint'', Except.map, alone]⟩
  · rcases reading here.2.2 with ⟨program, read⟩
    rcases each _ _ program read with ⟨xs, ys, zs, lint, lint', lint'', iff, same⟩
    have empty : findingsOf .browserApi ys = [] := by
      have none_ := here.2.2
      simpa [found, lint', Except.toOption] using none_
    have silent : findingsOf .browserApi zs = [] := by
      by_contra filled
      exact (iff.1 filled).2 empty
    rw [lint'', Except.map, silent]
  · cases failed : ofPatterns ["["] with
    | ok m => simp [failed, Except.toOption] at globs
    | error e =>
        rcases IgnoreMatcher.exists_badGlob failed with ⟨fault, rfl⟩
        exact ⟨fault, (first _ _).2 ⟨["*.tsx"], "[", ["\x7b"], fault, rfl, by simpa using globs.2.1,
          failed, rfl⟩⟩

end Rules
end ClientBoundary
