import ClientBoundary.Proofs.Rules.Findings

/-!
# One round of fixing

Every finding of a file asks for the same line at the same place, the start of the first directive
or statement. The line is a directive of its own only in front of a token that does not go on with
it.

- `StandsAlone`: the line is a statement of its own in front of a program;
- `lint_insertAll_fixes_iff`: when a file is clean after one round of fixing.
-/

namespace ClientBoundary
namespace Text

/-! ## Insertions at one place -/

theorem insertSorted_again {position offset : Nat} {rest : List Char} {insertions : List Insertion}
    (h : ∀ i ∈ insertions, i.offset = offset) :
    insertSorted position (some offset) rest insertions = (rest, 0) := by
  induction insertions with
  | nil => rfl
  | cons i more ih =>
      have here : i.offset = offset := h i (by simp)
      rw [insertSorted, if_pos (by simp [here])]
      exact ih fun j hj => h j (List.mem_cons_of_mem i hj)

/-- Of equal insertions one takes place. -/
theorem insertAll_of_same {before after : List Char} {i : Insertion} {insertions : List Insertion}
    (some_ : insertions ≠ []) (same : ∀ j ∈ insertions, j = i)
    (offset : i.offset = byteLength before) :
    insertAll (String.ofList (before ++ after)) insertions =
      (String.ofList (before ++ i.text.toList ++ after), 1) := by
  have inside : insertions.filter (·.offset ≤ byteLength (before ++ after)) = insertions := by
    rw [List.filter_eq_self]
    intro j hj
    simp [same j hj, offset]
  have sorted : ∀ j ∈ byOffset (byteLength (before ++ after)) insertions, j = i := by
    intro j hj
    rw [byOffset, inside, List.mem_mergeSort] at hj
    exact same j hj
  cases list : byOffset (byteLength (before ++ after)) insertions with
  | nil =>
      have size := congrArg List.length list
      rw [byOffset, inside, List.length_mergeSort] at size
      exact absurd (List.eq_nil_of_length_eq_zero size) some_
  | cons j more =>
      rw [list] at sorted
      obtain rfl : j = i := sorted j (by simp)
      have others : ∀ k ∈ more, k.offset = j.offset := by
        intro k hk
        rw [sorted k (List.mem_cons_of_mem j hk)]
      -- the first insertion takes place, and the others are at the offset of one that did
      rw [insertAll, String.toList_ofList, list, insertSorted, if_neg (by simp), offset,
        Nat.sub_zero, splitAtByte?_append, ← offset]
      simp [insertSorted_again others]

end Text

namespace Rules

open Script (Lexeme Program Language)
open Script.Program (TopLevel NoString firstLexeme? allStatements? ofStatements stringLine)
open Text (byteLength)

/-! ## What findings ask for -/

theorem mem_fixes {c : Config} {path source : String} {program : Program} {i : Text.Insertion}
    (h : i ∈ Config.fixes (c.lintProgram path source program)) :
    i = insertUseClient program.start := by
  rcases List.mem_filterMap.1 h with ⟨f, hf, fix⟩
  rw [(mem_lintProgram hf).2.2] at fix
  exact (Option.some.inj fix).symm

theorem fixes_ne_nil {c : Config} {path source : String} {program : Program}
    (h : c.lintProgram path source program ≠ []) :
    Config.fixes (c.lintProgram path source program) ≠ [] := by
  rcases List.exists_mem_of_ne_nil _ h with ⟨f, hf⟩
  refine List.ne_nil_of_mem (a := insertUseClient program.start) ?_
  exact List.mem_filterMap.2 ⟨f, hf, (mem_lintProgram hf).2.2⟩

/-! ## Programs with and without a directive -/

/-- With a directive in front nothing is reported. -/
theorem lintProgram_of_directive {c : Config} {path source : String} {text : List Char}
    {s : TopLevel} {more : List TopLevel} (node : s.node = .statement (.string "use client")) :
    c.lintProgram path source (ofStatements text (s :: more)) = [] := by
  have value : s.stringValue? = some "use client" := by
    simp [TopLevel.stringValue?, node]
  refine runAll_of_any ?_ _ _
  simp [scanDirectives, leadingStrings, ofStatements, value, DirectiveState.ofStrings,
    DirectiveState.ofString, DirectiveState.any]

theorem statementString?_of_noString {n : Script.Node} (h : NoString n) :
    statementString? n = none := by
  cases n with
  | statement e =>
      have strange := h e rfl
      rw [statementString?]
      split
      · rename_i value string
        exact absurd ⟨value, string⟩ strange
      · rfl
  | _ => rfl

/-- A program whose first statement is no string has no directive. -/
theorem bare_of_noString {text : List Char} {s : TopLevel} {more : List TopLevel}
    (h : NoString s.node) : Bare (ofStatements text (s :: more)) := by
  have value : s.stringValue? = none := by
    unfold TopLevel.stringValue?
    split
    · rename_i string node
      exact absurd ⟨string, rfl⟩ (h _ node)
    · rfl
  intro v mem
  simp [leadingStrings, ofStatements, value, Program.parts, leadingStatements,
    statementString?_of_noString h] at mem

theorem allCauses_of_lintProgram {c : Config} {path source : String} {program : Program}
    (bare : Bare program) (clean : c.lintProgram path source program = []) :
    ∀ r ∈ c.activeRules path, r.allCauses program = [] := by
  intro r active
  by_contra some_
  have found : r.report (.of path source program) (r.allCauses program) ∈
      c.lintProgram path source program :=
    (mem_runAll_of_bare bare.scan).2 ⟨r, active, some_, rfl⟩
  simp [clean] at found

/-! ## The line in front of a program -/

/-- The line for the directive is a statement of its own in front of a program: the file is not too
long for it, the program starts with its first token, and that token does not go on with a string
on the line before it. -/
structure StandsAlone (source : String) (program : Program) : Prop where
  room : byteLength source.toList + byteLength useClientLine.toList ≤ Script.maxLength
  first : ∃ l, firstLexeme? source.toList = some l ∧ l.token.continues = false ∧
    program.start + byteLength l.text = byteLength source.toList

theorem useClientLine_eq : useClientLine.toList = stringLine "use client".toList := by
  decide

theorem verbatim_use_client :
    ∀ c ∈ "use client".toList, Script.isVerbatim '\x27' c = true := by
  simp [Script.isVerbatim]

/-- Where there are findings, the line is inserted once, where the program starts. -/
theorem insertAll_fixes_eq {c : Config} {path source : String} {program : Program}
    {before after : List Char} (text : source.toList = before ++ after)
    (start : program.start = byteLength before)
    (found : c.lintProgram path source program ≠ []) :
    Text.insertAll source (Config.fixes (c.lintProgram path source program)) =
      (String.ofList (before ++ useClientLine.toList ++ after), 1) := by
  have whole : source = String.ofList (before ++ after) := by
    rw [← text, String.ofList_toList]
  have same : ∀ i ∈ Config.fixes (c.lintProgram path source program),
      i = insertUseClient program.start := fun i => mem_fixes
  have once : Text.insertAll (String.ofList (before ++ after)) _ = _ :=
    Text.insertAll_of_same (fixes_ne_nil found) same start
  rw [← whole] at once
  rw [once, insertUseClient]

theorem insertAll_fixes {c : Config} {path source : String} {program : Program}
    {before after : List Char} (text : source.toList = before ++ after)
    (start : program.start = byteLength before)
    (found : c.lintProgram path source program ≠ []) :
    (Text.insertAll source (Config.fixes (c.lintProgram path source program))).1.toList =
      before ++ stringLine "use client".toList ++ after := by
  rw [insertAll_fixes_eq text start found, String.toList_ofList, useClientLine_eq]

section Round

variable {c : Config} {path source : String} {s : TopLevel} {more : List TopLevel} {l : Lexeme}
  {before decorators : List Char}
  (statements : allStatements? (.ofPath path) source.toList = some (s :: more))
  (first : firstLexeme? source.toList = some l) (going : l.token ≠ .eof)
  (shape : source.toList = before ++ l.text) (behind : l.text = decorators ++ s.text)
  (found : c.lintProgram path source (ofStatements source.toList (s :: more)) ≠ [])

include shape behind

theorem start_eq :
    (ofStatements source.toList (s :: more)).start = byteLength (before ++ decorators) := by
  rw [ofStatements_start, shape, behind]
  simp only [Text.byteLength_append]
  omega

include found

theorem next_eq :
    (Text.insertAll source (Config.fixes
      (c.lintProgram path source (ofStatements source.toList (s :: more))))).1.toList =
        before ++ decorators ++ stringLine "use client".toList ++ s.text := by
  have text : source.toList = before ++ decorators ++ s.text := by
    rw [List.append_assoc, ← behind, shape]
  exact insertAll_fixes text (start_eq shape behind) found

include first going

/-- Where the line does not stand alone, the file has no directive. -/
theorem bare_of_not_standsAlone {program : Program}
    (place : decorators = [] ∨ l.token = .punctuator "@")
    (alone : ¬ StandsAlone source (ofStatements source.toList (s :: more)))
    (read : Program.parse? (.ofPath path) (Text.insertAll source (Config.fixes
      (c.lintProgram path source (ofStatements source.toList (s :: more))))).1 = some program) :
    Bare program := by
  have next := next_eq shape behind found
  rcases parse?_eq_some.1 read with ⟨room, ss, parsed, rfl⟩
  rw [next] at room parsed ⊢
  cases ss with
  | nil =>
      intro value mem
      simp [leadingStrings, ofStatements, Program.parts, leadingStatements] at mem
  | cons t others =>
      refine bare_of_noString ?_
      by_cases plain : decorators = []
      · -- the length is no reason, as the longer file was read, so it is the token
        subst plain
        have continued : l.token.continues = true := by
          by_contra detached
          refine alone ⟨?_, l, first, by simpa using detached, ?_⟩
          · rw [shape, behind, useClientLine_eq]
            simp only [Text.byteLength_append] at room ⊢
            omega
          · rw [start_eq shape behind, shape]
            simp only [Text.byteLength_append, List.append_nil]
        rw [shape] at first
        rw [List.append_nil, ← List.nil_append s.text, ← behind] at parsed
        exact Program.noString_of_continued first going continued verbatim_use_client parsed
      · rw [shape] at first
        rw [List.append_assoc] at parsed
        exact Program.noString_of_decorated first (place.resolve_left plain) behind plain parsed

include statements

/-- Where the line stands alone, it is a directive. -/
theorem lint_of_standsAlone
    (alone : StandsAlone source (ofStatements source.toList (s :: more))) :
    c.lint path (Text.insertAll source (Config.fixes
      (c.lintProgram path source (ofStatements source.toList (s :: more))))).1 = .ok [] := by
  rcases alone with ⟨room, l', first', detached, start⟩
  rcases Option.some.inj (first.symm.trans first') with rfl
  -- the program starts with its first token, so there are no decorators before it
  obtain rfl : decorators = [] := by
    refine Text.byteLength_eq_zero ?_
    rw [start_eq shape behind, shape] at start
    simp only [Text.byteLength_append] at start
    omega
  have next := next_eq shape behind found
  rw [List.append_nil, ← List.nil_append s.text, ← behind] at next
  rw [shape] at first statements
  have read : allStatements? (.ofPath path)
      (before ++ stringLine "use client".toList ++ l.text) = _ :=
    Program.allStatements?_stringLine first going detached verbatim_use_client
  rw [statements, Option.map_some, ← next] at read
  refine lint_eq_ok_iff.2 ⟨_, parse?_eq_some.2 ⟨?_, _, read, rfl⟩, ?_⟩
  · rw [next]
    rw [shape, useClientLine_eq] at room
    simp only [Text.byteLength_append] at room ⊢
    omega
  · exact lintProgram_of_directive rfl

end Round

/-- A file in which something is found is clean after one round of fixing if and only if the line
for the directive stands alone in front of it, or happens to leave no active rule a cause. -/
theorem lint_insertAll_fixes_iff (c : Config) (path source : String) (findings : List Finding)
    (linted : c.lint path source = .ok findings) :
    c.lint path (Text.insertAll source (Config.fixes findings)).1 = .ok [] ↔
      findings = [] ∨
      (∃ program, Program.parse? (.ofPath path) source = some program ∧
        StandsAlone source program) ∨
      ∃ program,
        Program.parse? (.ofPath path) (Text.insertAll source (Config.fixes findings)).1 =
            some program ∧
          ∀ r ∈ c.activeRules path, r.allCauses program = [] := by
  by_cases none_ : findings = []
  · subst none_
    have unchanged : (Text.insertAll source (Config.fixes [])).1 = source := by
      simp [Text.insertAll, Config.fixes, Text.byOffset, Text.insertSorted]
    rw [unchanged]
    exact ⟨fun _ => .inl rfl, fun _ => linted⟩
  obtain ⟨program, read, rfl⟩ : ∃ program, Program.parse? (.ofPath path) source = some program ∧
      c.lintProgram path source program = findings := by
    rw [Config.lint] at linted
    split at linted
    · simp at linted
    · rename_i program read
      exact ⟨program, read, by simpa using linted⟩
  rcases exists_statements read none_ with ⟨-, s, more, statements, rfl⟩
  rcases exists_split statements with
    ⟨-, l, before, decorators, first, going, shape, behind, place⟩
  constructor
  · intro clean
    by_cases alone : StandsAlone source (ofStatements source.toList (s :: more))
    · exact .inr (.inl ⟨_, read, alone⟩)
    · rcases lint_eq_ok_iff.1 clean with ⟨program, next, clean⟩
      have bare := bare_of_not_standsAlone first going shape behind none_ place alone next
      exact .inr (.inr ⟨program, next, allCauses_of_lintProgram bare clean⟩)
  · rintro (nothing | ⟨program, again, alone⟩ | ⟨program, next, silent⟩)
    · exact absurd nothing none_
    · rcases Option.some.inj (read.symm.trans again) with rfl
      exact lint_of_standsAlone statements first going shape behind none_ alone
    · exact lint_eq_ok_iff.2 ⟨program, next, lintProgram_of_allCauses silent⟩

theorem lint_eq_of_toOption {c : Config} {path source : String} {findings : List Finding}
    (h : (c.lint path source).toOption = some findings) : c.lint path source = .ok findings := by
  cases linted : c.lint path source with
  | error e => simp [linted, Except.toOption] at h
  | ok found => simpa [linted, Except.toOption] using h

/-- The finding of a file that reads `window` at its very beginning. -/
def windowFinding : Finding where
  rule := "browser-api"
  message := missingDirective "browser api" "window"
  causes := ["window"]
  file := "/a.ts"
  location := ⟨1, 1⟩
  fix := some (insertUseClient 0)

/-- The line stands alone before a name, but not before a parenthesis. -/
theorem lint_insertAll_fixes_window :
    (Config.recommended "/").lint "/a.ts"
        (Text.insertAll "window.x" (Config.fixes [windowFinding])).1 = .ok [] ∧
      (Config.recommended "/").lint "/a.ts"
        (Text.insertAll "(window.x)" (Config.fixes [windowFinding])).1 ≠ .ok [] := by
  let c := Config.recommended "/"
  -- evaluated together, as looking up a browser global is what takes long
  have runs : (c.lint "/a.ts" "window.x").toOption = some [windowFinding] ∧
      (c.lint "/a.ts" "(window.x)").toOption = some [windowFinding] ∧
      (Program.parse? (.ofPath "/a.ts")
        (Text.insertAll "(window.x)" (Config.fixes [windowFinding])).1).map
          Rule.browserApi.allCauses = some ["window"] := by
    decide +kernel
  rcases runs with ⟨name, parenthesis, causes⟩
  replace name := lint_eq_of_toOption name
  replace parenthesis := lint_eq_of_toOption parenthesis
  have start : (Program.parse? (.ofPath "/a.ts") "window.x").map (·.start) = some 0 := by
    decide +kernel
  have token : (firstLexeme? "window.x".toList).map (fun l => (l.token, l.text)) =
      some (.name "window" false, "window.x".toList) := by
    decide +kernel
  have opening : (firstLexeme? "(window.x)".toList).map (·.token) = some (.punctuator "(") := by
    decide +kernel
  constructor
  · refine (lint_insertAll_fixes_iff c "/a.ts" "window.x" [windowFinding] name).2 (.inr (.inl ?_))
    rcases Option.map_eq_some_iff.1 start with ⟨program, read, zero⟩
    rcases Option.map_eq_some_iff.1 token with ⟨l, first, here⟩
    rcases Prod.mk.inj here with ⟨named, whole⟩
    refine ⟨program, read, by decide, l, first, by rw [named]; rfl, ?_⟩
    rw [zero, whole, Nat.zero_add]
  · rw [ne_eq, lint_insertAll_fixes_iff c "/a.ts" "(window.x)" [windowFinding] parenthesis]
    rintro (none_ | ⟨program, -, -, l, first, detached, -⟩ | ⟨program, read, silent⟩)
    · simp at none_
    · rw [first] at opening
      rw [show l.token = .punctuator "(" by simpa using opening] at detached
      exact absurd detached (by decide)
    · rw [read] at causes
      have found : Rule.browserApi.allCauses program = ["window"] := by simpa using causes
      have active : .browserApi ∈ c.activeRules "/a.ts" := by
        rw [Config.activeRules_recommended]
        decide
      rw [silent .browserApi active] at found
      simp at found

end Rules
end ClientBoundary
