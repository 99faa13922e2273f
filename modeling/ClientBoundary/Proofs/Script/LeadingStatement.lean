import ClientBoundary.Proofs.Script.DecoratedStatement
import ClientBoundary.Proofs.Script.LeadingString

/-!
# A string in front of the first statement

What becomes of the statements of a text when a line with a string is put in front of its first
token depends on that token alone.

- `moduleItem_of_string`: a statement that begins with a string is an expression;
- `statements?_stringLine`: before a token that does not go on with it, the string is a statement
  of its own and the others stay what they are;
- `noString_of_continued`, `noString_of_decorated`: otherwise the first statement is no string.
-/

namespace ClientBoundary
namespace Script

open Script.Parser

/-! ## One statement -/

namespace Grammar

variable {g : Grammar} {c : Context} {k l : Lexeme} {value : String}

/-- A token that is neither a word nor the mark of a decorator begins no declaration. -/
theorem declaration_of_other (word : ∀ w escaped, l.token ≠ .name w escaped)
    (mark : l.isPunctuator "@" = false) : g.declaration c l = some (none, l) := by
  have typed : g.typedDeclaration c l = some (none, l) := by
    cases token : l.token with
    | name w escaped => exact absurd token (word w escaped)
    | _ => simp [typedDeclaration, run_nextIs, token]
  have values : g.valueDeclaration c l = some (none, l) := by
    simp [valueDeclaration, variableKeyword, seesLexicalLet, seesUsing, seesAsyncFunction,
      run_nextIs, isWord_of_other word, mark]
  simp [declaration, typed, values]

theorem moduleItem_of_other (word : ∀ w escaped, l.token ≠ .name w escaped)
    (mark : l.isPunctuator "@" = false) : g.moduleItem c l = g.plainStatement c l := by
  simp [moduleItem, statementItem, declaration_of_other word mark, run_nextIs,
    isWord_of_other word, mark]

theorem plainStatement_of_string (string : l.token = .string value) :
    g.plainStatement c l = (g.expressionStatement c l).map fun r => (stmt r.1, r.2) := by
  simp [plainStatement, string, seesLabel, seesIdentifier, isIdentifier, run_nextIs,
    not_isWord_of_string string]

/-- A statement that begins with a string is an expression. -/
theorem moduleItem_of_string (string : l.token = .string value) :
    g.moduleItem c l = (g.expressionStatement c l).map fun r => (stmt r.1, r.2) := by
  rw [moduleItem_of_other (by simp [string]) (not_isPunctuator_of_string string "@")]
  exact plainStatement_of_string string

/-- A semicolon alone is a statement. -/
theorem moduleItem_of_semicolon (token : l.token = .punctuator ";") :
    g.moduleItem c l = (Lexeme.read? l.rest).map fun m => (stmt (.group []), m) := by
  rw [moduleItem_of_other (by simp [token]) (by simp [Lexeme.isPunctuator, token])]
  cases read : Lexeme.read? l.rest <;> simp [plainStatement, token, read]

/-- The string is the whole statement before a token that does not go on with it. A semicolon
belongs to the statement. -/
theorem expressionStatement_of_detached
    (expression : g.expression c l = some (plain (.string value), k))
    (line : k.newline = true) :
    g.expressionStatement c l =
      if k.isPunctuator ";" then
        (Lexeme.read? k.rest).map fun m => (.statement (.string value), m)
      else
        some (.statement (.string value), k) := by
  cases ends : k.isPunctuator ";" with
  | true =>
      cases read : Lexeme.read? k.rest with
      | none => simp [expressionStatement, Grammar.value, expression, semicolon, accept, ends, read]
      | some m =>
          simp [expressionStatement, Grammar.value, expression, semicolon, accept, ends, read]
  | false =>
      simp [expressionStatement, Grammar.value, expression, run_semicolon_of_newline line ends]

/-- An expression statement that is a string is one because its expression is. -/
theorem expressionStatement_literal {n : Node} {k' : Lexeme}
    (run : g.expressionStatement c l = some (n, k')) :
    ∃ e m, g.expression c l = some (e, m) ∧ e.patternOnly = false ∧ n = .statement e.node := by
  rcases run_bind_eq_some.1 run with ⟨body, m, valued, run⟩
  rcases run_bind_eq_some.1 valued with ⟨e, m', expression, valued⟩
  cases pattern : e.patternOnly with
  | true => simp [pattern] at valued
  | false =>
      obtain ⟨rfl, rfl⟩ : e.node = body ∧ m' = m := by simpa [pattern] using valued
      refine ⟨e, m', expression, pattern, ?_⟩
      rcases run_bind_eq_some.1 run with ⟨_, _, -, run⟩
      simpa [eq_comm] using (Prod.mk.inj (Option.some.inj run)).1

end Grammar

/-! ## The statements of a text -/

namespace Program

variable {g : Grammar} {c : Context} {k l : Lexeme} {value : String}

theorem topLevel_of_other (word : ∀ w escaped, l.token ≠ .name w escaped)
    (mark : l.isPunctuator "@" = false) :
    topLevel g c l = (g.moduleItem c l).map fun r => (⟨l.text, r.1.node, false⟩, r.2) := by
  have undecorated : decoratedExport? g c l = some (none, l) := by
    simp [decoratedExport?, mark]
  have unmarked : seesModuleMark c l = some (false, l) := by
    simp [seesModuleMark, isWord_of_other word]
  cases run : g.moduleItem c l <;> simp [topLevel, undecorated, unmarked, run]

theorem topLevel_of_semicolon (token : l.token = .punctuator ";") :
    topLevel g c l = (Lexeme.read? l.rest).map fun m => (⟨l.text, .group [], false⟩, m) := by
  rw [topLevel_of_other (by simp [token]) (by simp [Lexeme.isPunctuator, token]),
    Grammar.moduleItem_of_semicolon token, Option.map_map]
  rfl

theorem topLevels_step (fuel : Nat) (going : l.token ≠ .eof) :
    topLevels g (fuel + 1) c l = (topLevel g c l).bind fun r =>
      if r.2.text.length < l.text.length then
        (topLevels g fuel c r.2).map fun more => (r.1 :: more.1, more.2)
      else
        none := by
  have ends : (l.token == .eof) = false := by simpa using going
  cases run : topLevel g c l with
  | none => simp [topLevels, going, run]
  | some r => by_cases less : r.2.text.length < l.text.length <;> simp [topLevels, going, run, less]

/-- Enough rounds are enough: how many more are allowed does not matter. -/
theorem topLevels_fuel (fuel₁ : Nat) : ∀ (fuel₂ : Nat) (l : Lexeme), l.text.length < fuel₁ →
    l.text.length < fuel₂ → topLevels g fuel₁ c l = topLevels g fuel₂ c l := by
  induction fuel₁ with
  | zero => intro fuel₂ l h; omega
  | succ fuel₁ ih =>
      -- every statement reads something, so both countdowns last as long as the text
      intro fuel₂ l h₁ h₂
      obtain ⟨fuel₂, rfl⟩ : ∃ f, fuel₂ = f + 1 := ⟨fuel₂ - 1, by omega⟩
      by_cases ends : l.token = .eof
      · simp [topLevels, ends]
      · rw [topLevels_step fuel₁ ends, topLevels_step fuel₂ ends]
        refine congrArg _ (funext fun r => ?_)
        split
        · rename_i less
          rw [ih fuel₂ r.2 (by omega) (by omega)]
        · rfl

/-! ## The first token -/

theorem firstLexeme?_eq_some {text : List Char} :
    firstLexeme? text = some l ↔ l.newline = true ∧ token? l.text = some (l.token, l.rest) ∧
      ∃ line, skipTrivia .code false (skipPreamble text) = some (line, l.text) := by
  rw [firstLexeme?, Option.map_eq_some_iff]
  constructor
  · rintro ⟨m, read, rfl⟩
    rcases Lexeme.read?_eq_some.1 read with ⟨skipped, token⟩
    exact ⟨rfl, token, m.newline, skipped⟩
  · rintro ⟨newline, token, line, skipped⟩
    refine ⟨{ l with newline := line }, Lexeme.read?_eq_some.2 ⟨skipped, token⟩, ?_⟩
    simp [← newline]

/-- The first token of a text stands behind some characters, behind which another token would be
the first one as well. -/
theorem firstLexeme?_split {text : List Char} (first : firstLexeme? text = some l)
    (going : l.token ≠ .eof) :
    Solid l.text ∧ ∃ before, text = before ++ l.text ∧
      ∀ c rest t after, Solid (c :: rest) → c ≠ '#' → c ≠ '\uFEFF' →
        token? (c :: rest) = some (t, after) →
          firstLexeme? (before ++ c :: rest) = some ⟨t, true, c :: rest, after⟩ := by
  rcases firstLexeme?_eq_some.1 first with ⟨newline, token, line, skipped⟩
  have nonempty : l.text ≠ [] := by
    intro empty
    rw [empty] at token
    simp [token?] at token
    exact going token.1.symm
  rcases skipPreamble_split skipped nonempty with ⟨solid, before, shape, same⟩
  refine ⟨solid, before, shape, fun c rest t after hc hash mark read => ?_⟩
  exact firstLexeme?_eq_some.2 ⟨rfl, read, line, same c rest hc hash mark⟩

/-! ## A string in front of the first token -/

/-- The productions below the full grammar. -/
theorem full_eq_step : Grammar.full = (Grammar.level (2 * maxTokens + 7)).step :=
  Grammar.level_succ (2 * maxTokens + 7)

theorem full_expression (c : Context) (l : Lexeme) : Grammar.full.expression c l =
    (Grammar.level (2 * maxTokens + 7)).sequenceExpression c l := by
  rw [full_eq_step]
  rfl

/-- A line with nothing but a string. -/
def stringLine (value : List Char) : List Char :=
  '\x27' :: (value ++ ['\x27', '\n'])

/-- The statements from a token on. -/
def statementsFrom? (c : Context) (l : Lexeme) : Option (List TopLevel) :=
  (topLevels Grammar.full (l.text.length + 1) c l).map (·.1)

theorem statements?_eq {language : Language} {asModule : Bool} {text : List Char}
    (first : firstLexeme? text = some l) :
    statements? language asModule text = statementsFrom? (topContext language asModule) l := by
  rw [statements?, first]
  show Option.bind _ _ = _
  rw [Option.bind_some]
  cases run : topLevels Grammar.full (l.text.length + 1) (topContext language asModule) l with
  | none => simp [statementsFrom?, run, ReaderT.run]
  | some r => simp [statementsFrom?, run, ReaderT.run]

/-- The statements from a token on are the first one and those from the token after it on. -/
theorem statementsFrom?_step (going : l.token ≠ .eof) : statementsFrom? c l =
    (topLevel Grammar.full c l).bind fun r =>
      if r.2.text.length < l.text.length then (statementsFrom? c r.2).map (r.1 :: ·) else none := by
  rw [statementsFrom?, topLevels_step l.text.length going, Option.map_bind]
  refine congrArg _ (funext fun r => ?_)
  by_cases less : r.2.text.length < l.text.length
  · have fuel := topLevels_fuel (g := Grammar.full) (c := c) l.text.length (r.2.text.length + 1) r.2
      less (by omega)
    simp [less, fuel, statementsFrom?, Function.comp_def]
  · simp [less]

theorem length_lt_of_semicolon (token : token? l.text = some (.punctuator ";", l.rest))
    (read : Lexeme.read? l.rest = some k) : k.text.length < l.text.length := by
  have shape := punctuator?_eq_some (punctuator?_of_token? token) (by decide)
  have size := congrArg List.length shape
  have left := Lexeme.read?_length_le read
  simp at size
  omega

/-- From a string in front of a token that does not go on with it: the string is a statement, and
then come the statements from the token on. A semicolon there ends the string and is no statement of
its own. -/
theorem statementsFrom?_of_detached (string : l.token = .string value)
    (next : Lexeme.read? l.rest = some k) (line : k.newline = true)
    (h : k.token.continues = false) (going : k.token ≠ .eof)
    (token : token? k.text = some (k.token, k.rest)) (less : k.text.length < l.text.length) :
    statementsFrom? c l = (statementsFrom? c k).map fun ss =>
      ⟨l.text, .statement (.string value), false⟩ ::
        if k.isPunctuator ";" then ss.tail else ss := by
  have expression : Grammar.full.expression c l = some (Grammar.plain (.string value), k) := by
    rw [full_expression]
    exact Grammar.sequenceExpression_of_detached string next line h
  have here : topLevel Grammar.full c l = (Grammar.full.expressionStatement c l).map fun r =>
      (⟨l.text, r.1, false⟩, r.2) := by
    rw [topLevel_of_other (by simp [string]) (Grammar.not_isPunctuator_of_string string "@"),
      Grammar.moduleItem_of_string string]
    simp [Grammar.stmt, Function.comp_def]
  rw [statementsFrom?_step (by simp [string]), here,
    Grammar.expressionStatement_of_detached expression line]
  cases ends : k.isPunctuator ";" with
  | false => simp [less]
  | true =>
      have semicolon : k.token = .punctuator ";" := by
        simpa [Lexeme.isPunctuator] using ends
      -- the semicolon is read with the string, and would be a statement without it
      rw [statementsFrom?_step going, topLevel_of_semicolon semicolon]
      cases read : Lexeme.read? k.rest with
      | none => simp
      | some m =>
          have shorter : m.text.length < k.text.length :=
            length_lt_of_semicolon (by rw [token, semicolon]) read
          simp [shorter, shorter.trans less, Function.comp_def]

/-- A string that is put in front of the first token becomes the first token. -/
theorem firstLexeme?_stringLine {before value : List Char}
    (first : firstLexeme? (before ++ l.text) = some l) (going : l.token ≠ .eof)
    (verbatim : ∀ c ∈ value, isVerbatim '\x27' c = true) :
    firstLexeme? (before ++ stringLine value ++ l.text) =
        some ⟨.string (String.ofList value), true, stringLine value ++ l.text, '\n' :: l.text⟩ ∧
      Lexeme.read? ('\n' :: l.text) = some l := by
  rcases firstLexeme?_eq_some.1 first with ⟨newline, token, -⟩
  rcases firstLexeme?_split first going with ⟨solid, before', shape, same⟩
  rcases List.append_cancel_right shape with rfl
  refine ⟨?_, Lexeme.read?_of_solid solid newline token⟩
  have line : stringLine value ++ l.text = '\x27' :: (value ++ '\x27' :: '\n' :: l.text) := by
    simp [stringLine]
  rw [List.append_assoc, line]
  exact same '\x27' _ _ _ (solid_cons (by decide) (by decide) (by decide)) (by decide) (by decide)
    (token?_of_verbatim verbatim)

/-- What becomes of the statements of a text when a string is put in front of its first token, if
that does not go on with the string. -/
theorem statements?_stringLine {language : Language} {asModule : Bool} {before value : List Char}
    (first : firstLexeme? (before ++ l.text) = some l) (going : l.token ≠ .eof)
    (h : l.token.continues = false) (verbatim : ∀ c ∈ value, isVerbatim '\x27' c = true) :
    statements? language asModule (before ++ stringLine value ++ l.text) =
      (statements? language asModule (before ++ l.text)).map fun ss =>
        ⟨stringLine value ++ l.text, .statement (.string (String.ofList value)), false⟩ ::
          if l.isPunctuator ";" then ss.tail else ss := by
  rcases firstLexeme?_eq_some.1 first with ⟨newline, token, -⟩
  rcases firstLexeme?_stringLine first going verbatim with ⟨put, next⟩
  rw [statements?_eq put, statements?_eq first]
  exact statementsFrom?_of_detached rfl next newline h going token (by simp [stringLine]; omega)

/-- A change of the statements that keeps what marks a module is one of the file, whatever it is
read as. -/
theorem allStatements?_map {language : Language} {text other : List Char}
    {f : List TopLevel → List TopLevel}
    (map : ∀ asModule, statements? language asModule other =
      (statements? language asModule text).map f)
    (marks : ∀ asModule ss, statements? language asModule text = some ss →
      (f ss).any (·.marksModule) = ss.any (·.marksModule)) :
    allStatements? language other = (allStatements? language text).map f := by
  unfold allStatements?
  cases language.goal with
  | module => exact map true
  | commonjs => exact map false
  | either =>
      rw [map true, map false]
      cases asModule : statements? language true text with
      | some found =>
          simp only [Option.map_some, marks true found asModule]
          split <;> rfl
      | none =>
          cases asScript : statements? language false text with
          | none => rfl
          | some found =>
              simp only [Option.map_none, Option.map_some, Option.filter,
                marks false found asScript]
              split <;> rfl

theorem statementsFrom?_head {ss : List TopLevel} (going : l.token ≠ .eof)
    (run : statementsFrom? c l = some ss) :
    ∃ s m more, topLevel Grammar.full c l = some (s, m) ∧ ss = s :: more := by
  rw [statementsFrom?_step going] at run
  rcases Option.bind_eq_some_iff.1 run with ⟨⟨s, m⟩, here, run⟩
  split at run
  · rcases Option.map_eq_some_iff.1 run with ⟨more, -, rfl⟩
    exact ⟨s, m, more, here, rfl⟩
  · simp at run

/-- The statements of a file when a string is put in front of its first token. -/
theorem allStatements?_stringLine {language : Language} {before value : List Char}
    (first : firstLexeme? (before ++ l.text) = some l) (going : l.token ≠ .eof)
    (h : l.token.continues = false) (verbatim : ∀ c ∈ value, isVerbatim '\x27' c = true) :
    allStatements? language (before ++ stringLine value ++ l.text) =
      (allStatements? language (before ++ l.text)).map fun ss =>
        ⟨stringLine value ++ l.text, .statement (.string (String.ofList value)), false⟩ ::
          if l.isPunctuator ";" then ss.tail else ss := by
  refine allStatements?_map (fun _ => statements?_stringLine first going h verbatim) ?_
  intro asModule ss run
  cases ends : l.isPunctuator ";" with
  | false => simp
  | true =>
      have semicolon : l.token = .punctuator ";" := by simpa [Lexeme.isPunctuator] using ends
      rw [statements?_eq first] at run
      rcases statementsFrom?_head going run with ⟨s, m, more, here, rfl⟩
      -- the statement that is dropped is a semicolon, which marks no module
      rw [topLevel_of_semicolon semicolon] at here
      rcases Option.map_eq_some_iff.1 here with ⟨r, -, same⟩
      rcases Prod.mk.inj same with ⟨rfl, -⟩
      simp

/-! ## No string as the first statement -/

/-- A statement is not just a string, up to parentheses. -/
def NoString (n : Node) : Prop :=
  ∀ e, n = .statement e → ¬ Grammar.Literal e

theorem topLevel_of_continued {s : TopLevel} {m : Lexeme} (free : c.decorator = false)
    (operators : c.inOperator = true) (string : l.token = .string value)
    (next : Lexeme.read? l.rest = some k) (h : k.token.continues = true)
    (run : topLevel Grammar.full c l = some (s, m)) : NoString s.node := by
  rw [topLevel_of_other (by simp [string]) (Grammar.not_isPunctuator_of_string string "@"),
    Grammar.moduleItem_of_string string, Option.map_map] at run
  rcases Option.map_eq_some_iff.1 run with ⟨⟨n, m'⟩, statement, same⟩
  rcases Prod.mk.inj same with ⟨rfl, rfl⟩
  rcases Grammar.expressionStatement_literal statement with ⟨e, m, expression, valid, node⟩
  rw [full_expression] at expression
  rintro e' shape literal
  obtain rfl : e.node = e' := by simpa [Grammar.stmt, node] using shape
  have detached := Grammar.detached_of_literal free operators string next expression literal valid
  simp [detached] at h

/-- A statement of the top level, with the export behind its decorators. -/
theorem topLevel_eq_some {s : TopLevel} {m : Lexeme} (run : topLevel g c l = some (s, m)) :
    ∃ decorated item, decoratedExport? g c l = some (decorated, l) ∧
      g.moduleItem c l = some (item, m) ∧ s.node = item.node ∧ s.text = decorated.getD l.text := by
  obtain ⟨marks, seen⟩ : ∃ marks, seesModuleMark c l = some (marks, l) := by
    by_cases exports : l.isWord "export" = true
    · exact ⟨true, by simp [seesModuleMark, exports]⟩
    · by_cases imports : l.isWord "import" = true
      · exact ⟨_, by simp [seesModuleMark, exports, imports, run_nextIs]; rfl⟩
      · exact ⟨false, by simp [seesModuleMark, exports, imports]⟩
  obtain ⟨decorated, foreseen⟩ : ∃ decorated, decoratedExport? g c l = some (decorated, l) :=
    ⟨_, rfl⟩
  refine ⟨decorated, ?_⟩
  cases item : g.moduleItem c l with
  | none => simp [topLevel, foreseen, seen, item] at run
  | some r =>
      obtain ⟨rfl, rfl⟩ := by simpa [topLevel, foreseen, seen, item] using run
      exact ⟨r.1, foreseen, rfl, rfl, rfl⟩

theorem topLevel_of_decorated {s : TopLevel} {m : Lexeme} (mark : l.token = .punctuator "@")
    (run : topLevel g c l = some (s, m)) : NoString s.node := by
  rcases topLevel_eq_some run with ⟨-, item, -, run, node, -⟩
  rcases Grammar.moduleItem_of_decorated mark run with ⟨parts, group⟩
  intro e shape
  simp [node, group] at shape

theorem isLeftOver_eq_true {rest text : List Char} (h : isLeftOver rest text = true) :
    rest ≠ [] ∧ ∃ before, before ≠ [] ∧ text = before ++ rest := by
  simp only [isLeftOver, Bool.and_eq_true, Bool.not_eq_true', List.isEmpty_eq_false_iff,
    decide_eq_true_eq, List.isSuffixOf_iff_suffix] at h
  rcases h with ⟨⟨nonempty, less⟩, before, rfl⟩
  refine ⟨nonempty, before, ?_, rfl⟩
  rintro rfl
  simp at less

/-- Where a statement begins: at its first token, or behind the decorators of an export. -/
theorem topLevel_text {s : TopLevel} {m : Lexeme} (run : topLevel g c l = some (s, m)) :
    s.text = l.text ∨ l.token = .punctuator "@" ∧ s.text ≠ [] ∧
      ∃ decorators, decorators ≠ [] ∧ l.text = decorators ++ s.text := by
  rcases topLevel_eq_some run with ⟨decorated, -, foreseen, -, -, text⟩
  cases decorated with
  | none => exact .inl text
  | some found =>
      refine .inr ?_
      rw [decoratedExport?, run_bind, run_get, Option.bind_some, run_foresee] at foreseen
      rcases Option.map_eq_some_iff.1
        (Prod.mk.inj (Option.some.inj foreseen)).1 with ⟨⟨rest, k⟩, inside, rfl⟩
      have text : s.text = rest := text
      cases mark : l.isPunctuator "@" with
      | false => simp [mark] at inside
      | true =>
          -- the productions up to the rest of the text do not matter, only that something is left
          rw [run_bind, run_sees, Option.bind_some] at inside
          rcases run_bind_eq_some.1 inside with ⟨_, _, -, inside⟩
          rcases run_bind_eq_some.1 inside with ⟨_, _, -, inside⟩
          rcases run_bind_eq_some.1 inside with ⟨_, _, -, inside⟩
          rcases run_bind_eq_some.1 inside with ⟨_, _, -, inside⟩
          rw [run_bind, run_get, Option.bind_some] at inside
          rcases run_bind_eq_some.1 inside with ⟨_, _, left, inside⟩
          have left := (run_guard_eq_some.1 left).1
          rw [(Prod.mk.inj (Option.some.inj inside)).1, ← text] at left
          rcases isLeftOver_eq_true left with ⟨nonempty, before, proper, whole⟩
          exact ⟨by simpa [Lexeme.isPunctuator] using mark, nonempty, before, proper, whole⟩

theorem allStatements?_eq_some {language : Language} {text : List Char} {ss : List TopLevel}
    (h : allStatements? language text = some ss) :
    ∃ asModule, statements? language asModule text = some ss := by
  unfold allStatements? at h
  split at h
  · exact ⟨true, h⟩
  · exact ⟨false, h⟩
  · split at h
    · rename_i asModule
      split at h
      · exact ⟨true, by rw [asModule, h]⟩
      · exact ⟨false, h⟩
    · exact ⟨false, (Option.filter_eq_some_iff.1 h).1⟩

/-- The first statement of a file and its first token. -/
theorem allStatements?_head {language : Language} {text : List Char} {s : TopLevel}
    {more : List TopLevel} (h : allStatements? language text = some (s :: more)) :
    ∃ asModule l m, firstLexeme? text = some l ∧ l.token ≠ .eof ∧
      topLevel Grammar.full (topContext language asModule) l = some (s, m) := by
  rcases allStatements?_eq_some h with ⟨asModule, h⟩
  cases first : firstLexeme? text with
  | none => simp [statements?, first] at h
  | some l =>
      rw [statements?_eq first] at h
      by_cases ends : l.token = .eof
      · simp [statementsFrom?, topLevels, ends] at h
      · rcases statementsFrom?_head ends h with ⟨s', m, more', here, same⟩
        rcases List.cons.inj same with ⟨rfl, rfl⟩
        exact ⟨asModule, l, m, rfl, ends, here⟩

/-- When a string is put in front of a first token that goes on with it, the first statement is no
string. -/
theorem noString_of_continued {language : Language} {before value : List Char} {s : TopLevel}
    {more : List TopLevel} (first : firstLexeme? (before ++ l.text) = some l)
    (going : l.token ≠ .eof) (h : l.token.continues = true)
    (verbatim : ∀ c ∈ value, isVerbatim '\x27' c = true)
    (read : allStatements? language (before ++ stringLine value ++ l.text) = some (s :: more)) :
    NoString s.node := by
  rcases firstLexeme?_stringLine first going verbatim with ⟨put, next⟩
  rcases allStatements?_head read with ⟨asModule, q, m, found, -, run⟩
  rcases Option.some.inj (put.symm.trans found) with rfl
  exact topLevel_of_continued rfl rfl rfl next h run

/-- Whatever is put behind decorators, their mark stays the first token. -/
theorem firstLexeme?_decorated {before decorators rest : List Char}
    (first : firstLexeme? (before ++ l.text) = some l) (mark : l.token = .punctuator "@")
    (behind : l.text = decorators ++ rest) (proper : decorators ≠ []) (other : List Char) :
    ∃ after, firstLexeme? (before ++ decorators ++ other) =
      some ⟨.punctuator "@", true, decorators ++ other, after⟩ := by
  rcases firstLexeme?_eq_some.1 first with ⟨-, token, -⟩
  rcases firstLexeme?_split first (by simp [mark]) with ⟨-, before', shape, same⟩
  rcases List.append_cancel_right shape with rfl
  rw [mark] at token
  have head : l.text = '@' :: l.rest :=
    punctuator?_eq_some (punctuator?_of_token? token) (by decide)
  obtain ⟨ds, rfl⟩ : ∃ ds, decorators = '@' :: ds := by
    cases decorators with
    | nil => exact absurd rfl proper
    | cons d ds =>
        rw [head, List.cons_append] at behind
        exact ⟨ds, by rw [(List.cons.inj behind).1]⟩
  refine ⟨ds ++ other, ?_⟩
  rw [List.append_assoc]
  exact same '@' (ds ++ other) (.punctuator "@") (ds ++ other)
    (solid_cons (by decide) (by decide) (by decide)) (by decide) (by decide) rfl

/-- When anything is put behind decorators in front of the first statement, that is no string. -/
theorem noString_of_decorated {language : Language} {before decorators rest other : List Char}
    {s : TopLevel} {more : List TopLevel}
    (first : firstLexeme? (before ++ l.text) = some l) (mark : l.token = .punctuator "@")
    (behind : l.text = decorators ++ rest) (proper : decorators ≠ [])
    (read : allStatements? language (before ++ decorators ++ other) = some (s :: more)) :
    NoString s.node := by
  rcases firstLexeme?_decorated first mark behind proper other with ⟨after, put⟩
  rcases allStatements?_head read with ⟨asModule, q, m, found, -, run⟩
  rcases Option.some.inj (put.symm.trans found) with rfl
  exact topLevel_of_decorated rfl run

end Program
end Script
end ClientBoundary
