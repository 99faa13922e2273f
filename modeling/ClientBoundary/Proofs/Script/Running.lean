import ClientBoundary.Script.Grammar.Basic
import Mathlib.Data.Option.Basic

/-!
# Running parsers

A parser is a function of a context and a lexeme. The equations here run one construct of a parser
after the other, so that a production can be followed on a given lexeme.

- `run_bind`, `run_guard`, …: what each construct does;
- `Yields P p`: every result of the parser satisfies `P`, wherever it starts.
-/

namespace ClientBoundary
namespace Script

/-- Every repetition has a round and another one after it. -/
theorem maxTokens_eq : maxTokens = maxLength + 1 + 1 := rfl

namespace Parser

variable {α β : Type}

/-! ## One construct -/

theorem run_congr {p q : Parser α} (h : p = q) (c : Context) (l : Lexeme) : p c l = q c l := by
  rw [h]

@[simp] theorem run_pure (a : α) (c : Context) (l : Lexeme) :
    (pure a : Parser α) c l = some (a, l) := rfl

@[simp] theorem run_bind (p : Parser α) (f : α → Parser β) (c : Context) (l : Lexeme) :
    (p >>= f) c l = (p c l).bind fun r => f r.1 c r.2 := rfl

/-- Two parsers in a row have a result if the first has one from which the second goes on. -/
theorem run_bind_eq_some {p : Parser α} {f : α → Parser β} {c : Context} {l k : Lexeme} {b : β} :
    (p >>= f) c l = some (b, k) ↔ ∃ a m, p c l = some (a, m) ∧ f a c m = some (b, k) := by
  rw [run_bind, Option.bind_eq_some_iff]
  exact ⟨fun ⟨r, hp, hf⟩ => ⟨r.1, r.2, hp, hf⟩, fun ⟨a, m, hp, hf⟩ => ⟨(a, m), hp, hf⟩⟩

@[simp] theorem run_map (f : α → β) (p : Parser α) (c : Context) (l : Lexeme) :
    (f <$> p) c l = (p c l).map fun r => (f r.1, r.2) := by
  show (p c l).bind _ = _
  cases p c l <;> rfl

@[simp] theorem run_failure (c : Context) (l : Lexeme) : (failure : Parser α) c l = none := rfl

@[simp] theorem run_get (c : Context) (l : Lexeme) : (get : Parser Lexeme) c l = some (l, l) := rfl

@[simp] theorem run_set (k : Lexeme) (c : Context) (l : Lexeme) :
    (set k : Parser PUnit) c l = some (⟨⟩, k) := rfl

@[simp] theorem run_read (c : Context) (l : Lexeme) :
    (read : Parser Context) c l = some (c, l) := rfl

@[simp] theorem run_guard (b : Prop) [Decidable b] (c : Context) (l : Lexeme) :
    (guard b : Parser Unit) c l = if b then some ((), l) else none := by
  by_cases h : b <;> simp [guard, h]

theorem run_guard_eq_some {b : Prop} [Decidable b] {c : Context} {l k : Lexeme} {u : Unit} :
    (guard b : Parser Unit) c l = some (u, k) ↔ b ∧ l = k := by
  by_cases h : b <;> simp [h]

@[simp] theorem run_ite (b : Prop) [Decidable b] (p q : Parser α) (c : Context) (l : Lexeme) :
    (if b then p else q) c l = if b then p c l else q c l := by
  by_cases h : b <;> simp [h]

@[simp] theorem run_within (change : Context → Context) (p : Parser α) (c : Context)
    (l : Lexeme) : within change p c l = p (change c) l := rfl

@[simp] theorem run_attempt (p : Parser α) (c : Context) (l : Lexeme) :
    attempt p c l = some (((p c l).map fun r => (some r.1, r.2)).getD (none, l)) := by
  unfold attempt
  cases p c l <;> rfl

@[simp] theorem run_foresee (p : Parser α) (c : Context) (l : Lexeme) :
    foresee p c l = some ((p c l).map (·.1), l) := rfl

/-- A parser that is tried in vain leaves everything as it was. -/
theorem eq_of_attempt_eq_none {p : Parser α} {c : Context} {l k : Lexeme}
    (run : attempt p c l = some (none, k)) : k = l := by
  cases found : p c l with
  | none => simpa [found, eq_comm] using run
  | some r => simp [found] at run

@[simp] theorem run_moveTo (text : List Char) (c : Context) (l : Lexeme) :
    moveTo text c l = (Lexeme.read? text).map fun k => ((), k) := by
  unfold moveTo
  cases Lexeme.read? text <;> rfl

@[simp] theorem run_advance (c : Context) (l : Lexeme) :
    advance c l = (Lexeme.read? l.rest).map fun k => ((), k) := by
  simp [advance]

/-! ## Looking at the current token -/

@[simp] theorem run_sees (p : String) (c : Context) (l : Lexeme) :
    sees p c l = some (l.isPunctuator p, l) := rfl

@[simp] theorem run_seesWord (w : String) (c : Context) (l : Lexeme) :
    seesWord w c l = some (l.isWord w, l) := rfl

@[simp] theorem run_seesEnd (c : Context) (l : Lexeme) :
    seesEnd c l = some (l.token == .eof, l) := rfl

@[simp] theorem run_newlineBefore (c : Context) (l : Lexeme) :
    newlineBefore c l = some (l.newline, l) := rfl

/-- Only a name is a word. -/
theorem isWord_of_other {l : Lexeme} (word : ∀ w escaped, l.token ≠ .name w escaped) (w : String) :
    l.isWord w = false := by
  simpa [Lexeme.isWord] using word w false

@[simp] theorem run_isTyped (c : Context) (l : Lexeme) :
    isTyped c l = some (c.language.typescript, l) := rfl

@[simp] theorem run_hasMarkup (c : Context) (l : Lexeme) :
    hasMarkup c l = some (c.language.jsx, l) := rfl

/-- Looking at the next token reads nothing. -/
theorem run_nextIs (test : Lexeme → Bool) (c : Context) (l : Lexeme) :
    nextIs test c l = some ((Lexeme.read? l.rest).any test, l) := by
  simp only [nextIs, peek]
  cases h : Lexeme.read? l.rest <;> simp [h]

/-- A punctuator that is not there is not read. -/
theorem run_accept_of_not {p : String} {c : Context} {l : Lexeme} (h : l.isPunctuator p = false) :
    accept p c l = some (false, l) := by
  simp [accept, h]

/-- Where a statement may end because a line ends, nothing is read. -/
theorem run_semicolon_of_newline {c : Context} {l : Lexeme} (line : l.newline = true)
    (h : l.isPunctuator ";" = false) : semicolon c l = some ((), l) := by
  simp [semicolon, run_accept_of_not h, line]

/-! ## What parsers can yield -/

/-- Every result of a parser satisfies a condition. -/
def Yields (P : α → Prop) (p : Parser α) : Prop :=
  ∀ c l a k, p c l = some (a, k) → P a

theorem Yields.of_run {P : α → Prop} {p : Parser α} {c : Context} {l k : Lexeme} {a : α}
    (run : p c l = some (a, k)) (h : Yields P p) : P a :=
  h c l a k run

namespace Yields

variable {P : α → Prop} {Q : β → Prop}

theorem pure {a : α} (h : P a) : Yields P (Pure.pure a : Parser α) := by
  intro c l b k run
  obtain ⟨rfl, rfl⟩ := by simpa using run
  exact h

theorem failure : Yields P (Alternative.failure : Parser α) := by
  intro c l a k run
  simp at run

/-- What comes last decides. -/
theorem bind {p : Parser α} {f : α → Parser β} (h : ∀ a, Yields Q (f a)) :
    Yields Q (p >>= f) := by
  intro c l b k run
  rw [run_bind, Option.bind_eq_some_iff] at run
  rcases run with ⟨r, -, run⟩
  exact h r.1 c r.2 b k run

/-- What comes last decides, knowing what came before. -/
theorem bind_of {p : Parser α} {f : α → Parser β} (hp : Yields P p)
    (h : ∀ a, P a → Yields Q (f a)) : Yields Q (p >>= f) := by
  intro c l b k run
  rw [run_bind, Option.bind_eq_some_iff] at run
  rcases run with ⟨r, before, run⟩
  exact h r.1 (hp c l r.1 r.2 before) c r.2 b k run

theorem map {f : α → β} {p : Parser α} (h : Yields (fun a => Q (f a)) p) : Yields Q (f <$> p) := by
  intro c l b k run
  rw [run_map, Option.map_eq_some_iff] at run
  rcases run with ⟨r, before, heq⟩
  rcases Prod.mk.inj heq with ⟨rfl, rfl⟩
  exact h c l r.1 r.2 before

theorem ite {b : Prop} [Decidable b] {p q : Parser α} (hp : Yields P p) (hq : Yields P q) :
    Yields P (if b then p else q) := by
  by_cases h : b
  · rwa [if_pos h]
  · rwa [if_neg h]

theorem within {change : Context → Context} {p : Parser α} (h : Yields P p) :
    Yields P (within change p) := by
  intro c l a k run
  exact h (change c) l a k run

theorem attempt {p : Parser α} (h : Yields P p) :
    Yields (fun r => ∀ a ∈ r, P a) (attempt p) := by
  intro c l r k run a mem
  cases before : p c l with
  | none =>
      simp only [run_attempt, before] at run
      obtain ⟨rfl, rfl⟩ := by simpa using run
      simp at mem
  | some found =>
      simp only [run_attempt, before] at run
      obtain ⟨rfl, rfl⟩ := by simpa using run
      obtain rfl := by simpa using mem
      exact h c l _ _ before

end Yields
end Parser
end Script
end ClientBoundary
