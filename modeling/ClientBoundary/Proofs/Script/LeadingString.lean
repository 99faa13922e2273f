import ClientBoundary.Proofs.Script.Lexing
import ClientBoundary.Proofs.Script.Running
import ClientBoundary.Script.Program

/-!
# A string on a line of its own

A string that begins a statement is the whole statement unless the token on the next line goes on
with the expression. Line breaks do not end a statement where it can go on.

- `Token.continues`: the tokens that go on with an expression on the next line;
- `Literal`: an expression is a string, up to parentheses.
-/

namespace ClientBoundary
namespace Script

/-- Whether a token at the beginning of a line goes on with the expression before it. -/
def Token.continues : Token → Bool
  | .template _ _ => true
  | .punctuator p =>
      [".", "?.", "(", "[", "?", ",", "=", ">"].contains p ||
        Grammar.binaryOperators.contains p || Grammar.compoundAssignments.contains p
  | .name w escaped => (w == "in" || w == "instanceof") && !escaped
  | _ => false

namespace Grammar

open Script.Parser

/-- An expression is a string, up to parentheses. -/
def Literal (n : Node) : Prop :=
  ∃ value, n.withoutParens = .string value

variable {g : Grammar} {c : Context} {k : Lexeme}

/-! ## Where the string ends -/

theorem tailStep_of_detached {calls inChain : Bool} {e : Expr} (line : k.newline = true)
    (h : k.token.continues = false) : g.tailStep calls inChain e c k = some (none, k) := by
  cases token : k.token with
  | punctuator p =>
      by_cases mark : p = "!"
      · subst mark
        simp [tailStep, token, line]
      · simp [token, Token.continues, binaryOperators] at h
        simp only [tailStep, run_bind, run_get, Option.bind_some, token]
        refine run_congr (q := pure none) ?_ c k
        split <;> simp_all
  | template valid closed => simp [token, Token.continues] at h
  | _ => simp [tailStep, token]

@[simp] theorem run_binaryOperator :
    binaryOperator c k = some (binaryOperator? c.inOperator k, k) := rfl

@[simp] theorem run_assignmentOperator :
    assignmentOperator c k = some (assignmentOperator? k, k) := rfl

theorem binaryOperator?_of_detached {inOperator : Bool} (h : k.token.continues = false) :
    binaryOperator? inOperator k = none := by
  cases token : k.token with
  | punctuator p =>
      simp [token, Token.continues] at h
      simp [binaryOperator?, token, h]
  | name w escaped =>
      simp [token, Token.continues] at h
      cases escaped <;> simp_all [binaryOperator?]
  | _ => simp [binaryOperator?, token]

theorem assignmentOperator?_of_detached (h : k.token.continues = false) :
    assignmentOperator? k = none := by
  cases token : k.token with
  | punctuator p =>
      simp [token, Token.continues] at h
      simp [assignmentOperator?, token, h]
  | _ => simp [assignmentOperator?, token]

theorem isPunctuator_of_detached {p : String} (hp : (Token.punctuator p).continues = true)
    (h : k.token.continues = false) : k.isPunctuator p = false := by
  rw [Lexeme.isPunctuator, beq_eq_false_iff_ne]
  intro token
  rw [token, hp] at h
  simp at h

theorem operation_of_detached (line : k.newline = true) (h : k.token.continues = false) :
    g.operation c k = some (none, k) := by
  simp [operation, binaryOperator?_of_detached h, line]

/-! ## Reading the string -/

variable {l : Lexeme} {value : String}

theorem primary_of_string (string : l.token = .string value) (next : Lexeme.read? l.rest = some k) :
    g.primary c l = some (plain (.string value), k) := by
  simp [primary, string, next]

theorem not_isPunctuator_of_string (string : l.token = .string value) (p : String) :
    l.isPunctuator p = false := by
  simp [Lexeme.isPunctuator, string]

theorem not_isWord_of_string (string : l.token = .string value) (w : String) :
    l.isWord w = false :=
  isWord_of_other (by simp [string]) w

/-- On a string an operand is read without prefix operators. -/
theorem operandOrPrivateName_of_string (string : l.token = .string value) :
    g.operandOrPrivateName c l =
      (g.updateExpression c l).map fun r => ((r.1, false), r.2) := by
  simp [operandOrPrivateName, unaryExpression, string, not_isWord_of_string string,
    not_isPunctuator_of_string string]

@[simp] theorem plain_patternOnly (n : Node) : (plain n).patternOnly = false := rfl

@[simp] theorem plain_node (n : Node) : (plain n).node = n := rfl

section Detached

variable (string : l.token = .string value) (next : Lexeme.read? l.rest = some k)
  (line : k.newline = true) (h : k.token.continues = false)

include string next line h

theorem leftHandSide_of_detached :
    g.leftHandSideExpression c l = some (plain (.string value), k) := by
  have stops : g.tail true maxTokens false (plain (.string value)) c k =
      some (plain (.string value), k) := by
    rw [maxTokens_eq]
    simp [tail, tailStep_of_detached line h]
  simp [leftHandSideExpression, primary_of_string string next, stops]

theorem updateExpression_of_detached :
    g.updateExpression c l = some (plain (.string value), k) := by
  simp [updateExpression, not_isPunctuator_of_string string,
    leftHandSide_of_detached string next line h, line]

theorem binaryExpression_of_detached :
    g.binaryExpression c l = some (plain (.string value), k) := by
  have operations : many g.operation c k = some ([], k) := by
    rw [many, maxTokens_eq]
    simp [repeatUntilNone, operation_of_detached line h]
  simp [binaryExpression, operandOrPrivateName_of_string string,
    updateExpression_of_detached string next line h, operations]

theorem conditionalExpression_of_detached :
    g.conditionalExpression c l = some (plain (.string value), k) := by
  have mark : k.isPunctuator "?" = false := isPunctuator_of_detached (by decide) h
  simp [conditionalExpression, binaryExpression_of_detached string next line h,
    run_accept_of_not mark]

theorem assignmentExpression_of_detached :
    g.assignmentExpression c l = some (plain (.string value), k) := by
  simp [assignmentExpression, arrowFunction, string, not_isWord_of_string string,
    conditionalExpression_of_detached string next line h, assignmentOperator?_of_detached h]

/-- A string before a token that does not go on with it is the whole expression. -/
theorem sequenceExpression_of_detached :
    g.sequenceExpression c l = some (plain (.string value), k) := by
  have comma : k.isPunctuator "," = false := isPunctuator_of_detached (by decide) h
  simp [sequenceExpression, assignmentExpression_of_detached string next line h, comma]

end Detached

/-! ## Where the string goes on -/

theorem not_literal_group (parts : List Node) : ¬ Literal (.group parts) := by
  rintro ⟨value, h⟩
  simp [Node.withoutParens] at h

theorem not_literal_call (callee : Node) (arguments : List Node) :
    ¬ Literal (.call callee arguments) := by
  rintro ⟨value, h⟩
  simp [Node.withoutParens] at h

theorem not_literal_access {n : Node} (h : ∀ inner, n ≠ .paren inner)
    (string : ∀ value, n ≠ .string value) : ¬ Literal n := by
  rintro ⟨value, stripped⟩
  cases n with
  | paren inner => exact h inner rfl
  | string text => exact string text rfl
  | _ => simp [Node.withoutParens] at stripped

/-- A step of accesses and calls never makes a string. -/
def NoStringStep (r : Option (Expr × Bool)) : Prop :=
  ∀ x ∈ r, ¬ Literal x.1.node

theorem noStringStep_none : NoStringStep none := by
  simp [NoStringStep]

theorem noStringStep_some {e : Expr} {inChain : Bool} (h : ¬ Literal e.node) :
    NoStringStep (some (e, inChain)) := by
  simpa [NoStringStep] using h

theorem pointMember_yields (object : Node) :
    Yields (fun e => ¬ Literal e.node) (pointMember object) := by
  refine Yields.bind fun l => ?_
  cases l.token with
  | name text escaped =>
      refine Yields.bind fun _ => Yields.pure ?_
      rintro ⟨value, h⟩
      simp [access, Node.withoutParens] at h
  | privateName text =>
      refine Yields.bind fun _ => Yields.pure ?_
      rintro ⟨value, h⟩
      simp [access, Node.withoutParens] at h
  | _ => exact Yields.failure

theorem bracketMember_yields (object : Node) :
    Yields (fun e => ¬ Literal e.node) (g.bracketMember object) := by
  refine Yields.bind fun _ => Yields.bind fun key => Yields.bind fun _ => Yields.pure ?_
  rintro ⟨value, h⟩
  simp [access, Node.withoutParens] at h

theorem tailStep_yields (calls inChain : Bool) (e : Expr) :
    Yields NoStringStep (g.tailStep calls inChain e) := by
  have call {q : Parser (List Node)} (f : List Node → List Node) (b : Bool) :
      Yields NoStringStep (do return some (plain (.call e.node (f (← q))), b)) :=
    Yields.bind fun _ => Yields.pure (noStringStep_some (not_literal_call _ _))
  have point (f : Expr → Expr) (hf : ∀ x, (f x).node = x.node) (b : Bool) :
      Yields NoStringStep (do return some (f (← pointMember e.node), b)) := by
    refine Yields.bind_of (pointMember_yields e.node) fun m hm => Yields.pure ?_
    exact noStringStep_some (by rwa [hf])
  refine Yields.bind fun l => ?_
  -- one case for each way to go on: members, templates, calls, chains, assertions, type arguments
  split
  · exact Yields.bind fun _ => point id (fun _ => rfl) inChain
  · refine Yields.bind fun c => Yields.ite (Yields.pure noStringStep_none) ?_
    refine Yields.bind_of (bracketMember_yields e.node) fun m hm => Yields.pure ?_
    exact noStringStep_some hm
  · refine Yields.bind fun _ => Yields.bind fun parts => Yields.pure ?_
    exact noStringStep_some (not_literal_group _)
  · exact Yields.ite (call id inChain) (Yields.pure noStringStep_none)
  · refine Yields.bind fun _ => Yields.bind fun _ => Yields.bind fun next => ?_
    split
    · exact call id true
    · refine Yields.bind_of (Yields.within (bracketMember_yields e.node)) fun m hm => Yields.pure ?_
      exact noStringStep_some hm
    · exact Yields.bind fun _ => Yields.bind fun _ => Yields.bind fun types =>
        call (types ++ ·) true
    · exact Yields.failure
    · exact point (fun m => plain m.node) (fun _ => rfl) true
  · refine Yields.bind fun typed => Yields.ite ?_ (Yields.pure noStringStep_none)
    exact Yields.bind fun _ => Yields.pure (noStringStep_some (not_literal_group _))
  · refine Yields.bind fun typed => Yields.ite ?_ (Yields.pure noStringStep_none)
    refine Yields.bind_of (P := fun r => ∀ a ∈ r, ¬ Literal a.node) (Yields.attempt ?_)
      fun found h => Yields.pure ?_
    · refine Yields.bind fun types => Yields.bind fun b => Yields.ite ?_ (Yields.bind fun l => ?_)
      · exact Yields.bind fun _ => Yields.bind fun _ => Yields.pure (not_literal_call _ _)
      · split
        · exact Yields.bind fun _ => Yields.bind fun _ => Yields.pure (not_literal_group _)
        · exact Yields.bind fun _ => Yields.bind fun _ => Yields.pure (not_literal_group _)
    · rintro ⟨x, b⟩ mem
      rcases Option.map_eq_some_iff.1 mem with ⟨y, hy, heq⟩
      rcases Prod.mk.inj heq with ⟨rfl, rfl⟩
      exact h y hy
  · refine Yields.bind fun typed => Yields.ite ?_ (Yields.pure noStringStep_none)
    refine Yields.attempt (P := fun x : Expr × Bool => ¬ Literal x.1.node) ?_
    exact Yields.bind fun _ => Yields.bind fun _ => Yields.pure (not_literal_call _ _)
  · exact Yields.pure noStringStep_none

theorem tail_yields (calls : Bool) (fuel : Nat) :
    ∀ (inChain : Bool) (e : Expr), ¬ Literal e.node →
      Yields (fun x => ¬ Literal x.node) (g.tail calls fuel inChain e) := by
  induction fuel with
  | zero => exact fun _ _ _ => Yields.failure
  | succ fuel ih =>
      intro inChain e h
      refine Yields.bind_of (tailStep_yields calls inChain e) fun r hr => ?_
      cases r with
      | none =>
          refine Yields.ite (Yields.pure ?_) (Yields.pure h)
          exact not_literal_access (by simp [plain]) (by simp [plain])
      | some x => exact ih x.2 x.1 (hr x rfl)

/-! ## A string that ends its statement -/

/-- The tokens that are read as an access or a call. -/
def startsTail : Token → Bool
  | .template _ _ => true
  | .punctuator p => [".", "[", "(", "?."].contains p
  | _ => false

/-- Where no access and no call is read, none starts, and nothing is read. -/
theorem tailStep_none {e : Expr} {k' : Lexeme} (free : c.decorator = false)
    (run : g.tailStep true false e c k = some (none, k')) :
    k' = k ∧ startsTail k.token = false := by
  cases token : k.token with
  | punctuator p =>
      by_cases starts : p ∈ [".", "[", "(", "?."]
      · -- these productions have a result with an expression or none at all
        exfalso
        simp only [tailStep, run_bind, run_get, Option.bind_some, token] at run
        simp only [List.mem_cons, List.not_mem_nil, or_false] at starts
        rcases starts with rfl | rfl | rfl | rfl
        · simp [Option.bind_eq_some_iff] at run
        · simp [free] at run
        · simp [Option.bind_eq_some_iff] at run
        · refine Yields.of_run (P := (· ≠ none)) run ?_ rfl
          refine Yields.bind fun _ => Yields.bind fun _ => Yields.bind fun next => ?_
          split
          · exact Yields.bind fun _ => Yields.pure (by simp)
          · exact Yields.bind fun _ => Yields.pure (by simp)
          · exact Yields.bind fun _ => Yields.bind fun _ => Yields.bind fun _ =>
              Yields.bind fun _ => Yields.pure (by simp)
          · exact Yields.failure
          · exact Yields.bind fun _ => Yields.pure (by simp)
      · refine ⟨?_, by simpa [startsTail] using starts⟩
        -- type arguments are tried, and what is tried in vain is not read
        by_cases types : p ∈ ["!", "<", "<<"]
        · simp only [List.mem_cons, List.not_mem_nil, or_false] at types
          rcases types with rfl | rfl | rfl
          · simp [tailStep, token] at run
            split at run <;> simp_all
          · simp [tailStep, token, -run_attempt] at run
            split at run
            · rcases Option.map_eq_some_iff.1 run with ⟨⟨found, left⟩, tried, same⟩
              rcases Prod.mk.inj same with ⟨nothing, rfl⟩
              rcases Option.map_eq_none_iff.1 nothing with rfl
              exact eq_of_attempt_eq_none tried
            · simp_all
          · simp [tailStep, token, -run_attempt] at run
            split at run
            · exact eq_of_attempt_eq_none run
            · simp_all
        · have nothing : g.tailStep true false e c k = some (none, k) := by
            simp only [tailStep, run_bind, run_get, Option.bind_some, token]
            refine run_congr (q := pure none) ?_ c k
            split <;> simp_all
          rw [nothing] at run
          simp_all
  | template valid closed => simp [tailStep, token] at run
  | _ => simp_all [tailStep, startsTail]

/-- Only an operand that nothing is read after remains a string. -/
theorem leftHandSide_literal {e : Expr} {k' : Lexeme} (free : c.decorator = false)
    (string : l.token = .string value) (next : Lexeme.read? l.rest = some k)
    (run : g.leftHandSideExpression c l = some (e, k')) (literal : Literal e.node) :
    k' = k ∧ startsTail k.token = false := by
  have tail : g.tail true maxTokens false (plain (.string value)) c k = some (e, k') := by
    simpa [leftHandSideExpression, primary_of_string string next] using run
  rw [maxTokens_eq, Grammar.tail, run_bind, Option.bind_eq_some_iff] at tail
  rcases tail with ⟨⟨r, k''⟩, step, tail⟩
  cases r with
  | none =>
      rcases tailStep_none free step with ⟨rfl, ends⟩
      simp at tail
      exact ⟨tail.2.symm, ends⟩
  | some x =>
      have changed := Yields.of_run step (tailStep_yields true false (plain (.string value))) x rfl
      have further := tail_yields (g := g) true (maxLength + 1) x.2 x.1 changed
      exact absurd literal (further c k'' e k' tail)

theorem updateExpression_literal {e : Expr} {k' : Lexeme} (string : l.token = .string value)
    (run : g.updateExpression c l = some (e, k')) (literal : Literal e.node) :
    g.leftHandSideExpression c l = some (e, k') := by
  simp only [updateExpression, run_bind, run_sees, not_isPunctuator_of_string string,
    Option.bind_some] at run
  rw [Bool.or_self, if_neg Bool.false_ne_true] at run
  rcases run_bind_eq_some.1 run with ⟨first, k'', operand, run⟩
  simp only [run_bind, run_sees, run_newlineBefore, Option.bind_some, run_ite] at run
  split at run
  · have changed : Yields (fun x => ¬ Literal x.node) (do
        guard (first.target = .simple)
        advance
        return plain (.group [first.node])) :=
      Yields.bind fun _ => Yields.bind fun _ => Yields.pure (not_literal_group _)
    exact absurd literal (changed c k'' e k' run)
  · obtain ⟨rfl, rfl⟩ : first = e ∧ k'' = k' := by simpa using run
    exact operand

/-- Where no operator is read, nothing is. -/
theorem operation_none {k' : Lexeme} (run : g.operation c k = some (none, k')) :
    k' = k ∧ binaryOperator? c.inOperator k = none := by
  rw [operation, run_bind, run_binaryOperator, Option.bind_some] at run
  cases found : binaryOperator? c.inOperator k with
  | none =>
      simp only [found] at run
      refine ⟨?_, rfl⟩
      simp at run
      split at run
      · simp [Option.bind_eq_some_iff] at run
      · simpa [eq_comm] using run
  | some o =>
      simp [found, Option.bind_eq_some_iff] at run

theorem many_operation_nil {k' : Lexeme} (run : many g.operation c k = some ([], k')) :
    k' = k ∧ binaryOperator? c.inOperator k = none := by
  rw [many, maxTokens_eq, repeatUntilNone] at run
  rcases run_bind_eq_some.1 run with ⟨o, k'', operator, rounds⟩
  cases o with
  | none =>
      have last : k'' = k' := by simpa using rounds
      rcases operation_none operator with ⟨same, nothing⟩
      exact ⟨last.symm.trans same, nothing⟩
  | some o => simp [Option.bind_eq_some_iff] at rounds

theorem binaryExpression_literal {e : Expr} {k' : Lexeme} (string : l.token = .string value)
    (run : g.binaryExpression c l = some (e, k')) (literal : Literal e.node)
    (valid : e.patternOnly = false) :
    g.updateExpression c l = some (e, k') ∧ binaryOperator? c.inOperator k' = none := by
  rcases run_bind_eq_some.1 run with ⟨r, k'', operand, run⟩
  rw [operandOrPrivateName_of_string string] at operand
  rcases Option.map_eq_some_iff.1 operand with ⟨⟨first, _⟩, update, same⟩
  rcases Prod.mk.inj same with ⟨rfl, rfl⟩
  simp only [run_ite] at run
  split at run
  · rename_i pattern
    obtain ⟨rfl, rfl⟩ : first = e ∧ _ = k' := by simpa using run
    simp [valid] at pattern
  · rcases run_bind_eq_some.1 run with ⟨more, k3, operations, run⟩
    cases more with
    | cons o more =>
        rw [if_neg (by simp)] at run
        refine absurd literal (Yields.of_run (P := fun x => ¬ Literal x.node) run ?_)
        refine Yields.bind fun _ => Yields.bind fun _ => Yields.ite ?_ ?_
        · exact Yields.pure (not_literal_group _)
        · exact Yields.pure (not_literal_group _)
    | nil =>
        obtain ⟨rfl, rfl⟩ : first = e ∧ k3 = k' := by simpa using run
        rcases many_operation_nil operations with ⟨rfl, nothing⟩
        exact ⟨update, nothing⟩

theorem conditionalExpression_literal {e : Expr} {k' : Lexeme}
    (run : g.conditionalExpression c l = some (e, k')) (literal : Literal e.node)
    (valid : e.patternOnly = false) :
    g.binaryExpression c l = some (e, k') ∧ k'.isPunctuator "?" = false := by
  rcases run_bind_eq_some.1 run with ⟨test, k'', operand, run⟩
  rcases run_bind_eq_some.1 run with ⟨b, k3, mark, run⟩
  rw [run_ite] at run
  split at run
  · refine absurd literal (Yields.of_run (P := fun x => ¬ Literal x.node) run ?_)
    exact Yields.bind fun _ => Yields.bind fun _ => Yields.bind fun _ =>
      Yields.pure (not_literal_group _)
  · rename_i unmarked
    obtain ⟨rfl, rfl⟩ : test = e ∧ k3 = k' := by simpa using run
    obtain rfl : b = false := by simpa [valid] using unmarked
    cases sees : k''.isPunctuator "?" with
    | true => simp [accept, sees] at mark
    | false =>
        rw [run_accept_of_not sees] at mark
        obtain rfl : k'' = k3 := by simpa using mark
        exact ⟨operand, sees⟩

theorem assignmentExpression_literal {e : Expr} {k' : Lexeme} (string : l.token = .string value)
    (run : g.assignmentExpression c l = some (e, k')) (literal : Literal e.node) :
    g.conditionalExpression { c with consequent := false } l = some (e, k') ∧
      assignmentOperator? k' = none := by
  rw [assignmentExpression, run_bind, run_read, Option.bind_some, run_within] at run
  simp only [run_bind, run_seesWord, not_isWord_of_string string, Option.bind_some] at run
  rw [if_neg (by simp)] at run
  rcases run_bind_eq_some.1 run with ⟨n, k3, arrow, run⟩
  obtain ⟨rfl, rfl⟩ : none = n ∧ l = k3 := by simpa [arrowFunction, string] using arrow
  rcases run_bind_eq_some.1 run with ⟨left, k'', operand, run⟩
  rw [run_bind, run_assignmentOperator, Option.bind_some] at run
  cases operator : assignmentOperator? k'' with
  | none =>
      obtain ⟨rfl, rfl⟩ : left = e ∧ k'' = k' := by simpa [operator] using run
      exact ⟨operand, operator⟩
  | some o =>
      simp only [operator] at run
      refine absurd literal (Yields.of_run (P := fun x => ¬ Literal x.node) run ?_)
      exact Yields.bind fun _ => Yields.bind fun _ => Yields.bind fun _ =>
        Yields.pure (not_literal_group _)

theorem sequenceExpression_literal {e : Expr} {k' : Lexeme}
    (run : g.sequenceExpression c l = some (e, k')) (literal : Literal e.node)
    (valid : e.patternOnly = false) :
    g.assignmentExpression c l = some (e, k') ∧ k'.isPunctuator "," = false := by
  rcases run_bind_eq_some.1 run with ⟨first, k'', operand, run⟩
  rw [run_bind, run_sees, Option.bind_some, run_ite] at run
  split at run
  · refine absurd literal (Yields.of_run (P := fun x => ¬ Literal x.node) run ?_)
    exact Yields.bind fun _ => Yields.pure (not_literal_group _)
  · rename_i unmarked
    obtain ⟨rfl, rfl⟩ : first = e ∧ k'' = k' := by simpa using run
    exact ⟨operand, by simpa [valid] using unmarked⟩

/-- An expression that begins with a string and is a string ends before the next token, which does
not go on with it. -/
theorem detached_of_literal {e : Expr} {k' : Lexeme} (free : c.decorator = false)
    (operators : c.inOperator = true) (string : l.token = .string value)
    (next : Lexeme.read? l.rest = some k) (run : g.sequenceExpression c l = some (e, k'))
    (literal : Literal e.node) (valid : e.patternOnly = false) :
    k.token.continues = false := by
  -- down the levels of expressions: on each the string is the whole, so no operator of it follows
  rcases sequenceExpression_literal run literal valid with ⟨run, comma⟩
  rcases assignmentExpression_literal string run literal with ⟨run, assigns⟩
  rcases conditionalExpression_literal run literal valid with ⟨run, mark⟩
  rcases binaryExpression_literal string run literal valid with ⟨run, operator⟩
  have run := updateExpression_literal string run literal
  rcases leftHandSide_literal (by exact free) string next run literal with ⟨rfl, ends⟩
  cases token : k'.token with
  | punctuator p =>
      -- a greater-than sign is put together with what follows it only where operators are read
      have greater : p ≠ ">" := by
        rintro rfl
        have read := (Lexeme.read?_eq_some.1 next).2
        rw [token] at read
        rcases Option.isSome_iff_exists.1 (greaterOperator?_isSome read) with ⟨o, found⟩
        simp [binaryOperator?, token, found, Option.filter] at operator
        simp [assignmentOperator?, token, found, Option.filter, operator] at assigns
      simp [startsTail, token] at ends
      simp [binaryOperator?, token, greater] at operator
      simp [assignmentOperator?, token, greater] at assigns
      simp [Lexeme.isPunctuator, token] at comma mark
      simp [Token.continues, greater, ends, operator, assigns, comma, mark]
  | name w escaped =>
      cases escaped <;> simp_all [Token.continues, binaryOperator?]
  | template valid closed => simp [token, startsTail] at ends
  | _ => rfl

end Grammar
end Script
end ClientBoundary
