import ClientBoundary.Proofs.Script.Running
import ClientBoundary.Script.Grammar.Modules

/-!
# Statements that begin with a decorator

A decorator begins a class or an export, and both are groups of parts.

- `Yields IsGroup p`: everything that a production reads is a group;
- `moduleItem_of_decorated`: so is a statement that begins with a decorator.
-/

namespace ClientBoundary
namespace Script
namespace Grammar

open Script.Parser

variable {g : Grammar} {c : Context} {k l : Lexeme}

/-! ## Declarations -/

/-- A group of parts, which is no expression. -/
def IsGroup (n : Node) : Prop :=
  ∃ parts, n = .group parts

theorem decorators_ne_nil {decorators : List Node} (mark : l.isPunctuator "@" = true)
    (run : g.decorators c l = some (decorators, k)) : decorators ≠ [] := by
  rw [Grammar.decorators, many, maxTokens_eq, repeatUntilNone] at run
  rcases run_bind_eq_some.1 run with ⟨first, m, round, run⟩
  cases first with
  | none =>
      cases found : g.decorator c l <;> simp [mark, found] at round
  | some n =>
      rcases run_bind_eq_some.1 run with ⟨more, m', -, run⟩
      obtain ⟨rfl, -⟩ : n :: more = decorators ∧ m' = k := by simpa using run
      simp

theorem classDeclaration_yields (before : List Node) (nameless : Bool) :
    Yields IsGroup (g.classDeclaration before nameless) :=
  Yields.bind fun _ => Yields.bind fun _ => Yields.bind fun _ => Yields.bind fun _ =>
    Yields.pure ⟨_, rfl⟩

theorem functionDeclaration_yields (isAsync nameless : Bool) :
    Yields IsGroup (g.functionDeclaration isAsync nameless) := by
  refine Yields.bind fun _ => Yields.bind fun _ => Yields.bind fun _ => Yields.ite ?_ ?_
  · exact Yields.bind fun _ => Yields.bind fun _ => Yields.bind fun _ => Yields.pure ⟨_, rfl⟩
  · exact Yields.bind fun _ => Yields.bind fun _ => Yields.bind fun _ => Yields.pure ⟨_, rfl⟩

theorem interfaceDeclaration_yields : Yields IsGroup g.interfaceDeclaration := by
  refine Yields.bind fun _ => Yields.bind fun _ => Yields.bind fun _ => Yields.ite ?_ ?_
  · exact Yields.bind fun _ => Yields.bind fun _ => Yields.pure ⟨_, rfl⟩
  · exact Yields.bind fun _ => Yields.bind fun _ => Yields.pure ⟨_, rfl⟩

theorem decoratedClass_yields (before : List Node) : Yields IsGroup (g.decoratedClass before) := by
  refine Yields.bind fun _ => Yields.ite ?_ ?_
  · exact Yields.bind fun _ => classDeclaration_yields before false
  · exact classDeclaration_yields before false

/-! ## Exports -/

theorem exportList_yields (typesOnly : Bool) : Yields IsGroup (g.exportList typesOnly) := by
  refine Yields.bind fun _ => Yields.bind fun _ => Yields.bind fun _ => Yields.ite ?_ ?_
  · exact Yields.bind fun _ => Yields.pure ⟨_, rfl⟩
  · exact Yields.bind fun _ => Yields.bind fun _ => Yields.bind fun _ => Yields.pure ⟨_, rfl⟩

theorem exportAll_yields : Yields IsGroup g.exportAll := by
  refine Yields.bind fun _ => Yields.bind fun _ => Yields.ite ?_ ?_
  · exact Yields.bind fun _ => Yields.bind fun _ => Yields.pure ⟨_, rfl⟩
  · exact Yields.bind fun _ => Yields.pure ⟨_, rfl⟩

theorem exportDefault_yields (before : List Node) : Yields IsGroup (g.exportDefault before) := by
  refine Yields.bind fun _ => Yields.bind fun _ => Yields.ite ?_ ?_
  · exact functionDeclaration_yields false true
  refine Yields.bind fun _ => Yields.ite ?_ ?_
  · exact Yields.bind fun _ => functionDeclaration_yields true true
  refine Yields.bind fun _ => Yields.bind fun _ => Yields.ite ?_ ?_
  · exact Yields.bind fun _ => classDeclaration_yields _ true
  refine Yields.bind fun _ => Yields.bind fun _ => Yields.bind fun _ => Yields.ite ?_ ?_
  · exact Yields.bind fun _ => classDeclaration_yields _ true
  refine Yields.bind fun _ => Yields.bind fun _ => Yields.bind fun _ => Yields.ite ?_ ?_
  · exact Yields.bind fun _ => interfaceDeclaration_yields
  · exact Yields.bind fun _ => Yields.bind fun _ => Yields.pure ⟨_, rfl⟩

theorem importAlias_yields (typesOnly : Bool) : Yields IsGroup (g.importAlias typesOnly) := by
  refine Yields.bind fun _ => Yields.bind fun _ => Yields.bind fun _ => Yields.bind fun _ =>
    Yields.ite ?_ ?_
  · refine Yields.bind fun _ => Yields.bind fun _ => Yields.bind fun _ => Yields.bind fun _ =>
      Yields.bind fun _ => Yields.bind fun _ => Yields.pure ⟨_, rfl⟩
  · exact Yields.bind fun _ => Yields.bind fun _ => Yields.pure ⟨_, rfl⟩

theorem exportDeclaration_yields {before : List Node} (decorated : before ≠ []) :
    Yields (fun s => IsGroup s.node) (g.exportDeclaration before) := by
  refine Yields.bind fun _ => Yields.bind fun _ => Yields.ite (Yields.map ?_) ?_
  · exact exportAll_yields
  refine Yields.bind fun _ => Yields.ite (Yields.map ?_) ?_
  · exact exportList_yields false
  refine Yields.bind fun _ => Yields.ite (Yields.map ?_) ?_
  · exact exportDefault_yields before
  refine Yields.bind fun _ => Yields.bind fun _ => Yields.ite ?_ ?_
  · exact Yields.bind fun _ => Yields.bind fun _ => Yields.pure ⟨_, rfl⟩
  refine Yields.bind fun _ => Yields.bind fun _ => Yields.bind fun _ => Yields.ite ?_ ?_
  · exact Yields.bind fun _ => Yields.bind fun _ => Yields.bind fun _ => Yields.bind fun _ =>
      Yields.pure ⟨_, rfl⟩
  refine Yields.bind fun _ => Yields.bind fun _ => Yields.bind fun _ => Yields.ite ?_ ?_
  · refine Yields.bind fun _ => Yields.bind fun _ => Yields.ite (Yields.map ?_) (Yields.map ?_)
    · exact exportAll_yields
    · exact exportList_yields true
  refine Yields.bind fun _ => Yields.ite ?_ ?_
  · have aliased (typesOnly : Bool) :
        Yields (fun s => IsGroup s.node) (do return stmt (← g.importAlias typesOnly)) :=
      Yields.bind_of (importAlias_yields typesOnly) fun n hn => Yields.pure hn
    refine Yields.bind fun _ => Yields.bind fun typesOnly => Yields.ite ?_ ?_
    · exact Yields.bind fun _ => aliased typesOnly
    · exact aliased typesOnly
  · rw [exportedDeclaration, if_neg (by simpa using decorated)]
    exact Yields.map (decoratedClass_yields before)

/-! ## Statements -/

/-- What begins with a decorator is a class or an export, and no expression. -/
theorem moduleItem_of_decorated {s : Stmt} (mark : l.token = .punctuator "@")
    (run : g.moduleItem c l = some (s, k)) : IsGroup s.node := by
  have seen : l.isPunctuator "@" = true := by simp [Lexeme.isPunctuator, mark]
  have no_word : ∀ w, l.isWord w = false := isWord_of_other (by simp [mark])
  have typed : g.typedDeclaration c l = some (none, l) := by
    simp [typedDeclaration, run_nextIs, mark]
  have keyword : variableKeyword c l = some (none, l) := by
    simp [variableKeyword, seesLexicalLet, seesUsing, run_nextIs, no_word]
  have item {s : Stmt} {k : Lexeme} (run : g.statementItem c l = some (s, k)) : IsGroup s.node := by
    rcases run_bind_eq_some.1 run with ⟨found, m, declared, run⟩
    simp [declaration, typed, valueDeclaration, keyword, seen, Option.bind_eq_some_iff] at declared
    rcases declared with ⟨decorators, m', -, n, class_, rfl⟩
    obtain ⟨rfl, -⟩ : stmt n = s ∧ m = k := by simpa using run
    exact decoratedClass_yields decorators c m' n m class_
  rcases run_bind_eq_some.1 run with ⟨c', _, reads, run⟩
  obtain ⟨rfl, rfl⟩ : c = c' ∧ l = _ := by simpa using reads
  rw [run_ite] at run
  -- only in a module the decorators are tried as those of an export
  split at run
  · simp [no_word, run_nextIs, -run_attempt] at run
    cases tried : g.decorators c l with
    | none =>
        simp [seen, tried] at run
        exact item run
    | some r =>
        rcases r with ⟨before, m⟩
        by_cases exported : m.isWord "export" = true
        · simp [seen, tried, exported] at run
          exact exportDeclaration_yields (decorators_ne_nil seen tried) c m s k run
        · simp [seen, tried, exported] at run
          exact item run
  · exact item run

end Grammar
end Script
end ClientBoundary
