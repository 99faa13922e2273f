import ClientBoundary.Proofs.Rules.Fixing
import ClientBoundary.Proofs.Rules.LeadingRun

/-!
# Fixing as a sequence of rounds

Fixing a file goes on in rounds. A round puts one line where the program starts, however many
findings ask for it, and there is a round exactly where something is found. So the loop of fixing
ends at the text that the rounds lead to: one in which nothing is found, one that is no program, or
the one after the last round that is allowed.

- `Front`: the first token of a text and its first statement;
- `Round`, `Rounds`: one round of fixing, and a number of them;
- `fixLoop_of_rounds`: rounds as steps of the loop;
- `exists_rounds`: where rounds lead to;
- `fix_rounds`: what fixing returns, and when it fails.
-/

namespace ClientBoundary
namespace Rules

open Script (Lexeme Program Language)
open Script.Program (TopLevel firstLexeme? allStatements? ofStatements)
open Text (byteLength)

/-! ## The front of a text -/

theorem startsAt_ofStatements (text : List Char) (s : TopLevel) (more : List TopLevel) :
    StartsAt (ofStatements text (s :: more)) (ofStatements text (s :: more)).start := by
  cases directives : (ofStatements text (s :: more)).directives with
  | cons d rest =>
      rw [Program.start, directives]
      exact .directive directives
  | nil =>
      cases body : (ofStatements text (s :: more)).body with
      | cons item rest =>
          rw [Program.start, directives, body]
          exact .statement directives body
      | nil => cases value : s.stringValue? <;> simp [ofStatements, value] at directives body

/-- The first token of a text and its first statement, which begins there or behind decorators. -/
structure Front (path text : String) (s : TopLevel) (more : List TopLevel) (l : Lexeme)
    (before decorators : List Char) : Prop where
  room : byteLength text.toList ≤ Script.maxLength
  statements : allStatements? (.ofPath path) text.toList = some (s :: more)
  first : firstLexeme? text.toList = some l
  going : l.token ≠ .eof
  shape : text.toList = before ++ l.text
  behind : l.text = decorators ++ s.text
  place : decorators = [] ∨ l.token = .punctuator "@"

namespace Front

variable {path text : String} {s : TopLevel} {more : List TopLevel} {l : Lexeme}
  {before decorators : List Char} (front : Front path text s more l before decorators)

include front

theorem parse?_eq :
    Program.parse? (.ofPath path) text = some (ofStatements text.toList (s :: more)) :=
  parse?_eq_some.2 ⟨front.room, _, front.statements, rfl⟩

theorem start_eq :
    (ofStatements text.toList (s :: more)).start = byteLength (before ++ decorators) :=
  Rules.start_eq front.shape front.behind

theorem startsAt :
    StartsAt (ofStatements text.toList (s :: more)) (byteLength (before ++ decorators)) := by
  rw [← front.start_eq]
  exact startsAt_ofStatements _ _ _

theorem split : text.toList = before ++ decorators ++ s.text := by
  rw [front.shape, front.behind, List.append_assoc]

end Front

/-- The front of a text in which something is found. -/
theorem front_of_found {c : Config} {path text : String} {findings : List Finding}
    (linted : c.lint path text = .ok findings) (found : findings ≠ []) :
    ∃ s more l before decorators, Front path text s more l before decorators ∧
      c.lintProgram path text (ofStatements text.toList (s :: more)) = findings := by
  rcases lint_eq_ok_iff.1 linted with ⟨program, read, rfl⟩
  rcases exists_statements read found with ⟨room, s, more, statements, rfl⟩
  rcases exists_split statements with
    ⟨-, l, before, decorators, first, going, shape, behind, place⟩
  exact ⟨s, more, l, before, decorators,
    ⟨room, statements, first, going, shape, behind, place⟩, rfl⟩

/-! ## One round -/

/-- One round of fixing: something is found in a text, and of all that the findings ask for one
insertion takes place, of the line where the program of the text starts. -/
structure Round (c : Config) (path text next : String) : Prop where
  applied : ∃ findings, c.lint path text = .ok findings ∧ findings ≠ [] ∧
    Text.insertAll text (Config.fixes findings) = (next, 1)
  inserted : ∃ program before after, Program.parse? (.ofPath path) text = some program ∧
    StartsAt program (byteLength before) ∧ text.toList = before ++ after ∧
    next.toList = before ++ useClientLine.toList ++ after

/-- Where something is found, there is a round. -/
theorem exists_round {c : Config} {path text : String} {findings : List Finding}
    (linted : c.lint path text = .ok findings) (found : findings ≠ []) :
    ∃ next, Round c path text next := by
  rcases front_of_found linted found with ⟨s, more, l, before, decorators, front, rfl⟩
  exact ⟨_, ⟨_, linted, found, insertAll_fixes_eq front.split front.start_eq found⟩,
    _, _, _, front.parse?_eq, front.startsAt, front.split, String.toList_ofList⟩

namespace Round

variable {c : Config} {path text next other : String}

theorem unique (here : Round c path text next) (there : Round c path text other) :
    next = other := by
  rcases here.applied with ⟨findings, linted, -, once⟩
  rcases there.applied with ⟨findings', again, -, twice⟩
  rcases Except.ok.inj (linted.symm.trans again) with rfl
  exact congrArg Prod.fst (once.symm.trans twice)

theorem byteLength_eq (round : Round c path text next) :
    byteLength next.toList = byteLength text.toList + byteLength useClientLine.toList := by
  rcases round.inserted with ⟨-, before, after, -, -, shape, shape'⟩
  rw [shape, shape']
  simp only [Text.byteLength_append]
  omega

theorem sublist (round : Round c path text next) : text.toList.Sublist next.toList := by
  rcases round.inserted with ⟨-, before, after, -, -, shape, shape'⟩
  rw [shape, shape', List.append_assoc]
  exact (List.Sublist.refl before).append (List.sublist_append_right _ after)

theorem not_clean (round : Round c path text next) : c.lint path text ≠ .ok [] := by
  rcases round.applied with ⟨findings, linted, found, -⟩
  intro clean
  exact found (Except.ok.inj (linted.symm.trans clean))

/-- A round is a step of the loop. -/
theorem fixLoop_eq (round : Round c path text next) (passes : Nat) (fixed : Bool) :
    c.fixLoop path (passes + 1) text fixed = c.fixLoop path passes next true := by
  rcases round.applied with ⟨findings, linted, found, once⟩
  have asked : (Config.fixes findings).isEmpty = false := by
    rcases lint_eq_ok_iff.1 linted with ⟨program, -, rfl⟩
    simpa using fixes_ne_nil found
  simp [Config.fixLoop, linted, once, asked]

end Round

/-! ## Sequences of rounds -/

/-- A number of rounds, one after the other. -/
inductive Rounds (c : Config) (path : String) : Nat → String → String → Prop where
  | none (text : String) : Rounds c path 0 text text
  | more {k : Nat} {text next last : String} :
      Round c path text next → Rounds c path k next last → Rounds c path (k + 1) text last

namespace Rounds

variable {c : Config} {path text last : String} {k : Nat}

theorem one {next : String} (round : Round c path text next) : Rounds c path 1 text next :=
  .more round (.none next)

/-- A text grows by the length of the line in every round. -/
theorem byteLength_eq (rounds : Rounds c path k text last) :
    byteLength last.toList = byteLength text.toList + k * byteLength useClientLine.toList := by
  induction rounds with
  | none text => simp
  | more round _ ih =>
      rw [ih, round.byteLength_eq, Nat.succ_mul]
      omega

/-- Rounds keep every character of a text, in its order. -/
theorem sublist (rounds : Rounds c path k text last) : text.toList.Sublist last.toList := by
  induction rounds with
  | none text => exact List.Sublist.refl _
  | more round _ ih => exact round.sublist.trans ih

theorem pos_iff (rounds : Rounds c path k text last) : 0 < k ↔ last ≠ text := by
  have grown := rounds.byteLength_eq
  rw [show byteLength useClientLine.toList = 13 by decide] at grown
  constructor
  · rintro some_ rfl
    omega
  · intro changed
    cases rounds with
    | none => exact absurd rfl changed
    | more => exact Nat.succ_pos _

/-- Rounds are steps of the loop. -/
theorem fixLoop_eq (rounds : Rounds c path k text last) (passes : Nat) (fixed : Bool) :
    c.fixLoop path (k + passes) text fixed =
      c.fixLoop path passes last (fixed || decide (0 < k)) := by
  induction rounds generalizing fixed with
  | none text => simp
  | more round _ ih =>
      rw [Nat.add_right_comm, round.fixLoop_eq, ih]
      simp

end Rounds

/-! ## The loop -/

section Loop

variable (c : Config) (path : String)

/-- Where rounds lead to: to a text in which nothing is found, or that is no program, or they go on
for as long as they may. -/
theorem exists_rounds (passes : Nat) (text : String) :
    ∃ k ≤ passes, ∃ last, Rounds c path k text last ∧
      (c.lint path last = .ok [] ∨ Program.parse? (.ofPath path) last = none ∨ k = passes) := by
  -- as long as something is found there is a round, and one pass less for what it leads to
  induction passes generalizing text with
  | zero => exact ⟨0, Nat.le_refl 0, text, .none text, .inr (.inr rfl)⟩
  | succ passes ih =>
      cases linted : c.lint path text with
      | error e =>
          have unread := (lint_eq_error_iff.1 linted).2
          exact ⟨0, Nat.zero_le _, text, .none text, .inr (.inl unread)⟩
      | ok findings =>
          by_cases found : findings = []
          · rw [found] at linted
            exact ⟨0, Nat.zero_le _, text, .none text, .inl linted⟩
          · rcases exists_round linted found with ⟨next, round⟩
            rcases ih next with ⟨k, le, last, rounds, ends⟩
            refine ⟨k + 1, by omega, last, .more round rounds, ?_⟩
            simpa using ends

variable {c path}

theorem fixLoop_of_clean {text : String} (clean : c.lint path text = .ok []) (passes : Nat)
    (fixed : Bool) : c.fixLoop path passes text fixed = .ok ⟨text, fixed, []⟩ := by
  cases passes with
  | zero => simp [Config.fixLoop, clean]
  | succ passes => simp [Config.fixLoop, clean, Config.fixes]

theorem fixLoop_of_unparsable {text : String}
    (unread : Program.parse? (.ofPath path) text = none) (passes : Nat) (fixed : Bool) :
    c.fixLoop path passes text fixed = .error (.unparsable path) := by
  have linted : c.lint path text = .error (.unparsable path) :=
    lint_eq_error_iff.2 ⟨rfl, unread⟩
  cases passes with
  | zero => simp [Config.fixLoop, linted]
  | succ passes => simp [Config.fixLoop, linted]

variable {source last : String} {k : Nat}

/-- Fixing from the text on that rounds lead to. -/
theorem fix_eq_of_rounds (rounds : Rounds c path k source last) (le : k ≤ maxFixPasses) :
    c.fix path source = c.fixLoop path (maxFixPasses - k) last (decide (0 < k)) := by
  obtain ⟨passes, split⟩ : ∃ passes, maxFixPasses = k + passes := Nat.exists_eq_add_of_le le
  rw [Config.fix, split, rounds.fixLoop_eq, Bool.false_or, Nat.add_sub_cancel_left]

theorem fix_of_rounds {findings : List Finding} (rounds : Rounds c path k source last)
    (le : k ≤ maxFixPasses) (linted : c.lint path last = .ok findings)
    (ends : findings = [] ∨ k = maxFixPasses) :
    c.fix path source = .ok ⟨last, decide (0 < k), findings⟩ := by
  rw [fix_eq_of_rounds rounds le]
  rcases ends with rfl | rfl
  · exact fixLoop_of_clean linted _ _
  · simp [Config.fixLoop, linted]

theorem fix_of_unparsable (rounds : Rounds c path k source last) (le : k ≤ maxFixPasses)
    (unread : Program.parse? (.ofPath path) last = none) :
    c.fix path source = .error (.unparsable path) := by
  rw [fix_eq_of_rounds rounds le]
  exact fixLoop_of_unparsable unread _ _

/-- Either rounds lead to a result of fixing, or to a text that is no program. -/
theorem fix_cases (c : Config) (path source : String) :
    ∃ k ≤ maxFixPasses, ∃ last, Rounds c path k source last ∧
      ((∃ findings, c.lint path last = .ok findings ∧ (findings = [] ∨ k = maxFixPasses)) ∨
        Program.parse? (.ofPath path) last = none) := by
  rcases exists_rounds c path maxFixPasses source with ⟨k, le, last, rounds, ends⟩
  refine ⟨k, le, last, rounds, ?_⟩
  -- the text after the last round that is allowed is linted as well, and may be no program
  rcases ends with clean | unread | limit
  · exact .inl ⟨[], clean, .inl rfl⟩
  · exact .inr unread
  · cases linted : c.lint path last with
    | error e => exact .inr (lint_eq_error_iff.1 linted).2
    | ok findings => exact .inl ⟨findings, rfl, .inr limit⟩

/-- What fixing returns is the text that rounds lead to, with its findings. -/
theorem fix_eq_ok_iff {r : Fixed} :
    c.fix path source = .ok r ↔
      ∃ k ≤ maxFixPasses, Rounds c path k source r.output ∧
        c.lint path r.output = .ok r.remaining ∧ (r.fixed = true ↔ 0 < k) ∧
        (r.remaining = [] ∨ k = maxFixPasses) := by
  constructor
  · intro fixed
    -- the loop can be run along the rounds, whatever they lead to
    rcases fix_cases c path source with
      ⟨k, le, last, rounds, ⟨findings, linted, ends⟩ | unread⟩
    · rw [fix_of_rounds rounds le linted ends] at fixed
      rcases Except.ok.inj fixed with rfl
      exact ⟨k, le, rounds, linted, decide_eq_true_iff, ends⟩
    · simp [fix_of_unparsable rounds le unread] at fixed
  · rintro ⟨k, le, rounds, linted, flag, ends⟩
    have same : decide (0 < k) = r.fixed := by
      rw [Bool.eq_iff_iff, decide_eq_true_iff, flag]
    rw [fix_of_rounds rounds le linted ends, same]

/-- Fixing fails where rounds lead to a text that is no program. -/
theorem fix_eq_error_iff {e : Failure} :
    c.fix path source = .error e ↔
      e = .unparsable path ∧ ∃ k ≤ maxFixPasses, ∃ text, Rounds c path k source text ∧
        Program.parse? (.ofPath path) text = none := by
  constructor
  · intro failed
    rcases fix_cases c path source with
      ⟨k, le, last, rounds, ⟨findings, linted, ends⟩ | unread⟩
    · simp [fix_of_rounds rounds le linted ends] at failed
    · rw [fix_of_unparsable rounds le unread] at failed
      exact ⟨(Except.error.inj failed).symm, k, le, last, rounds, unread⟩
  · rintro ⟨rfl, k, le, last, rounds, unread⟩
    exact fix_of_unparsable rounds le unread

end Loop

/-- Fixing ends at the text that at most `maxFixPasses` rounds lead to, with its findings, of which
there are none before the last of these rounds. It tells whether the text is another one, keeps
every character of it in order, and fails exactly when one of the texts on the way is no
program. -/
theorem fix_rounds (c : Config) (path source : String) :
    (∀ r, c.fix path source = .ok r ↔
      ∃ k ≤ maxFixPasses, Rounds c path k source r.output ∧
        c.lint path r.output = .ok r.remaining ∧ (r.fixed = true ↔ 0 < k) ∧
        (r.remaining = [] ∨ k = maxFixPasses)) ∧
      (∀ r, c.fix path source = .ok r →
        (r.fixed = true ↔ r.output ≠ source) ∧ source.toList.Sublist r.output.toList) ∧
      ∀ e, c.fix path source = .error e ↔
        e = .unparsable path ∧ ∃ k ≤ maxFixPasses, ∃ text, Rounds c path k source text ∧
          Program.parse? (.ofPath path) text = none := by
  refine ⟨fun r => fix_eq_ok_iff, fun r fixed => ?_, fun e => fix_eq_error_iff⟩
  rcases fix_eq_ok_iff.1 fixed with ⟨k, -, rounds, -, flag, -⟩
  exact ⟨flag.trans rounds.pos_iff, rounds.sublist⟩

/-- Before a parenthesis it takes two rounds. -/
theorem fix_rounds_handler :
    ∃ r, (Config.recommended "/").fix "/a.tsx" "(<a onB/>)" = .ok r ∧
      r.output = "'use client'\n'use client'\n(<a onB/>)" ∧ r.fixed = true ∧ r.remaining = [] ∧
      Rounds (Config.recommended "/") "/a.tsx" 2 "(<a onB/>)" r.output := by
  have run : ((Config.recommended "/").fix "/a.tsx" "(<a onB/>)").toOption.map
      (fun r => (r.output, r.remaining)) = some ("'use client'\n'use client'\n(<a onB/>)", []) := by
    decide +kernel
  cases fixed : (Config.recommended "/").fix "/a.tsx" "(<a onB/>)" with
  | error e => simp [fixed, Except.toOption] at run
  | ok r =>
      obtain ⟨output, remaining⟩ : r.output = "'use client'\n'use client'\n(<a onB/>)" ∧
          r.remaining = [] := by
        simpa [fixed, Except.toOption] using run
      rcases fix_rounds (Config.recommended "/") "/a.tsx" "(<a onB/>)" with ⟨loop, kept, -⟩
      rcases (loop r).1 fixed with ⟨k, -, rounds, -, -, -⟩
      have changed : r.fixed = true := by
        rw [(kept r fixed).1, output]
        decide
      -- two lines make the text longer by twice the length of one
      have grown := rounds.byteLength_eq
      have lengths : byteLength useClientLine.toList = 13 ∧
          byteLength r.output.toList = byteLength "(<a onB/>)".toList + 26 := by
        rw [output]
        decide
      rw [lengths.1, lengths.2] at grown
      obtain rfl : k = 2 := by omega
      exact ⟨r, rfl, output, changed, remaining, rounds⟩

end Rules
end ClientBoundary
