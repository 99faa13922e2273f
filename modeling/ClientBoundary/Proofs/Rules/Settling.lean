import ClientBoundary.Proofs.Rules.Rounds

/-!
# How many rounds it takes

Once a line stands in front of the first token of a text, that token is a string, and the next line
is a directive. So two rounds are enough for a text whose program starts with its first token. A
program that starts behind decorators gets the line behind them, which may change how they are
read; then another program may start behind decorators in the next text, and so on.

- `StartsBehind`: the program of a text starts behind decorators;
- `Round.clean_of_detached`: a text is clean after a round in front of a token that does not go on
  with a string;
- `Round.detached`: the first token after a round is one of these;
- `fix_settles_iff`: when fixing is done after two rounds.
-/

namespace ClientBoundary
namespace Rules

open Script (Lexeme Program Language)
open Script.Program (TopLevel firstLexeme? allStatements? ofStatements stringLine)
open Text (byteLength)

/-! ## The front of a text -/

/-- The program of a text starts behind the decorators in front of it. -/
def StartsBehind (path text : String) : Prop :=
  ∃ program start l, Program.parse? (.ofPath path) text = some program ∧
    StartsAt program start ∧ firstLexeme? text.toList = some l ∧ l.token = .punctuator "@" ∧
    byteLength text.toList < start + byteLength l.text

theorem Front.startsBehind_iff {path text : String} {s : TopLevel} {more : List TopLevel}
    {l : Lexeme} {before decorators : List Char}
    (front : Front path text s more l before decorators) :
    StartsBehind path text ↔ decorators ≠ [] := by
  have start := front.start_eq
  have size := congrArg byteLength front.shape
  simp only [Text.byteLength_append] at start size
  constructor
  · rintro ⟨program, offset, l', read, starts, first, -, past⟩ rfl
    rcases Option.some.inj (front.parse?_eq.symm.trans read) with rfl
    rcases Option.some.inj (front.first.symm.trans first) with rfl
    rw [starts.eq_start, start, size] at past
    simp at past
  · intro proper
    have pos : byteLength decorators ≠ 0 := fun zero => proper (Text.byteLength_eq_zero zero)
    refine ⟨_, _, l, front.parse?_eq, front.startsAt, front.first,
      front.place.resolve_left proper, ?_⟩
    simp only [Text.byteLength_append]
    omega

/-! ## Two rounds -/

namespace Round

variable {c : Config} {path text next last : String}

/-- A round puts the line in front of the first statement. -/
theorem exists_front (round : Round c path text next) :
    ∃ s more l before decorators, Front path text s more l before decorators ∧
      c.lintProgram path text (ofStatements text.toList (s :: more)) ≠ [] ∧
      (Text.insertAll text (Config.fixes
        (c.lintProgram path text (ofStatements text.toList (s :: more))))).1 = next := by
  rcases round.applied with ⟨findings, linted, found, once⟩
  rcases front_of_found linted found with ⟨s, more, l, before, decorators, front, rfl⟩
  exact ⟨s, more, l, before, decorators, front, found, by rw [once]⟩

/-- The line is a directive in front of a token that does not go on with it. -/
theorem clean_of_detached {l : Lexeme} (round : Round c path text next)
    (ahead : ¬ StartsBehind path text) (first : firstLexeme? text.toList = some l)
    (detached : l.token.continues = false)
    (read : (Program.parse? (.ofPath path) next).isSome) : c.lint path next = .ok [] := by
  rcases round.exists_front with ⟨s, more, l', before, decorators, front, found, rfl⟩
  rcases Option.some.inj (front.first.symm.trans first) with rfl
  obtain rfl : decorators = [] := by
    by_contra proper
    exact ahead (front.startsBehind_iff.2 proper)
  refine lint_of_standsAlone front.statements front.first front.going front.shape front.behind
    found ⟨?_, l', front.first, detached, ?_⟩
  · rcases Option.isSome_iff_exists.1 read with ⟨program, read⟩
    have room := (parse?_eq_some.1 read).1
    rwa [round.byteLength_eq] at room
  · rw [front.start_eq, front.shape]
    simp only [Text.byteLength_append, List.append_nil]

/-- The first token after a round is the string of the line or the mark of a decorator, and only
after a program that starts behind decorators can the next one do so again. -/
theorem detached (round : Round c path text next) :
    (∃ l, firstLexeme? next.toList = some l ∧ l.token.continues = false) ∧
      (StartsBehind path next → StartsBehind path text) := by
  rcases round.exists_front with ⟨s, more, l, before, decorators, front, found, same⟩
  have line := next_eq front.shape front.behind found
  have first := front.first
  rw [same] at line
  rw [front.shape] at first
  by_cases plain : decorators = []
  · -- the line stands in front of the first token
    subst plain
    rw [List.append_nil, ← List.nil_append s.text, ← front.behind] at line
    have put := (Program.firstLexeme?_stringLine first front.going verbatim_use_client).1
    rw [← line] at put
    refine ⟨⟨_, put, rfl⟩, ?_⟩
    rintro ⟨-, -, l', -, -, first', mark, -⟩
    rcases Option.some.inj (put.symm.trans first') with rfl
    simp at mark
  · -- the line stands behind the decorators
    have mark := front.place.resolve_left plain
    rw [List.append_assoc] at line
    rcases Program.firstLexeme?_decorated first mark front.behind plain
      (stringLine "use client".toList ++ s.text) with ⟨after, put⟩
    rw [← line] at put
    exact ⟨⟨_, put, rfl⟩, fun _ => front.startsBehind_iff.2 plain⟩

end Round

/-! ## Sequences of rounds -/

namespace Rounds

variable {c : Config} {path text mid last : String} {j k : Nat}

/-- Rounds go on from any of the texts on their way. -/
theorem after (here : Rounds c path j text mid) (there : Rounds c path (j + k) text last) :
    Rounds c path k mid last := by
  induction here with
  | none text => simpa using there
  | more round _ ih =>
      rw [Nat.add_right_comm] at there
      cases there with
      | more round' rounds' =>
          rcases round.unique round' with rfl
          exact ih rounds'

theorem exists_last (rounds : Rounds c path (k + 1) text last) :
    ∃ mid, Round c path mid last := by
  induction k generalizing text with
  | zero =>
      cases rounds with
      | more round rounds' =>
          cases rounds' with
          | none => exact ⟨_, round⟩
  | succ k ih =>
      cases rounds with
      | more _ rounds' => exact ih rounds'

/-- The number of rounds that lead from a text to another one. -/
theorem count_unique (here : Rounds c path j text last) (there : Rounds c path k text last) :
    j = k := by
  have line : byteLength useClientLine.toList = 13 := by decide
  have size := here.byteLength_eq.symm.trans there.byteLength_eq
  rw [line] at size
  omega

/-- A clean text is the last one. -/
theorem eq_zero_of_clean (rounds : Rounds c path k text last) (clean : c.lint path text = .ok []) :
    k = 0 ∧ last = text := by
  cases rounds with
  | none => exact ⟨rfl, rfl⟩
  | more round _ => exact absurd clean round.not_clean

theorem parse?_isSome {findings : List Finding} (rounds : Rounds c path k text last)
    (linted : c.lint path last = .ok findings) :
    (Program.parse? (.ofPath path) text).isSome := by
  cases rounds with
  | none =>
      rcases lint_eq_ok_iff.1 linted with ⟨program, read, -⟩
      rw [read, Option.isSome_some]
  | more round _ =>
      rcases round.inserted with ⟨program, -, -, read, -⟩
      rw [read, Option.isSome_some]

variable {findings : List Finding}

/-- From a text that a round led to, one more is enough if its program starts with its first
token. -/
theorem le_one (before : Round c path mid text) (rounds : Rounds c path k text last)
    (ahead : ¬ StartsBehind path text) (linted : c.lint path last = .ok findings) :
    k ≤ 1 ∧ (k = 1 → findings = []) := by
  rcases before.detached with ⟨⟨l, first, detached⟩, -⟩
  cases rounds with
  | none => exact ⟨Nat.zero_le 1, by simp⟩
  | more round rounds' =>
      have clean := round.clean_of_detached ahead first detached (rounds'.parse?_isSome linted)
      -- after a clean text there is no round
      rcases rounds'.eq_zero_of_clean clean with ⟨rfl, rfl⟩
      exact ⟨Nat.le_refl 1, fun _ => Except.ok.inj (linted.symm.trans clean)⟩

/-- Two rounds are enough for a text whose program starts with its first token. -/
theorem le_two (rounds : Rounds c path k text last) (ahead : ¬ StartsBehind path text)
    (linted : c.lint path last = .ok findings) : k ≤ 2 := by
  cases rounds with
  | none => exact Nat.zero_le 2
  | more round rounds' =>
      have still := fun behind => ahead (round.detached.2 behind)
      exact Nat.succ_le_succ (rounds'.le_one round still linted).1

end Rounds

/-! ## Fixing -/

section Settling

variable {c : Config} {path source : String} {r : Fixed}

/-- As soon as a program starts with the first token of its text, fixing needs one more round, or
two if it is the first text. -/
theorem settles_of_ahead (fixed : c.fix path source = .ok r) {j : Nat} {text : String}
    (few : j < maxFixPasses) (rounds : Rounds c path j source text)
    (ahead : ¬ StartsBehind path text) :
    r.remaining = [] ∧ ∃ k ≤ max (j + 1) 2, Rounds c path k source r.output := by
  rcases fix_eq_ok_iff.1 fixed with ⟨k, le, all, linted, -, ends⟩
  by_cases early : k ≤ j
  · exact ⟨ends.resolve_right (by omega), k, by omega, all⟩
  -- otherwise the text is on the way, and `n` rounds are left from it
  obtain ⟨n, rfl⟩ : ∃ n, k = j + n := ⟨k - j, by omega⟩
  have rest := rounds.after all
  cases rounds with
  | none =>
      have two := rest.le_two ahead linted
      have limit : maxFixPasses = 10 := rfl
      exact ⟨ends.resolve_right (by omega), 0 + n, by omega, all⟩
  | more round rounds' =>
      rcases (Rounds.more round rounds').exists_last with ⟨mid, before⟩
      rcases rest.le_one before ahead linted with ⟨one, clean⟩
      refine ⟨?_, _, by omega, all⟩
      -- the limit may be reached with this very round, which leaves nothing either
      rcases ends with none_ | limit
      · exact none_
      · exact clean (by omega)

end Settling

/-- Fixing leaves nothing after at most two rounds, unless the programs of the text and of the one
after the first round both start behind decorators and the text after the second round is not clean.
In general it ends with the round after the first text whose program starts with its first token,
or two rounds after it if that is the very first text. -/
theorem fix_settles_iff (c : Config) (path source : String) (r : Fixed)
    (fixed : c.fix path source = .ok r) :
    ((r.remaining = [] ∧ ∃ k ≤ 2, Rounds c path k source r.output) ↔
      ¬ ∃ next last, StartsBehind path source ∧ StartsBehind path next ∧
        Round c path source next ∧ Round c path next last ∧ c.lint path last ≠ .ok []) ∧
      ∀ j < maxFixPasses, ∀ text, Rounds c path j source text → ¬ StartsBehind path text →
        r.remaining = [] ∧ ∃ k ≤ max (j + 1) 2, Rounds c path k source r.output := by
  refine ⟨?_, fun j few text rounds ahead => settles_of_ahead fixed few rounds ahead⟩
  rcases fix_eq_ok_iff.1 fixed with ⟨k, le, all, linted, -, ends⟩
  have limit : maxFixPasses = 10 := rfl
  constructor
  · rintro ⟨none_, n, two, rounds⟩ ⟨next, last, -, -, first, second, unclean⟩
    rw [none_] at linted
    -- the rounds are the first ones of the chain, none of whose texts is clean
    rcases rounds with _ | ⟨round, _ | ⟨round', _ | ⟨-, -⟩⟩⟩
    · exact first.not_clean linted
    · rcases first.unique round with rfl
      exact second.not_clean linted
    · rcases first.unique round with rfl
      rcases second.unique round' with rfl
      exact unclean linted
    · omega
  · intro chain
    by_cases two : k ≤ 2
    · exact ⟨ends.resolve_right (by omega), k, two, all⟩
    -- otherwise there are three rounds, and the first two texts start behind decorators
    obtain ⟨n, rfl⟩ : ∃ n, k = n + 3 := ⟨k - 3, by omega⟩
    exfalso
    have settled : ∀ j ≤ 1, ∀ text, Rounds c path j source text → StartsBehind path text := by
      intro j few text rounds
      by_contra ahead
      rcases settles_of_ahead fixed (by omega) rounds ahead with ⟨-, i, le', rounds'⟩
      have same := rounds'.count_unique all
      omega
    cases all with
    | more first rest =>
        cases rest with
        | more second rest' =>
            cases rest' with
            | more third _ =>
                exact chain ⟨_, _, settled 0 (by omega) _ (.none _),
                  settled 1 (by omega) _ (.one first), first, second, third.not_clean⟩

/-! ## A text that takes three rounds -/

/-- Exports behind decorators, where every round changes how the decorators are read. The line goes
into what is a block comment when a tag is read as the type parameters of a function, and the line
feed in that comment keeps the bracket behind it from indexing the type in front of it, so that it
can be read like this. -/
def nestedExports : String :=
  "@(<a onB/>?(x):<T>(a:\"\x7b'\",b:\x7bp:X/*'\x7d</T>)export class A\x7bs='*/[k:string]:Z\x7d)" ++
    "=>R=>d?(w):<U>(m:\"\x7b`\",n:\x7bp:X/*`\x7d</U>:1)export class B\x7bt=\"*/[k:string]:Z\x7d)" ++
    "=>R=>0:1:1)class C\x7b\x7d//\"\x7d//'\x7d"

/-- What the characters of a text tell of its program. -/
def seen (path : String) (r : Rule) (chars : List Char) : Option (Nat × Bool × Bool) :=
  if byteLength chars ≤ Script.maxLength then
    (allStatements? (.ofPath path) chars).map fun ss =>
      let program := ofStatements chars ss
      (program.start, (scanDirectives program).any, (r.allCauses program).isEmpty)
  else
    none

theorem exists_of_seen {path : String} {r : Rule} {chars : List Char} {start : Nat}
    {any silent : Bool} (h : seen path r chars = some (start, any, silent)) :
    ∃ program, Program.parse? (.ofPath path) (String.ofList chars) = some program ∧
      program.start = start ∧ (scanDirectives program).any = any ∧
      (r.allCauses program).isEmpty = silent := by
  unfold seen at h
  split at h
  · rename_i room
    rcases Option.map_eq_some_iff.1 h with ⟨ss, statements, same⟩
    simp only [Prod.mk.injEq] at same
    refine ⟨ofStatements chars ss, ?_, same⟩
    rw [parse?_eq_some, String.toList_ofList]
    exact ⟨room, ss, statements, rfl⟩
  · simp at h

theorem Round.of_seen {c : Config} {path : String} {r : Rule} {chars : List Char} (n : Nat)
    (active : r ∈ c.activeRules path)
    (h : seen path r chars = some (byteLength (chars.take n), false, false)) :
    Round c path (String.ofList chars)
      (String.ofList (chars.take n ++ useClientLine.toList ++ chars.drop n)) := by
  rcases exists_of_seen h with ⟨program, read, start, bare, causes⟩
  have some_ : r.allCauses program ≠ [] := by simpa using causes
  have found : c.lintProgram path (String.ofList chars) program ≠ [] :=
    List.ne_nil_of_mem ((mem_runAll_of_bare bare).2 ⟨r, active, some_, rfl⟩)
  have split : (String.ofList chars).toList = chars.take n ++ chars.drop n := by
    rw [String.toList_ofList, List.take_append_drop]
  exact ⟨⟨_, lint_eq_ok_iff.2 ⟨program, read, rfl⟩, found, insertAll_fixes_eq split start found⟩,
    program, _, _, read, start ▸ startsAt_start some_, split, String.toList_ofList⟩

theorem lint_of_seen {c : Config} {path : String} {r : Rule} {chars : List Char}
    (h : (seen path r chars).map (·.2.1) = some true) :
    c.lint path (String.ofList chars) = .ok [] := by
  rcases Option.map_eq_some_iff.1 h with ⟨⟨start, any, silent⟩, h, rfl⟩
  rcases exists_of_seen h with ⟨program, read, -, any, -⟩
  exact lint_eq_ok_iff.2 ⟨program, read, runAll_of_any any _ _⟩

theorem rounds_nestedExports :
    ∃ last, Rounds (Config.recommended "/") "/a.tsx" 3 nestedExports last ∧
      (Config.recommended "/").lint "/a.tsx" last = .ok [] := by
  have active : Rule.eventHandler ∈ (Config.recommended "/").activeRules "/a.tsx" := by
    rw [Config.activeRules_recommended]
    decide
  -- evaluated on the characters, as decoding them from a text is what takes long
  have whole (front middle back : List Char) :
      String.ofList front ++ String.ofList middle ++ String.ofList back =
        String.ofList (front ++ middle ++ back) := by
    rw [String.ofList_append, String.ofList_append]
  have text : nestedExports = String.ofList _ := whole _ _ _
  rw [text]
  refine ⟨_, .more (.of_seen 41 active ?_) (.more (.of_seen 127 active ?_)
    (.one (.of_seen 0 active ?_))), lint_of_seen (r := .eventHandler) ?_⟩ <;> decide +kernel

/-- Of the three rounds, the first two insert behind decorators. -/
theorem fix_settles_nested :
    ∃ r, (Config.recommended "/").fix "/a.tsx" nestedExports = .ok r ∧ r.remaining = [] ∧
      Rounds (Config.recommended "/") "/a.tsx" 3 nestedExports r.output ∧
      ∃ next last, StartsBehind "/a.tsx" nestedExports ∧ StartsBehind "/a.tsx" next ∧
        Round (Config.recommended "/") "/a.tsx" nestedExports next ∧
        Round (Config.recommended "/") "/a.tsx" next last ∧
        (Config.recommended "/").lint "/a.tsx" last ≠ .ok [] := by
  rcases rounds_nestedExports with ⟨last, rounds, clean⟩
  have fixed := fix_of_rounds rounds (by decide) clean (.inl rfl)
  refine ⟨_, fixed, rfl, rounds, ?_⟩
  by_contra none_
  have settled := (fix_settles_iff (Config.recommended "/") "/a.tsx" nestedExports _ fixed).1.2
  rcases settled none_ with ⟨-, k, two, rounds'⟩
  have same := rounds'.count_unique rounds
  omega

end Rules
end ClientBoundary
