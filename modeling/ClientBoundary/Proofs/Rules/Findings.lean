import ClientBoundary.Proofs.Rules.Collecting
import ClientBoundary.Proofs.Script.LeadingStatement

/-!
# What findings say of a file

All findings of a file name it, its first directive or statement, and the line to insert there. A
file in which something is found has a first statement, which is not empty.

- `mem_lintProgram`: the file, the place and the fix of a finding;
- `exists_statements`, `exists_split`: the first statement of a file in which something is found;
- `lint_eq_ok_iff`, `lint_eq_error_iff`: what linting a file comes to;
- `Finding.Fits`, `lint_findings`: the numbers in a finding are less than `2 ^ 32`.
-/

namespace ClientBoundary
namespace Rules

open Script (Lexeme Program Language)
open Script.Program (TopLevel firstLexeme? allStatements? ofStatements)
open Text (byteLength)

/-! ## Findings of a program -/

/-- Every finding names the file and asks for the line at the start of the program. -/
theorem mem_lintProgram {c : Config} {path source : String} {program : Program} {f : Finding}
    (h : f ∈ c.lintProgram path source program) :
    f.file = path ∧ f.location = .ofOffset source program.start ∧
      f.fix = some (insertUseClient program.start) := by
  rcases mem_lintProgram_iff.1 h with ⟨-, r, -, -, rfl⟩
  exact ⟨rfl, rfl, rfl⟩

/-! ## Programs as they are read -/

theorem parse?_eq_some {language : Language} {source : String} {program : Program} :
    Program.parse? language source = some program ↔
      byteLength source.toList ≤ Script.maxLength ∧
        ∃ ss, allStatements? language source.toList = some ss ∧
          ofStatements source.toList ss = program := by
  rw [Program.parse?]
  split
  · rename_i room
    simp [room, Option.map_eq_some_iff]
  · rename_i room
    simp [room]

theorem ofStatements_start (text : List Char) (s : TopLevel) (more : List TopLevel) :
    (ofStatements text (s :: more)).start = byteLength text - byteLength s.text := by
  cases value : s.stringValue? <;> simp [ofStatements, Program.start, value]

theorem lintProgram_of_empty (c : Config) (path source : String) (text : List Char) :
    c.lintProgram path source (ofStatements text []) = [] := by
  refine lintProgram_of_allCauses fun r _ => ?_
  rw [Rule.allCauses_eq]
  rfl

/-- The first statement of a text is some of it. It stands before the first token or behind
decorators, and this is where the line is inserted. -/
theorem exists_split {language : Language} {text : List Char} {s : TopLevel} {more : List TopLevel}
    (read : allStatements? language text = some (s :: more)) :
    s.text ≠ [] ∧ ∃ l before decorators, firstLexeme? text = some l ∧ l.token ≠ .eof ∧
      text = before ++ l.text ∧ l.text = decorators ++ s.text ∧
      (decorators = [] ∨ l.token = .punctuator "@") := by
  rcases Program.allStatements?_head read with ⟨asModule, l, m, first, going, run⟩
  rcases Program.firstLexeme?_split first going with ⟨-, before, shape, -⟩
  -- at the end of a text there is no token but the last one
  have nonempty : l.text ≠ [] := by
    intro empty
    have token := (Program.firstLexeme?_eq_some.1 first).2.1
    rw [empty] at token
    exact going (Prod.mk.inj (Option.some.inj token)).1.symm
  rcases Program.topLevel_text run with same | ⟨mark, filled, decorators, -, behind⟩
  · rw [same]
    exact ⟨nonempty, l, before, [], first, going, shape, rfl, .inl rfl⟩
  · exact ⟨filled, l, before, decorators, first, going, shape, behind, .inr mark⟩

/-- The statements of a file in which something is found. -/
theorem exists_statements {c : Config} {path source : String} {program : Program}
    (read : Program.parse? (.ofPath path) source = some program)
    (found : c.lintProgram path source program ≠ []) :
    byteLength source.toList ≤ Script.maxLength ∧ ∃ s more,
      allStatements? (.ofPath path) source.toList = some (s :: more) ∧
        program = ofStatements source.toList (s :: more) := by
  rcases parse?_eq_some.1 read with ⟨room, ss, statements, rfl⟩
  cases ss with
  | nil => exact absurd (lintProgram_of_empty c path source source.toList) found
  | cons s more => exact ⟨room, s, more, statements, rfl⟩

/-! ## Numbers -/

/-- The numbers of a finding have 32 bits. -/
structure Finding.Fits (f : Finding) : Prop where
  line : f.location.line < UInt32.size
  column : f.location.column < UInt32.size
  offset : ∀ i, f.fix = some i → i.offset < UInt32.size

/-- Something of a file stands behind the place of a finding. -/
theorem start_lt_of_found {c : Config} {path source : String} {program : Program}
    (read : Program.parse? (.ofPath path) source = some program)
    (found : c.lintProgram path source program ≠ []) :
    byteLength source.toList ≤ Script.maxLength ∧ program.start < byteLength source.toList ∧
      byteLength (Text.textBefore source.toList program.start) = program.start := by
  rcases exists_statements read found with ⟨room, s, more, statements, rfl⟩
  rcases exists_split statements with ⟨filled, l, before, decorators, -, -, shape, behind, -⟩
  obtain ⟨front, whole⟩ : ∃ front, source.toList = front ++ s.text :=
    ⟨before ++ decorators, by rw [shape, behind, List.append_assoc]⟩
  have pos : byteLength s.text ≠ 0 := fun zero => filled (Text.byteLength_eq_zero zero)
  have start : (ofStatements source.toList (s :: more)).start = byteLength front := by
    rw [ofStatements_start, whole, Text.byteLength_append]
    omega
  refine ⟨room, ?_, ?_⟩
  · rw [start, whole, Text.byteLength_append]
    omega
  · rw [start, whole, Text.textBefore_append]

theorem lint_eq_ok_iff {c : Config} {path source : String} {findings : List Finding} :
    c.lint path source = .ok findings ↔
      ∃ program, Program.parse? (.ofPath path) source = some program ∧
        c.lintProgram path source program = findings := by
  rw [Config.lint]
  cases Program.parse? (.ofPath path) source with
  | none => simp
  | some program => simp

theorem lint_eq_error_iff {c : Config} {path source : String} {e : Failure} :
    c.lint path source = .error e ↔
      e = .unparsable path ∧ Program.parse? (.ofPath path) source = none := by
  rw [Config.lint]
  cases Program.parse? (.ofPath path) source with
  | none => simp [eq_comm]
  | some program => simp

/-- All findings of a file name it, and their numbers have 32 bits. -/
theorem lint_findings {c : Config} {path source : String} {findings : List Finding}
    (h : c.lint path source = .ok findings) : ∀ f ∈ findings, f.file = path ∧ f.Fits := by
  intro f mem
  rcases lint_eq_ok_iff.1 h with ⟨program, read, rfl⟩
  rcases mem_lintProgram mem with ⟨file, location, fix⟩
  rcases start_lt_of_found read (List.ne_nil_of_mem mem) with ⟨room, inside, before⟩
  -- the line and the column count what stands before the place, and a file has a length limit
  have place := Text.Location.afterText_le (Text.textBefore source.toList program.start)
  rw [before] at place
  have bound : Script.maxLength + 1 = UInt32.size := rfl
  refine ⟨file, ?_, ?_, ?_⟩
  · rw [location, Text.Location.ofOffset]
    omega
  · rw [location, Text.Location.ofOffset]
    omega
  · intro i same
    rw [fix] at same
    rcases Option.some.inj same with rfl
    show program.start < UInt32.size
    omega

end Rules
end ClientBoundary
