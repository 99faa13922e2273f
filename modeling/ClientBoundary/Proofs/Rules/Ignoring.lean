import ClientBoundary.Proofs.Glob.Taking
import ClientBoundary.Proofs.Path.Normalizing
import ClientBoundary.Rules.Options

/-!
# Which spellings of a path are ignored alike

Globs are matched against the path of a file relative to the root, and that is made of the
components as they are written. So the same file may be ignored or not, depending on the parent
steps and dots with which it is written.

- `Glob.escape`, `Glob.accepts_literals`: a glob for one path only;
- `leavesRoot_relative`: which relative paths leave the root;
- `IgnoredAlike`: two files under their roots are ignored by the same globs;
- `ignoredAlike_normalize_iff`: when a file is ignored like its normalised path.
-/

namespace ClientBoundary
namespace Glob

/-! ## Globs for one path -/

/-- A glob in which every character stands for itself. -/
def escape (text : List Char) : List Char :=
  text.flatMap fun c => ['\\', c]

theorem scan_escape {b : Builder} (outside : b.groups = []) (previous : Option Char)
    (text : List Char) :
    scan b (.plain previous) (escape text) = .ok (b.current.reverse ++ text.map .literal) := by
  induction text generalizing b previous with
  | nil => simp [escape, scan, Builder.finish, outside]
  | cons c text ih =>
      have pushed : (b.push (.literal c)).groups = [] := outside
      have step : scan b (.plain previous) (escape (c :: text)) =
          scan (b.push (.literal c)) (.plain (some c)) (escape text) := by
        simp [escape, scan]
      rw [step, ih pushed]
      simp [Builder.push]

theorem parse_escape (text : List Char) : parse (escape text) = .ok (text.map .literal) :=
  scan_escape rfl none text

/-- Characters that stand for themselves match their own text and no other. -/
theorem accepts_literals {chars : List Char} {text : List UInt8} :
    accepts (chars.map .literal) text = true ↔ text = chars.flatMap Text.charBytes := by
  have some_ : isEverything (chars.map .literal) = false := by
    cases chars <;> rfl
  have taken : [] ∈ sequenceRests (chars.map .literal) text ↔
      text = chars.flatMap Text.charBytes := by
    clear some_
    induction chars generalizing text with
    | nil => simp [sequenceRests, eq_comm]
    | cons c cs ih =>
        rw [List.map_cons, sequenceRests, Token.rests, List.mem_flatMap, List.flatMap_cons]
        constructor
        · rintro ⟨rest, front, back⟩
          rw [mem_afterBytes.1 front, ih.1 back]
        · intro whole
          exact ⟨_, mem_afterBytes.2 whole, ih.2 rfl⟩
  rw [accepts, some_, Bool.false_or, List.any_eq_true, ← taken]
  constructor
  · rintro ⟨rest, mem, empty⟩
    rwa [List.isEmpty_iff.1 empty] at mem
  · intro mem
    exact ⟨[], mem, rfl⟩

end Glob

namespace Rules

open ClientBoundary.Path (IsPart Plain components isAbsolute isPart_of_relativeParts normalize
  relative relativeParts relative_eq sound_components splitSlash)

/-- For every path there is a glob that ignores this path and no other. -/
theorem exists_literal (path : String) :
    ∃ pattern m, IgnoreMatcher.ofPatterns [pattern] = .ok m ∧
      ∀ text, stripDotSlash text = text → IgnoreMatcher.leavesRoot text = false →
        (m.ignores text = true ↔ text = path) := by
  have kept : stripDotSlash (String.ofList (Glob.escape path.toList)) =
      String.ofList (Glob.escape path.toList) := by
    rw [stripDotSlash, String.toList_ofList]
    cases path.toList <;> rfl
  refine ⟨String.ofList (Glob.escape path.toList), ⟨[path.toList.map .literal]⟩, ?_, ?_⟩
  · simp [IgnoreMatcher.ofPatterns, IgnoreMatcher.compileAll, IgnoreMatcher.compile, kept,
      Glob.parse_escape]
  · intro text short inside
    simp [IgnoreMatcher.ignores, short, inside, Glob.accepts_literals]
    exact Text.utf8Bytes_inj

/-! ## Relative paths -/

theorem leavesRoot_iff {text : String} :
    IgnoreMatcher.leavesRoot text = true ↔ (splitSlash text.toList).head? = some ['.', '.'] := by
  unfold IgnoreMatcher.leavesRoot
  split
  · rename_i shape
    rw [shape]
    decide
  · rename_i rest shape
    rw [shape]
    simp [splitSlash]
  · rename_i whole behind
    simp only [Bool.false_eq_true, false_iff]
    intro head
    rcases Path.head?_splitSlash head with shape | ⟨more, shape⟩
    · exact whole shape
    · exact behind more shape

/-- Nothing is stripped from a path whose first part is not a dot. -/
theorem stripDotSlash_of_head? {text : String} (h : (splitSlash text.toList).head? ≠ some ['.']) :
    stripDotSlash text = text := by
  unfold stripDotSlash
  split
  · rename_i rest shape
    rw [shape] at h
    exact absurd rfl h
  · rfl

section Parts

variable {parts : List String} (valid : ∀ p ∈ parts, IsPart p)

include valid

theorem splitSlash_parts (filled : parts ≠ []) :
    splitSlash ("/".intercalate parts).toList = parts.map String.toList :=
  Path.splitSlash_intercalate (fun p hp => (valid p hp).2.1) filled

/-- Nothing is stripped from a path that begins with a name or a parent step. -/
theorem stripDotSlash_parts : stripDotSlash ("/".intercalate parts) = "/".intercalate parts := by
  by_cases filled : parts = []
  · rw [filled, String.intercalate_nil]
    rfl
  · refine stripDotSlash_of_head? ?_
    rw [splitSlash_parts valid filled]
    cases parts with
    | nil => exact absurd rfl filled
    | cons p ps =>
        intro dot
        exact (valid p List.mem_cons_self).2.2 (String.toList_inj.1 (Option.some.inj dot))

/-- A relative path leaves the root when its first part is a parent step. -/
theorem leavesRoot_parts :
    IgnoreMatcher.leavesRoot ("/".intercalate parts) = true ↔ parts.head? = some ".." := by
  rw [leavesRoot_iff]
  cases parts with
  | nil =>
      rw [String.intercalate_nil]
      simp [splitSlash]
  | cons p ps =>
      rw [splitSlash_parts valid (List.cons_ne_nil p ps)]
      simp [← String.toList_inj]

end Parts

section Relative

variable {root file : String} (same : isAbsolute root = isAbsolute file)

include same

theorem leavesRoot_relative :
    IgnoreMatcher.leavesRoot (relative root file) = true ↔
      (relativeParts (components root) (components file)).head? = some ".." := by
  rw [relative_eq same]
  exact leavesRoot_parts (isPart_of_relativeParts (sound_components file))

theorem stripDotSlash_relative : stripDotSlash (relative root file) = relative root file := by
  rw [relative_eq same]
  exact stripDotSlash_parts (isPart_of_relativeParts (sound_components file))

end Relative

/-! ## Files that are ignored alike -/

/-- The same globs ignore a file under its root and another one under its own. -/
def IgnoredAlike (root file root' file' : String) : Prop :=
  ∀ patterns m, IgnoreMatcher.ofPatterns patterns = .ok m →
    m.ignores (relative root file) = m.ignores (relative root' file')

/-- Files with different relative paths are ignored alike only if both are outside. -/
theorem ignoredAlike_iff {root file root' file' : String}
    (same : isAbsolute root = isAbsolute file) (same' : isAbsolute root' = isAbsolute file') :
    IgnoredAlike root file root' file' ↔
      relative root' file' = relative root file ∨
        IgnoreMatcher.leavesRoot (relative root file) = true ∧
          IgnoreMatcher.leavesRoot (relative root' file') = true := by
  have short := stripDotSlash_relative same
  have short' := stripDotSlash_relative same'
  have outside {text : String} (short : stripDotSlash text = text)
      (leaves : IgnoreMatcher.leavesRoot text = true) (m : IgnoreMatcher) :
      m.ignores text = false := by
    simp [IgnoreMatcher.ignores, short, leaves]
  constructor
  · intro alike
    cases leaves : IgnoreMatcher.leavesRoot (relative root file) with
    | false =>
        -- the glob for the one path ignores the other one
        rcases exists_literal (relative root file) with ⟨pattern, m, globs, only⟩
        have here : m.ignores (relative root file) = true := (only _ short leaves).2 rfl
        rw [alike _ m globs] at here
        cases leaves' : IgnoreMatcher.leavesRoot (relative root' file') with
        | false => exact .inl ((only _ short' leaves').1 here)
        | true => simp [outside short' leaves'] at here
    | true =>
        cases leaves' : IgnoreMatcher.leavesRoot (relative root' file') with
        | true => exact .inr ⟨rfl, rfl⟩
        | false =>
            -- the file is inside only under the other root, and there is a glob for it
            rcases exists_literal (relative root' file') with ⟨pattern, m, globs, only⟩
            have there : m.ignores (relative root' file') = true := (only _ short' leaves').2 rfl
            rw [← alike _ m globs, outside short leaves] at there
            cases there
  · rintro (equal | ⟨leaves, leaves'⟩) patterns m -
    · rw [equal]
    · rw [outside short leaves, outside short' leaves']

/-- A file is ignored like its normalised path exactly when the relative path stays what it is, or
both lead out of the root. For a file that is written below the root this means that no parent step
follows the root, unless both lead out, and it is so whenever the paths have no dots and no parent
steps. Between normalised paths in which no parent step is left, the relative path leads out exactly
when the file is not below the root. -/
theorem ignoredAlike_normalize_iff (root file : String)
    (same : isAbsolute root = isAbsolute file) :
    (IgnoredAlike root file (normalize root) (normalize file) ↔
      relative (normalize root) (normalize file) = relative root file ∨
        IgnoreMatcher.leavesRoot (relative root file) = true ∧
          IgnoreMatcher.leavesRoot (relative (normalize root) (normalize file)) = true) ∧
      (∀ rest, components file = components root ++ rest →
        (IgnoredAlike root file (normalize root) (normalize file) ↔
          .parent ∉ rest ∨
            IgnoreMatcher.leavesRoot (relative root file) = true ∧
              IgnoreMatcher.leavesRoot (relative (normalize root) (normalize file)) = true)) ∧
      (Plain root → Plain file → IgnoredAlike root file (normalize root) (normalize file)) ∧
      (Plain (normalize root) → Plain (normalize file) →
        (IgnoreMatcher.leavesRoot (relative (normalize root) (normalize file)) = true ↔
          ¬ components (normalize root) <+: components (normalize file))) := by
  have same' : isAbsolute (normalize root) = isAbsolute (normalize file) := by
    rw [Path.isAbsolute_normalize, Path.isAbsolute_normalize, same]
  have alike := ignoredAlike_iff same same'
  refine ⟨alike, ?_, ?_, ?_⟩
  · intro rest below
    rw [alike]
    constructor
    · rintro (equal | both)
      · by_cases up : .parent ∈ rest
        · -- the relative path has a step up, and a normalised one has it in front
          have head := Path.head?_of_relative_normalize same below up equal
          have leaves := (leavesRoot_relative same).2 head
          exact .inr ⟨leaves, by rw [equal, leaves]⟩
        · exact .inl up
      · exact .inr both
    · rintro (down | both)
      · exact .inl (Path.relative_normalize_of_down same below down)
      · exact .inr both
  · intro plain plain'
    exact alike.2 (.inl (plain.relative_normalize plain'))
  · intro plain plain'
    rw [leavesRoot_relative same']
    exact plain.head?_relativeParts plain' same'

/-- A file outside the root whose relative path does not begin with a step up, and a file inside
whose relative path does. -/
theorem ignoredAlike_normalize_spelled :
    (¬ IgnoredAlike "/p" "/p/a/../../b" (normalize "/p") (normalize "/p/a/../../b") ∧
      relative "/p" "/p/a/../../b" = "a/../../b" ∧
      relative (normalize "/p") (normalize "/p/a/../../b") = "../b") ∧
    ¬ IgnoredAlike "p" "./p/a" (normalize "p") (normalize "./p/a") ∧
      relative "p" "./p/a" = "../p/a" ∧ relative (normalize "p") (normalize "./p/a") = "a" := by
  have outside : relative "/p" "/p/a/../../b" = "a/../../b" ∧
      relative (normalize "/p") (normalize "/p/a/../../b") = "../b" := by
    decide +kernel
  have inside : relative "p" "./p/a" = "../p/a" ∧
      relative (normalize "p") (normalize "./p/a") = "a" := by
    decide +kernel
  have below : components "/p/a/../../b" =
      components "/p" ++ [.name "a", .parent, .parent, .name "b"] := by
    decide +kernel
  refine ⟨⟨?_, outside⟩, ?_, inside⟩
  · have condition := (ignoredAlike_normalize_iff "/p" "/p/a/../../b" (by decide)).2.1 _ below
    rw [condition, outside.1]
    decide
  · have condition := (ignoredAlike_normalize_iff "p" "./p/a" (by decide)).1
    rw [condition, inside.1, inside.2]
    decide

end Rules
end ClientBoundary
