import ClientBoundary.Proofs.Glob.SegmentTokens
import ClientBoundary.Proofs.Rules.Ignoring

/-!
# Which paths a plain glob ignores

A glob without classes, groups and escapes ignores the paths to which its segments lead.

- `toList_intercalate`, `utf8Bytes_intercalate`: a path as characters and as bytes;
- `ignores_joined`: a compiled glob on a path;
- `ignores_iff_leads`: which paths are ignored, directories and single stars among them.
-/

namespace ClientBoundary
namespace Rules

open Glob (IsSegment Leads Fits stars joined behind patternTokens)
open Text (utf8Bytes)

/-! ## Paths as characters and bytes -/

theorem toList_intercalate (parts : List String) :
    ("/".intercalate parts).toList = joined '/' (parts.map String.toList) := by
  induction parts with
  | nil => rfl
  | cons part more ih =>
      cases more with
      | nil => simp [joined, behind]
      | cons next more =>
          rw [String.intercalate_cons_cons]
          simp only [String.toList_append, ih]
          simp [joined, behind]

theorem utf8Bytes_intercalate (parts : List String) :
    utf8Bytes ("/".intercalate parts) = joined Glob.slash (parts.map utf8Bytes) := by
  have tail (more : List String) :
      (behind '/' (more.map String.toList)).flatMap Text.charBytes =
        behind Glob.slash (more.map utf8Bytes) := by
    induction more with
    | nil => rfl
    | cons next more ih =>
        have slash : Text.charBytes '/' = [Glob.slash] := rfl
        have head (ps : List (List Char)) :
            behind '/' (next.toList :: ps) = '/' :: (next.toList ++ behind '/' ps) := rfl
        rw [List.map_cons, head, List.flatMap_cons, List.flatMap_append, ih, slash]
        rfl
  rw [utf8Bytes, toList_intercalate]
  cases parts with
  | nil => rfl
  | cons part more =>
      rw [List.map_cons, List.map_cons, joined, joined, List.flatMap_append, tail]
      rfl

/-! ## Compiled globs -/

/-- A glob whose segments are plain compiles to their tokens. -/
theorem ofPatterns_plain {pattern : String} {segments : List String}
    (shape : stripDotSlash pattern = "/".intercalate segments)
    (valid : ∀ s ∈ segments, IsSegment s.toList) :
    IgnoreMatcher.ofPatterns [pattern] = .ok ⟨[patternTokens (segments.map String.toList)]⟩ := by
  have parsed : Glob.parse (joined '/' (segments.map String.toList)) =
      .ok (patternTokens (segments.map String.toList)) :=
    Glob.parse_joined (by simpa using valid)
  rw [← toList_intercalate, ← shape] at parsed
  simp [IgnoreMatcher.ofPatterns, IgnoreMatcher.compileAll, IgnoreMatcher.compile, parsed]

/-- A path that begins with a part other than a dot or a parent step is matched as it stands. -/
theorem ignores_inside {parts : List String} (solid : ∀ p ∈ parts, '/' ∉ p.toList)
    (filled : parts ≠ []) (here : parts.head? ≠ some ".") (parent : parts.head? ≠ some "..")
    (globs : List (List Glob.Token)) :
    IgnoreMatcher.ignores ⟨globs⟩ ("/".intercalate parts) =
      globs.any fun g => Glob.accepts g (joined Glob.slash (parts.map utf8Bytes)) := by
  have split := Path.splitSlash_intercalate solid filled
  have first (text : String) :
      (parts.map String.toList).head? = some text.toList ↔ parts.head? = some text := by
    rw [List.head?_map, Option.map_eq_some_iff]
    constructor
    · rintro ⟨p, head, same⟩
      rw [head, String.toList_inj.1 same]
    · intro head
      exact ⟨text, head, rfl⟩
  have short : stripDotSlash ("/".intercalate parts) = "/".intercalate parts :=
    stripDotSlash_of_head? (by rw [split]; exact fun dot => here ((first ".").1 dot))
  have inside : IgnoreMatcher.leavesRoot ("/".intercalate parts) = false := by
    rw [← Bool.not_eq_true, leavesRoot_iff, split]
    exact fun dots => parent ((first "..").1 dots)
  rw [IgnoreMatcher.ignores, short, inside, utf8Bytes_intercalate]
  rfl

/-- A plain glob ignores the paths to which its segments lead. -/
theorem ignores_plain {segments : List String} (valid : ∀ s ∈ segments, IsSegment s.toList)
    {first : String} {rest : List String} (solid : ∀ p ∈ first :: rest, '/' ∉ p.toList)
    (here : first ≠ ".") (parent : first ≠ "..") (filled : segments ≠ [] ∨ first ≠ "") :
    IgnoreMatcher.ignores ⟨[patternTokens (segments.map String.toList)]⟩
        ("/".intercalate (first :: rest)) = true ↔
      Leads (segments.map String.toList) ((first :: rest).map utf8Bytes) := by
  have apart : ∀ b ∈ (first :: rest).map utf8Bytes, Glob.slash ∉ b := by
    intro b hb
    rcases List.mem_map.1 hb with ⟨p, hp, rfl⟩
    exact fun mem => solid p hp ((Text.slash_mem_utf8Bytes p).1 mem)
  rw [ignores_inside solid (List.cons_ne_nil _ _) (by simpa using here) (by simpa using parent)]
  by_cases empty : segments = []
  · -- the empty glob takes the empty path only
    have bytes : utf8Bytes first ≠ [] := fun none_ =>
      filled.resolve_left (not_not.2 empty) (Text.utf8Bytes_inj.1 none_)
    simp [empty, patternTokens, Glob.accepts_iff, Glob.isEverything, Glob.sequenceRests, joined,
      bytes, Glob.leads_nil_iff]
  · rw [List.any_cons, List.any_nil, Bool.or_false]
    exact Glob.accepts_joined (by simpa using valid) apart (by simpa using empty)

/-! ## Ignored paths -/

/-- A glob that is, behind one leading `./`, a list of plain segments between slashes compiles. It
ignores a path of segments that does not begin with a dot or a parent step if and only if its
segments lead to those of the path: without double stars, if they fit one to one, and with a name
between two double stars, if this is the name of a directory above the file. A text without segments
counts as one empty segment. -/
theorem ignores_iff_leads (pattern : String) (segments : List String)
    (shape : stripDotSlash pattern = "/".intercalate segments)
    (valid : ∀ s ∈ segments, IsSegment s.toList) :
    ∃ m, IgnoreMatcher.ofPatterns [pattern] = .ok m ∧
      (∀ path : List String, path ≠ [] → (∀ p ∈ path, p ≠ "" ∧ '/' ∉ p.toList) →
        path.head? ≠ some "." → path.head? ≠ some ".." →
        (m.ignores ("/".intercalate path) = true ↔
          Leads (segments.map String.toList) (path.map utf8Bytes)) ∧
        ("**" ∉ segments → (m.ignores ("/".intercalate path) = true ↔
          List.Forall₂ Fits (segments.map String.toList) (path.map utf8Bytes))) ∧
        ∀ name : String, '?' ∉ name.toList → '*' ∉ name.toList → segments = ["**", name, "**"] →
          (m.ignores ("/".intercalate path) = true ↔
            ∃ above below, below ≠ [] ∧ path = above ++ name :: below)) ∧
      (segments ≠ [] →
        (m.ignores "" = true ↔ Leads (segments.map String.toList) [[]])) := by
  refine ⟨_, ofPatterns_plain shape valid, ?_, ?_⟩
  · intro path filled parts here parent
    have whole : IgnoreMatcher.ignores ⟨[patternTokens (segments.map String.toList)]⟩
        ("/".intercalate path) = true ↔
          Leads (segments.map String.toList) (path.map utf8Bytes) := by
      cases path with
      | nil => exact absurd rfl filled
      | cons first rest =>
          exact ignores_plain valid (fun p hp => (parts p hp).2) (by simpa using here)
            (by simpa using parent) (.inr (parts first List.mem_cons_self).1)
    refine ⟨whole, ?_, ?_⟩
    · intro single
      have ordinary : stars ∉ segments.map String.toList := by
        intro mem
        rcases List.mem_map.1 mem with ⟨s, hs, same⟩
        have double : s = "**" := String.toList_inj.1 same
        exact single (double ▸ hs)
      rw [whole, Glob.leads_ordinary_iff ordinary]
    · rintro name question star rfl
      have between : ["**", name, "**"].map String.toList = [stars, name.toList, stars] := rfl
      rw [whole, between, Glob.leads_directory_iff ⟨question, star⟩]
      constructor
      · rintro ⟨above, below, deeper, shape⟩
        rcases List.map_eq_append_iff.1 shape with ⟨above, rest, rfl, -, back⟩
        rcases List.map_eq_cons_iff.1 back with ⟨same, below, rfl, name_, rfl⟩
        rcases Text.utf8Bytes_inj.1 name_ with rfl
        exact ⟨above, below, by simpa using deeper, rfl⟩
      · rintro ⟨above, below, deeper, rfl⟩
        exact ⟨above.map utf8Bytes, below.map utf8Bytes, by simpa using deeper, by
          simp [utf8Bytes]⟩
  · intro filled
    have empty : "/".intercalate [""] = "" := String.intercalate_singleton
    rw [← empty]
    exact ignores_plain valid (by simp) (by decide) (by decide) (.inl filled)

/-- A star and a question mark inside a file name, and a directory at any depth. -/
theorem ignores_iff_leads_nested :
    ∃ m n, IgnoreMatcher.ofPatterns ["./src/**/*.t?x"] = .ok m ∧
      IgnoreMatcher.ofPatterns ["**/old/**"] = .ok n ∧
      m.ignores "src/old/a.tsx" = true ∧ n.ignores "src/old/a.tsx" = true ∧
      n.ignores "src/old" = false := by
  rcases ignores_iff_leads "./src/**/*.t?x" ["src", "**", "*.t?x"] (by decide +kernel)
    (by decide +kernel) with ⟨m, compiled, paths, -⟩
  rcases ignores_iff_leads "**/old/**" ["**", "old", "**"] (by decide +kernel)
    (by decide +kernel) with ⟨n, compiled', paths', -⟩
  have named := paths ["src", "old", "a.tsx"] (by simp) (by decide) (by simp) (by simp)
  have inside := paths' ["src", "old", "a.tsx"] (by simp) (by decide) (by simp) (by simp)
  have itself := paths' ["src", "old"] (by simp) (by decide) (by simp) (by simp)
  refine ⟨m, n, compiled, compiled', named.1.2 (by decide +kernel), inside.1.2 (by decide +kernel),
    ?_⟩
  -- below a file there is nothing
  rw [← Bool.not_eq_true]
  exact fun ignored => absurd (itself.1.1 ignored) (by decide +kernel)

end Rules
end ClientBoundary
