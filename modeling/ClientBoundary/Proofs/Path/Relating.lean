import ClientBoundary.Proofs.Path.ByteNames
import Mathlib.Data.List.Induction

/-!
# Relative paths lead back

Joined to its root, the relative path of a file leads to the file again. It leaves what the root has
beyond the longest common beginning, and then goes down to the file.

- `segments`: what stands between the slashes of a relative path;
- `IsLongestCommon`: the longest common beginning of two lists;
- `normalSteps_cancel`: steps up take back the names before them;
- `upAndDown`: the steps of a relative path;
- `relative_leads_back`: the relative path between plain paths that are text, and where it leads;
- `relative_leads_elsewhere`: names that are no text, and other spellings of a path, are not told
  apart.
-/

namespace ClientBoundary
namespace Path

open Text (utf8Bytes)

instance (path : String) : Decidable (Plain path) :=
  inferInstanceAs (Decidable (_ ∧ _))

/-! ## Segments -/

/-- The parts of a text between slashes; an empty text has none. -/
def segments (text : String) : List String :=
  if text = "" then [] else (splitSlash text.toList).map String.ofList

theorem segments_intercalate {parts : List String} (valid : ∀ p ∈ parts, IsPart p) :
    segments ("/".intercalate parts) = parts := by
  by_cases none_ : parts = []
  · rw [none_, String.intercalate_nil]
    rfl
  · have split := splitSlash_intercalate (fun p hp => (valid p hp).2.1) none_
    rw [segments, if_neg (intercalate_ne_empty valid none_), split, List.map_map]
    simp [Function.comp_def]

/-! ## The longest common beginning -/

/-- A common beginning of two lists that begins with every other one. -/
structure IsLongestCommon {α : Type} (common as bs : List α) : Prop where
  left : common <+: as
  right : common <+: bs
  longest : ∀ other, other <+: as → other <+: bs → other <+: common

/-- Where two lists differ right after a common beginning, it is the longest one. -/
theorem isLongestCommon_append {α : Type} {common as bs : List α}
    (apart : ∀ c, as.head? = some c → bs.head? ≠ some c) :
    IsLongestCommon common (common ++ as) (common ++ bs) := by
  refine ⟨List.prefix_append _ _, List.prefix_append _ _, ?_⟩
  intro other left right
  rcases List.prefix_or_prefix_of_prefix left (List.prefix_append common as) with short | long
  · exact short
  · rcases long with ⟨rest, rfl⟩
    rw [List.prefix_append_right_inj] at left right
    cases rest with
    | nil => simp
    | cons c rest =>
        rcases left with ⟨more, rfl⟩
        rcases right with ⟨others, rfl⟩
        exact absurd rfl (apart c rfl)

/-- What is left after the common beginning does not begin alike. -/
theorem dropCommon_apart (as bs : List Component) (c : Component)
    (here : (dropCommon as bs).1.head? = some c) : (dropCommon as bs).2.head? ≠ some c := by
  fun_induction dropCommon as bs with
  | case1 as a bs ih => exact ih here
  | case2 a as b bs differ =>
      rcases Option.some.inj here with rfl
      simpa using fun same => differ same.symm
  | case3 as bs short =>
      cases as with
      | nil => simp at here
      | cons a as =>
          cases bs with
          | nil => simp
          | cons b bs => exact absurd rfl (short a as b bs rfl)

/-- Two plain paths of one kind are the same up to a point, and differ in names from there on. -/
theorem Plain.branch {root file : String} (plain : Plain root) (plain' : Plain file)
    (same : isAbsolute root = isAbsolute file) :
    ∃ (common : List Component) (above below : List String),
      components root = common ++ above.map .name ∧
      components file = common ++ below.map .name ∧
      IsLongestCommon common (components root) (components file) ∧
      relativeParts (components root) (components file) =
        List.replicate above.length ".." ++ below := by
  rcases plain.names with ⟨as, -, shape⟩
  rcases plain'.names with ⟨bs, -, shape'⟩
  rcases dropCommon_split (as.map Component.name) (bs.map .name) with ⟨cs, left, right⟩
  have apart := dropCommon_apart (as.map .name) (bs.map .name)
  have fronts : front file = front root := by rw [front, front, same]
  have parts := relativeParts_eq (as.map .name) (bs.map .name)
  generalize (dropCommon (as.map Component.name) (bs.map .name)).1 = l at left apart parts
  generalize (dropCommon (as.map Component.name) (bs.map .name)).2 = r at right apart parts
  rcases List.map_eq_append_iff.1 left with ⟨first, above, -, -, rfl⟩
  rcases List.map_eq_append_iff.1 right with ⟨first', below, -, -, rfl⟩
  have one : components root = front root ++ cs ++ above.map .name := by
    rw [shape, left, List.append_assoc]
  have two : components file = front root ++ cs ++ below.map .name := by
    rw [shape', fronts, right, List.append_assoc]
  refine ⟨front root ++ cs, above, below, one, two, ?_, ?_⟩
  · rw [one, two]
    exact isLongestCommon_append apart
  · have ups : (above.map Component.name).filter Component.isName = above.map .name := by
      rw [List.filter_eq_self]
      simp [Component.isName]
    have down : (below.map Component.name).filterMap Component.part? = below := by
      simp [List.filterMap_map, Function.comp_def, Component.part?]
    rw [shape, shape', fronts, relativeParts_append, parts, ups, down, List.length_map]

/-! ## Steps up -/

/-- A step up takes back the name before it. -/
theorem normalSteps_back (cs rest : List Component) (text : String) :
    normalSteps (cs ++ .name text :: .parent :: rest) = normalSteps (cs ++ rest) := by
  rw [normalSteps, normalSteps, List.foldl_append, List.foldl_append]
  rfl

/-- As many steps up as there are names take all of them back. -/
theorem normalSteps_cancel (cs rest : List Component) (names : List String) :
    normalSteps (cs ++ names.map .name ++ List.replicate names.length .parent ++ rest) =
      normalSteps (cs ++ rest) := by
  induction names using List.reverseRecOn generalizing rest with
  | nil => simp
  | append_singleton names text ih =>
      -- the first step up takes back the last name
      have inner : cs ++ (names ++ [text]).map .name ++
          List.replicate (names ++ [text]).length .parent ++ rest =
            (cs ++ names.map .name) ++
              .name text :: .parent :: (List.replicate names.length .parent ++ rest) := by
        simp [List.replicate_succ]
      rw [inner, normalSteps_back, ← List.append_assoc, ih]

/-- Steps up, and then down through names. -/
def upAndDown (count : Nat) (names : List String) : List Component :=
  List.replicate count .parent ++ names.map .name

theorem filterMap_part?_upAndDown (count : Nat) (names : List String) :
    (upAndDown count names).filterMap Component.part? =
      List.replicate count ".." ++ names := by
  have up : (List.replicate count Component.parent).filterMap Component.part? =
      List.replicate count ".." :=
    List.filterMap_replicate_of_some rfl
  rw [upAndDown, List.filterMap_append, up]
  simp [List.filterMap_map, Function.comp_def, Component.part?]

theorem isStep_upAndDown {count : Nat} {names : List String} (valid : ∀ n ∈ names, IsName n) :
    ∀ c ∈ upAndDown count names, IsStep c := by
  intro c hc
  rcases List.mem_append.1 hc with up | down
  · rcases List.eq_of_mem_replicate up with rfl
    exact .up
  · rcases List.mem_map.1 down with ⟨n, hn, rfl⟩
    exact .down (valid n hn)

/-! ## Joined paths -/

/-- Steps that are joined to a path follow its components. -/
theorem components_join_steps {path : String} {steps : List Component}
    (valid : ∀ c ∈ steps, IsStep c) :
    components (join path ("/".intercalate (steps.filterMap Component.part?))) =
      components path ++ steps := by
  have sound : Sound steps := sound_of_steps fun c hc => .inr (valid c hc)
  rcases components_steps valid sound with ⟨leads, made⟩
  have relative := isAbsolute_eq_of_leading leads
  by_cases empty : path = ""
  · rw [empty, join_empty, components_eq, leads, made]
    rfl
  · rw [components_join_text empty relative, made]

/-- Paths with the same steps are normalised alike. -/
theorem normalize_congr {path other : String} (same : isAbsolute path = isAbsolute other)
    (steps : normalSteps (components path) = normalSteps (components other)) :
    normalize path = normalize other := by
  rw [normalize, normalize, same, steps]

/-- The relative path between two plain paths of one kind, when they are the same up to a point and
differ in names from there on. -/
theorem relative_of_branch {root file : String} {common : List Component}
    {above below : List String} (same : isAbsolute root = isAbsolute file)
    (left : components root = common ++ above.map .name)
    (right : components file = common ++ below.map .name)
    (parts : relativeParts (components root) (components file) =
      List.replicate above.length ".." ++ below) :
    segments (relative root file) = List.replicate above.length ".." ++ below ∧
      normalize (join root (relative root file)) = normalize file := by
  have valid : ∀ p ∈ List.replicate above.length ".." ++ below, IsPart p := by
    rw [← parts]
    exact isPart_of_relativeParts (sound_components file)
  have text := relative_eq same
  rw [parts] at text
  refine ⟨by rw [text, segments_intercalate valid], ?_⟩
  have steps : ∀ c ∈ upAndDown above.length below, IsStep c := by
    refine isStep_upAndDown fun n hn => sound_components file n ?_
    rw [right]
    exact List.mem_append_right _ (List.mem_map_of_mem hn)
  rw [← filterMap_part?_upAndDown] at text
  have joined : components (join root (relative root file)) =
      components root ++ upAndDown above.length below := by
    rw [text, components_join_steps steps]
  have relative_ : isAbsolute (relative root file) = false := by
    rw [text]
    exact isAbsolute_eq_of_leading (components_steps steps
      (sound_of_steps fun c hc => .inr (steps c hc))).1
  apply normalize_congr
  · rw [isAbsolute_join relative_, same]
  · rw [joined, left, right, upAndDown, ← List.append_assoc, normalSteps_cancel]

/-- A relative path between plain paths of one kind that are text leads from the root back to the
file. It goes up once for every component of the root behind the longest common beginning, and then
down through what is left of the file. It goes up at all only if the root is not a beginning of the
file. No other file has the same relative path. -/
theorem relative_leads_back (root file : String) (plain : Plain root) (plain' : Plain file)
    (same : isAbsolute root = isAbsolute file) :
    relativeOfBytes (utf8Bytes root) (utf8Bytes file) = relative root file ∧
      (normalize (join root (relative root file)) = normalize file ∧
        components (normalize (join root (relative root file))) = components file) ∧
      (∃ (common : List Component) (below : List String),
        IsLongestCommon common (components root) (components file) ∧
        components file = common ++ below.map .name ∧
        segments (relative root file) =
          List.replicate ((components root).length - common.length) ".." ++ below) ∧
      ((segments (relative root file)).head? = some ".." ↔
        ¬ components root <+: components file) ∧
      ∀ other, Plain other → isAbsolute root = isAbsolute other →
        relative root other = relative root file → components other = components file := by
  have back {file : String} (plain' : Plain file) (same : isAbsolute root = isAbsolute file) :
      components (normalize (join root (relative root file))) = components file := by
    rcases plain.branch plain' same with ⟨common, above, below, left, right, -, parts⟩
    rw [(relative_of_branch same left right parts).2, plain'.components_normalize]
  rcases plain.branch plain' same with ⟨common, above, below, left, right, longest, parts⟩
  rcases relative_of_branch same left right parts with ⟨split, leads⟩
  refine ⟨relativeOfBytes_utf8Bytes root file, ⟨leads, back plain' same⟩,
    ⟨common, below, longest, right, ?_⟩, ?_, ?_⟩
  · have count : (components root).length - common.length = above.length := by
      rw [left, List.length_append, List.length_map, Nat.add_sub_cancel_left]
    rw [split, count]
  · rw [split, ← parts]
    exact plain.head?_relativeParts plain' same
  · intro other plain'' same' equal
    rw [← back plain' same, ← back plain'' same', equal]

/-- A directory whose name goes on beyond that of the root is outside. -/
theorem relative_leads_back_sibling :
    (Plain "/project" ∧ Plain "/project2/x") ∧
      normalize (join "/project" (relative "/project" "/project2/x")) = normalize "/project2/x" ∧
      (segments (relative "/project" "/project2/x")).head? = some ".." := by
  have plain : Plain "/project" := by decide +kernel
  have plain' : Plain "/project2/x" := by decide +kernel
  have outside : ¬ components "/project" <+: components "/project2/x" := by decide +kernel
  have leads := relative_leads_back "/project" "/project2/x" plain plain' (by decide)
  exact ⟨⟨plain, plain'⟩, leads.2.1.1, leads.2.2.2.1.2 outside⟩

/-- Of two files below a root whose names are single bytes that are no text, both have the same
relative path. So have two spellings of one path, of which one is given back. -/
theorem relative_leads_elsewhere :
    ¬ (∀ root file other : List UInt8,
        Plain (byteText root) ∧ Plain (byteText file) ∧ Plain (byteText other) →
        isAbsolute (byteText root) = isAbsolute (byteText file) ∧
          isAbsolute (byteText root) = isAbsolute (byteText other) →
        relativeOfBytes root other = relativeOfBytes root file →
          components (byteText other) = components (byteText file)) ∧
      relative "/p" "/p/a//b" = relative "/p" "/p/a/b" ∧
      normalize (join "/p" (relative "/p" "/p/a//b")) ≠ "/p/a//b" := by
  refine ⟨?_, by decide +kernel, by decide +kernel⟩
  intro told
  have plain : Plain (byteText [47]) ∧ Plain (byteText [47, 0xff]) ∧
      Plain (byteText [47, 0xfe]) := by decide +kernel
  have shown_ (b : UInt8) (broken : Text.firstChar? [b] = none) :
      Text.lossyText [b] = ['\uFFFD'] := by
    rw [Text.lossyText, broken]
    simp [Text.brokenLength, Text.lossyText]
  have parts : partsBetween (byteText [47]) (byteText [47, 0xff]) = ["\u00ff"] ∧
      partsBetween (byteText [47]) (byteText [47, 0xfe]) = ["\u00fe"] := by decide +kernel
  have last : shown "\u00ff" = shown "\u00fe" := by
    have one : "\u00ff".toList.map Char.toUInt8 = [0xff] := rfl
    have two : "\u00fe".toList.map Char.toUInt8 = [0xfe] := rfl
    rw [shown, shown, one, two, shown_ 0xff rfl, shown_ 0xfe rfl]
  have equal : relativeOfBytes [47] [47, 0xfe] = relativeOfBytes [47] [47, 0xff] := by
    rw [relativeOfBytes, relativeOfBytes, parts.1, parts.2, List.map_singleton,
      List.map_singleton, last]
  have apart : components (byteText [47, 0xfe]) ≠ components (byteText [47, 0xff]) := by
    decide +kernel
  exact apart (told [47] [47, 0xff] [47, 0xfe] plain (by decide +kernel) equal)

end Path
end ClientBoundary
