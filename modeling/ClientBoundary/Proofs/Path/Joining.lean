import ClientBoundary.Path.Relative
import Mathlib.Data.List.Basic

/-!
# Names joined to a path

A name that is joined to a path becomes its last component, and the path of a file relative to a
directory above it is made of the names in between.

- `IsName`: what a directory can hold as the name of an entry;
- `components_join_text`, `components_join`: the components of a joined path;
- `IsPart`, `intercalate_injective`: parts with slashes between them;
- `relative_of_components`: the relative path of a file below a directory.
-/

namespace ClientBoundary
namespace Path

/-- A name of a directory entry: not empty, without a slash, and no step. -/
def IsName (name : String) : Prop :=
  name ≠ "" ∧ '/' ∉ name.toList ∧ name ≠ "." ∧ name ≠ ".."

instance (name : String) : Decidable (IsName name) :=
  inferInstanceAs (Decidable (_ ∧ _ ∧ _ ∧ _))

/-- What can stand between the slashes of a path: a name, or a parent step. -/
def IsPart (part : String) : Prop :=
  part ≠ "" ∧ '/' ∉ part.toList ∧ part ≠ "."

theorem IsName.isPart {name : String} (h : IsName name) : IsPart name :=
  ⟨h.1, h.2.1, h.2.2.1⟩

theorem isPart_parent : IsPart ".." := by
  refine ⟨?_, ?_, ?_⟩ <;> decide

/-! ## Parts between slashes -/

theorem splitSlash_ne_nil (text : List Char) : splitSlash text ≠ [] := by
  cases text with
  | nil => simp [splitSlash]
  | cons c cs =>
      by_cases slash : c = '/'
      · simp [splitSlash, slash]
      · cases parts : splitSlash cs <;> simp [splitSlash, slash, parts]

theorem splitSlash_append (xs ys : List Char) :
    splitSlash (xs ++ '/' :: ys) = splitSlash xs ++ splitSlash ys := by
  induction xs with
  | nil => simp [splitSlash]
  | cons c cs ih =>
      by_cases slash : c = '/'
      · simp [splitSlash, slash, ih]
      · rcases List.exists_cons_of_ne_nil (splitSlash_ne_nil cs) with ⟨part, parts, shape⟩
        simp [splitSlash, slash, ih, shape]

/-- A text without a slash is one part. -/
theorem splitSlash_of_solid {text : List Char} (solid : '/' ∉ text) : splitSlash text = [text] := by
  induction text with
  | nil => rfl
  | cons c cs ih =>
      rw [List.mem_cons, not_or] at solid
      have slash : c ≠ '/' := fun same => solid.1 same.symm
      simp [splitSlash, slash, ih solid.2]

theorem ofPart_of_isName {name : String} (h : IsName name) :
    ofPart name.toList = some (.name name) := by
  rcases h with ⟨filled, -, here, parent⟩
  have empty : name.toList ≠ [] := fun same => filled (String.toList_inj.1 same)
  have dot : name.toList ≠ ['.'] := fun same => here (String.toList_inj.1 same)
  have dots : name.toList ≠ ['.', '.'] := fun same => parent (String.toList_inj.1 same)
  simp [ofPart, empty, dot, dots]

/-! ## Components -/

/-- The component that only the front of a path makes. -/
def leading (text : List Char) : List Component :=
  if text.head? = some '/' then [.root]
  else if (splitSlash text).head? = some ['.'] then [.here]
  else []

theorem components_eq (path : String) :
    components path = leading path.toList ++ (splitSlash path.toList).filterMap ofPart := by
  simp only [components, leading]
  -- the front is a root, a part before the first slash that is a dot, or anything else
  split
  · rename_i front
    simp [front]
  · rename_i front slash
    have relative : path.toList.head? ≠ some '/' := by
      intro same
      rcases List.head?_eq_some_iff.1 same with ⟨more, shape⟩
      exact slash more shape
    simp [front, relative]
  · rename_i slash dot
    have relative : path.toList.head? ≠ some '/' := by
      intro same
      rcases List.head?_eq_some_iff.1 same with ⟨more, shape⟩
      exact slash more shape
    have named : (splitSlash path.toList).head? ≠ some ['.'] := by
      intro same
      rcases List.head?_eq_some_iff.1 same with ⟨more, shape⟩
      exact dot more shape
    simp [relative, named]

/-- Only an absolute path begins with the root. -/
theorem head?_components (path : String) :
    (components path).head? = some .root ↔ isAbsolute path = true := by
  have rest : ∀ c ∈ (splitSlash path.toList).filterMap ofPart, c ≠ .root := by
    rintro c mem rfl
    rcases List.mem_filterMap.1 mem with ⟨part, -, made⟩
    unfold ofPart at made
    split at made
    · cases made
    · split at made <;> cases made
  rw [components_eq, leading, isAbsolute, beq_iff_eq]
  split
  · rename_i absolute
    simp [absolute]
  · rename_i relative
    simp only [relative, iff_false]
    split
    · simp
    · intro first
      exact rest _ (List.mem_of_mem_head? first) rfl

/-- Names behind the components of a path change nothing of where it starts. -/
theorem isAbsolute_of_components {path other : String} {names : List String}
    (parts : components path = components other ++ names.map .name) :
    isAbsolute path = isAbsolute other := by
  rw [Bool.eq_iff_iff, ← head?_components, ← head?_components, parts, List.head?_append]
  cases (components other).head? with
  | some c => rfl
  | none => cases names <;> simp

/-- The front of a text stays when more follows behind a slash. -/
theorem leading_append {c : Char} (cs ys : List Char) :
    leading (c :: cs ++ '/' :: ys) = leading (c :: cs) := by
  rcases List.exists_cons_of_ne_nil (splitSlash_ne_nil (c :: cs)) with ⟨part, parts, shape⟩
  have longer := splitSlash_append (c :: cs) ys
  rw [shape] at longer
  -- both texts begin with the same character, and so do their parts
  rw [leading, leading, shape, longer]
  rfl

theorem leading_slash (xs ys : List Char) :
    leading (xs ++ '/' :: ys) = leading (xs ++ ['/']) := by
  cases xs with
  | nil => rfl
  | cons c cs => rw [leading_append, leading_append]

theorem components_of_slash {xs ys : List Char} :
    components (String.ofList (xs ++ '/' :: ys)) =
      components (String.ofList (xs ++ ['/'])) ++ (splitSlash ys).filterMap ofPart := by
  have blank : (splitSlash []).filterMap ofPart = [] := rfl
  rw [components_eq, components_eq, String.toList_ofList, String.toList_ofList, leading_slash,
    splitSlash_append, splitSlash_append, List.filterMap_append, List.filterMap_append, blank]
  simp

theorem components_slash {path : String} (filled : path ≠ "") :
    components (path ++ "/") = components path := by
  have blank : (splitSlash []).filterMap ofPart = [] := rfl
  have slash : (path ++ "/").toList = path.toList ++ ['/'] := by simp
  rw [components_eq, components_eq, slash, splitSlash_append, List.filterMap_append, blank]
  cases shape : path.toList with
  | nil => exact absurd (String.toList_inj.1 shape) filled
  | cons c cs => rw [leading_append, List.append_nil]

/-- A part is joined to a path behind a slash, which is put there unless the path ends in one. -/
theorem exists_join {path text : String} (filled : path ≠ "")
    (relative : isAbsolute text = false) :
    ∃ front, join path text = String.ofList (front ++ '/' :: text.toList) ∧
      components (String.ofList (front ++ ['/'])) = components path := by
  have notEmpty : path.isEmpty = false := by simpa using filled
  unfold join
  rw [relative, notEmpty]
  simp only [Bool.false_eq_true, if_false, Bool.false_or]
  by_cases slash : path.toList.getLast? = some '/'
  · -- the path ends in the slash that stands before the text
    rcases List.getLast?_eq_some_iff.1 slash with ⟨front, shape⟩
    refine ⟨front, ?_, ?_⟩
    · rw [if_pos (by simpa using slash), ← String.toList_inj]
      simp [shape]
    · rw [← shape, String.ofList_toList]
  · -- a slash is put between them
    refine ⟨path.toList, ?_, ?_⟩
    · rw [if_neg (by simpa using slash), ← String.toList_inj]
      simp
    · have front : String.ofList (path.toList ++ ['/']) = path ++ "/" := by
        rw [← String.toList_inj]
        simp
      rw [front, components_slash filled]

/-- What is joined to a path adds the components of its own parts. -/
theorem components_join_text {path text : String} (filled : path ≠ "")
    (relative : isAbsolute text = false) :
    components (join path text) =
      components path ++ (splitSlash text.toList).filterMap ofPart := by
  rcases exists_join filled relative with ⟨front, whole, same⟩
  rw [whole, components_of_slash, same]

theorem IsName.relative {name : String} (valid : IsName name) : isAbsolute name = false := by
  unfold isAbsolute
  cases shape : name.toList with
  | nil => rfl
  | cons c cs =>
      have slash : c ≠ '/' := by
        rintro rfl
        exact valid.2.1 (shape ▸ List.mem_cons_self)
      simp [slash]

/-- A name that is joined to a path is its last component. -/
theorem components_join {path name : String} (filled : path ≠ "") (valid : IsName name) :
    components (join path name) = components path ++ [.name name] := by
  rw [components_join_text filled valid.relative, splitSlash_of_solid valid.2.1]
  simp [ofPart_of_isName valid]

/-- A name that is joined to a path is its last part, too. -/
theorem getLast?_splitSlash_join {path name : String} (filled : path ≠ "") (valid : IsName name) :
    (splitSlash (join path name).toList).getLast? = some name.toList := by
  rcases exists_join filled valid.relative with ⟨front, whole, -⟩
  rw [whole, String.toList_ofList, splitSlash_append, splitSlash_of_solid valid.2.1]
  simp

theorem join_empty (text : String) : join "" text = text := by
  have empty : ("".isEmpty || "".toList.getLast? == some '/') = true := rfl
  unfold join
  rw [if_pos empty, String.empty_append, ite_self]

theorem isAbsolute_join {path text : String} (relative : isAbsolute text = false) :
    isAbsolute (join path text) = isAbsolute path := by
  by_cases empty : path = ""
  · rw [empty, join_empty, relative]
    rfl
  · cases shape : path.toList with
    | nil => exact absurd (String.toList_inj.1 shape) empty
    | cons c cs =>
        rw [join, relative, if_neg Bool.false_ne_true]
        split <;> simp [isAbsolute, shape]

/-! ## Relative paths -/

theorem relative_of_components {root file : String} {names : List String}
    (h : components file = components root ++ names.map .name) :
    relative root file = "/".intercalate names := by
  have below : (components root).isPrefixOf (components file) = true := by
    rw [List.isPrefixOf_iff_prefix, h]
    exact List.prefix_append _ _
  have parts : (names.map Component.name).filterMap Component.part? = names := by
    simp [List.filterMap_map, Function.comp_def, Component.part?]
  rw [relative, partsBetween, if_pos below, h, List.drop_left, parts]

theorem splitSlash_intercalate : ∀ {parts : List String}, (∀ p ∈ parts, '/' ∉ p.toList) →
    parts ≠ [] → splitSlash ("/".intercalate parts).toList = parts.map String.toList
  | [], _, filled => absurd rfl filled
  | [part], solid, _ => by
      rw [String.intercalate_singleton, splitSlash_of_solid (solid part List.mem_cons_self)]
      rfl
  | part :: next :: more, solid, _ => by
      have tail : ∀ p ∈ next :: more, '/' ∉ p.toList := by
        intro p hp
        exact solid p (List.mem_cons_of_mem part hp)
      have ih := splitSlash_intercalate tail (by simp)
      have whole : ("/".intercalate (part :: next :: more)).toList =
          part.toList ++ '/' :: ("/".intercalate (next :: more)).toList := by
        rw [String.intercalate_cons_cons]
        simp
      rw [whole, splitSlash_append, splitSlash_of_solid (solid part List.mem_cons_self), ih]
      rfl

/-- A path that begins with a name or a parent step begins neither at the root nor with a dot. -/
theorem leading_of_split {text : List Char} {part : String} {parts : List (List Char)}
    (filled : part ≠ "") (here : part ≠ ".") (split : splitSlash text = part.toList :: parts) :
    leading text = [] := by
  have dot : part.toList ≠ ['.'] := fun same => here (String.toList_inj.1 same)
  have slash : text.head? ≠ some '/' := by
    intro same
    rcases List.head?_eq_some_iff.1 same with ⟨more, rfl⟩
    rw [splitSlash, if_pos rfl] at split
    exact filled (String.toList_inj.1 (List.cons.inj split).1.symm)
  rw [leading, if_neg slash, split]
  simp [dot]

theorem intercalate_ne_empty {parts : List String} (valid : ∀ p ∈ parts, IsPart p)
    (filled : parts ≠ []) : "/".intercalate parts ≠ "" := by
  intro empty
  have split := splitSlash_intercalate (fun p hp => (valid p hp).2.1) filled
  rw [empty] at split
  cases parts with
  | nil => exact filled rfl
  | cons p ps =>
      have blank : "" = p := String.toList_inj.1 (List.cons.inj split).1
      exact (valid p List.mem_cons_self).1 blank.symm

/-- Different parts make different texts. -/
theorem intercalate_injective {parts others : List String} (valid : ∀ p ∈ parts, IsPart p)
    (sound : ∀ p ∈ others, IsPart p) (same : "/".intercalate parts = "/".intercalate others) :
    parts = others := by
  by_cases none_ : parts = []
  · by_contra differ
    have filled : others ≠ [] := fun empty => differ (none_.trans empty.symm)
    rw [none_, String.intercalate_nil] at same
    exact intercalate_ne_empty sound filled same.symm
  by_cases none' : others = []
  · rw [none', String.intercalate_nil] at same
    exact absurd same (intercalate_ne_empty valid none_)
  · -- the parts are read off the text
    have left := splitSlash_intercalate (fun p hp => (valid p hp).2.1) none_
    have right := splitSlash_intercalate (fun p hp => (sound p hp).2.1) none'
    rw [same, right] at left
    exact (List.map_injective_iff.2 (fun _ _ => String.toList_inj.1) left).symm

end Path
end ClientBoundary
