import ClientBoundary.Proofs.Path.Joining
import Mathlib.Data.Set.List

/-!
# Normalised paths

A path is normalised by dropping its dots and cancelling every name before a parent step. What is
left are parent steps and then names.

- `normalSteps`, `normalize`: normalised steps and paths;
- `Normal`: steps that are normalised;
- `components_normalize`: the components of a normalised path;
- `relative_eq`, `relativeParts_front`: a relative path is made of parts, whether the file is
  written below the root or not.
-/

namespace ClientBoundary
namespace Path

/-! ## Steps -/

/-- A further component of a path, after normalised steps, the latest first: a name before a parent
step is cancelled, and a dot is dropped. -/
def follow : List Component → Component → List Component
  | steps, .name text => .name text :: steps
  | .name _ :: steps, .parent => steps
  | steps, .parent => .parent :: steps
  | steps, .root => steps
  | steps, .here => steps

/-- The normalised steps of components, without the root. -/
def normalSteps (cs : List Component) : List Component :=
  (cs.foldl follow []).reverse

/-- A path without dots and without names that a parent step takes back. -/
def normalize (path : String) : String :=
  (if isAbsolute path then "/" else "") ++
    "/".intercalate ((normalSteps (components path)).filterMap Component.part?)

/-- A step down to a valid name, or up. -/
inductive IsStep : Component → Prop where
  | up : IsStep .parent
  | down {text : String} (valid : IsName text) : IsStep (.name text)

/-- Normalised steps go up first, and then down. -/
structure Normal (cs : List Component) : Prop where
  steps : ∀ c ∈ cs, IsStep c
  order : cs.Pairwise fun earlier later => earlier.isName = true → later ≠ .parent

/-- Components as they stand in a path: names are valid. -/
def Sound (cs : List Component) : Prop :=
  ∀ text, .name text ∈ cs → IsName text

theorem Sound.of_append {cs rest : List Component} (sound : Sound (cs ++ rest)) : Sound rest :=
  fun text mem => sound text (List.mem_append_right cs mem)

theorem follow_normal {steps : List Component} {c : Component} (normal : Normal steps.reverse)
    (valid : ∀ text, c = .name text → IsName text) : Normal (follow steps c).reverse := by
  have order := List.pairwise_reverse.1 normal.order
  have sound : ∀ d ∈ steps, IsStep d := by simpa using normal.steps
  have pushed {c : Component} (step : IsStep c)
      (late : ∀ d ∈ steps, d.isName = true → c ≠ .parent) : Normal (c :: steps).reverse := by
    refine ⟨?_, List.pairwise_reverse.2 (List.pairwise_cons.2 ⟨late, order⟩)⟩
    simpa only [List.mem_reverse, List.forall_mem_cons] using ⟨step, sound⟩
  cases c with
  | root => simpa [follow] using normal
  | here => simpa [follow] using normal
  | name text => exact pushed (.down (valid text rfl)) (by simp)
  | parent =>
      cases steps with
      | nil => exact pushed .up (by simp)
      | cons d steps =>
          cases sound d List.mem_cons_self with
          | down =>
              -- the name is taken back
              refine ⟨?_, List.pairwise_reverse.2 (List.pairwise_cons.1 order).2⟩
              intro e he
              exact sound e (List.mem_cons_of_mem _ (List.mem_reverse.1 he))
          | up =>
              -- no name stands before a parent step
              refine pushed .up fun e he named => ?_
              rcases List.mem_cons.1 he with rfl | he
              · simp [Component.isName] at named
              · exact absurd rfl ((List.pairwise_cons.1 order).1 e he named)

theorem normal_normalSteps {cs : List Component} (sound : Sound cs) : Normal (normalSteps cs) := by
  -- along the components, from any normalised steps on
  have along (steps : List Component) (normal : Normal steps.reverse) :
      Normal (cs.foldl follow steps).reverse := by
    induction cs generalizing steps with
    | nil => exact normal
    | cons c cs ih =>
        have tail : Sound cs := fun text mem => sound text (List.mem_cons_of_mem c mem)
        refine ih tail _ (follow_normal normal ?_)
        rintro text rfl
        exact sound text List.mem_cons_self
  exact along [] ⟨by simp, by simp⟩

/-- Components without a parent step add their names to the normalised steps. -/
theorem normalSteps_append {cs rest : List Component} (down : .parent ∉ rest) :
    normalSteps (cs ++ rest) = normalSteps cs ++ rest.filter Component.isName := by
  have along (steps : List Component) :
      (rest.foldl follow steps).reverse = steps.reverse ++ rest.filter Component.isName := by
    induction rest generalizing steps with
    | nil => simp
    | cons c rest ih =>
        have tail : .parent ∉ rest := fun mem => down (List.mem_cons_of_mem c mem)
        rw [List.foldl_cons, ih tail]
        cases c with
        | parent => exact absurd List.mem_cons_self down
        | _ => simp [follow, Component.isName, List.filter_cons]
  rw [normalSteps, List.foldl_append, along]
  rfl

/-! ## Parts -/

theorem isPart_of_sound {cs : List Component} (sound : Sound cs) :
    ∀ p ∈ cs.filterMap Component.part?, IsPart p := by
  intro p hp
  rcases List.mem_filterMap.1 hp with ⟨c, hc, part⟩
  cases c with
  | name text =>
      rcases Option.some.inj part with rfl
      exact (sound text hc).isPart
  | parent =>
      rcases Option.some.inj part with rfl
      exact isPart_parent
  | root => cases part
  | here => cases part

/-- Among normalised steps there is a parent step only if there is one in front. -/
theorem Normal.head?_parts {cs : List Component} (normal : Normal cs) :
    .parent ∈ cs ↔ (cs.filterMap Component.part?).head? = some ".." := by
  cases cs with
  | nil => simp
  | cons c cs =>
      cases normal.steps c List.mem_cons_self with
      | up => simp [Component.part?]
      | @down text valid =>
          have names : .parent ∉ cs := fun mem =>
            (List.pairwise_cons.1 normal.order).1 _ mem rfl rfl
          have named : text ≠ ".." := valid.2.2.2
          simp [Component.part?, names, named]

/-- The components that the parts of steps make are these steps. -/
theorem ofPart_parts {cs : List Component} (steps : ∀ c ∈ cs, IsStep c) :
    ((cs.filterMap Component.part?).map String.toList).filterMap ofPart = cs := by
  induction cs with
  | nil => rfl
  | cons c cs ih =>
      have tail := ih fun d hd => steps d (List.mem_cons_of_mem c hd)
      cases steps c List.mem_cons_self with
      | up =>
          have up : ofPart ['.', '.'] = some .parent := by decide
          simp [Component.part?, up, tail]
      | down valid => simp [Component.part?, ofPart_of_isName valid, tail]

/-! ## Components of a path -/

/-- The root in front of an absolute path. -/
def front (path : String) : List Component :=
  if isAbsolute path then [.root] else []

theorem solid_of_mem_splitSlash {text part : List Char} (h : part ∈ splitSlash text) :
    '/' ∉ part := by
  induction text generalizing part with
  | nil => simp_all [splitSlash]
  | cons c cs ih =>
      by_cases slash : c = '/'
      · rw [splitSlash, if_pos slash] at h
        rcases List.mem_cons.1 h with rfl | h
        · simp
        · exact ih h
      · rcases List.exists_cons_of_ne_nil (splitSlash_ne_nil cs) with ⟨first, parts, shape⟩
        rw [splitSlash, if_neg slash, shape] at h
        rw [shape] at ih
        rcases List.mem_cons.1 h with rfl | h
        · rw [List.mem_cons, not_or]
          exact ⟨fun same => slash same.symm, ih List.mem_cons_self⟩
        · exact ih (List.mem_cons_of_mem first h)

/-- A text is its first part, or goes on behind it with a slash. -/
theorem head?_splitSlash {text part : List Char} (h : (splitSlash text).head? = some part) :
    text = part ∨ ∃ more, text = part ++ '/' :: more := by
  induction text generalizing part with
  | nil => exact .inl (Option.some.inj h)
  | cons c cs ih =>
      by_cases slash : c = '/'
      · rw [splitSlash, if_pos slash, List.head?_cons, Option.some.injEq] at h
        exact .inr ⟨cs, by rw [← h, slash, List.nil_append]⟩
      · rcases List.exists_cons_of_ne_nil (splitSlash_ne_nil cs) with ⟨first, parts, shape⟩
        rw [splitSlash, if_neg slash, shape, List.head?_cons, Option.some.injEq] at h
        rcases ih (by rw [shape, List.head?_cons]) with rfl | ⟨more, rfl⟩
        · exact .inl h
        · exact .inr ⟨more, by rw [← h, List.cons_append]⟩

/-- A part makes a step or nothing. -/
theorem isStep_of_ofPart {part : List Char} {c : Component} (solid : '/' ∉ part)
    (h : ofPart part = some c) : IsStep c := by
  unfold ofPart at h
  split at h
  · simp at h
  · rename_i plain
    split at h
    · rcases Option.some.inj h with rfl
      exact .up
    · rename_i up
      rcases Option.some.inj h with rfl
      rw [not_or] at plain
      refine .down ⟨?_, by simpa using solid, ?_, ?_⟩ <;>
        · rw [ne_eq, ← String.toList_inj, String.toList_ofList]
          first | exact plain.1 | exact plain.2 | exact up

/-- The components of a path: the root of an absolute one, then dots and steps. -/
theorem components_front (path : String) :
    ∃ rest, components path = front path ++ rest ∧ ∀ c ∈ rest, c = .here ∨ IsStep c := by
  have steps : ∀ c ∈ (splitSlash path.toList).filterMap ofPart, IsStep c := by
    intro c hc
    rcases List.mem_filterMap.1 hc with ⟨part, hp, made⟩
    exact isStep_of_ofPart (solid_of_mem_splitSlash hp) made
  rw [components_eq, leading, front]
  cases absolute : isAbsolute path with
  | true =>
      have slash : path.toList.head? = some '/' := by simpa [isAbsolute] using absolute
      rw [if_pos slash, if_pos rfl]
      exact ⟨_, rfl, fun c hc => .inr (steps c hc)⟩
  | false =>
      have slash : path.toList.head? ≠ some '/' := by simpa [isAbsolute] using absolute
      rw [if_neg slash, if_neg Bool.false_ne_true]
      refine ⟨_, rfl, fun c hc => ?_⟩
      rcases List.mem_append.1 hc with dot | step
      · split at dot
        · exact .inl (List.mem_singleton.1 dot)
        · cases dot
      · exact .inr (steps c step)

theorem sound_of_steps {cs : List Component} (h : ∀ c ∈ cs, c = .here ∨ IsStep c) : Sound cs := by
  intro text mem
  rcases h _ mem with dot | step
  · cases dot
  · cases step with
    | down valid => exact valid

theorem sound_components (path : String) : Sound (components path) := by
  rcases components_front path with ⟨rest, shape, steps⟩
  intro text mem
  rw [shape] at mem
  rcases List.mem_append.1 mem with root | below
  · unfold front at root
    split at root <;> simp at root
  · exact sound_of_steps steps text below

/-! ## Normalised paths -/

theorem Normal.sound {cs : List Component} (normal : Normal cs) : Sound cs :=
  sound_of_steps fun c hc => .inr (normal.steps c hc)

theorem isAbsolute_eq_of_leading {text : String} (h : leading text.toList = []) :
    isAbsolute text = false := by
  unfold leading at h
  split at h
  · simp at h
  · rename_i slash
    simpa [isAbsolute] using slash

/-- Steps with slashes between them are the components of a relative path. -/
theorem components_steps {cs : List Component} (steps : ∀ c ∈ cs, IsStep c) (sound : Sound cs) :
    leading ("/".intercalate (cs.filterMap Component.part?)).toList = [] ∧
      (splitSlash ("/".intercalate (cs.filterMap Component.part?)).toList).filterMap ofPart =
        cs := by
  have valid := isPart_of_sound sound
  have made := ofPart_parts steps
  cases parts : cs.filterMap Component.part? with
  | nil =>
      rw [parts] at made
      rw [String.intercalate_nil]
      exact ⟨rfl, made⟩
  | cons p ps =>
      rw [parts] at made valid
      have split := splitSlash_intercalate (fun q hq => (valid q hq).2.1) (List.cons_ne_nil p ps)
      have first := valid p List.mem_cons_self
      rw [split, made]
      exact ⟨leading_of_split first.1 first.2.2 split, rfl⟩

theorem normalize_spec (path : String) :
    isAbsolute (normalize path) = isAbsolute path ∧
      components (normalize path) = front path ++ normalSteps (components path) := by
  have normal := normal_normalSteps (sound_components path)
  rcases components_steps normal.steps normal.sound with ⟨relative, made⟩
  rw [front, normalize]
  generalize "/".intercalate ((normalSteps (components path)).filterMap Component.part?) = below
    at relative made ⊢
  cases absolute : isAbsolute path with
  | false =>
      simp only [Bool.false_eq_true, if_false, String.empty_append, List.nil_append]
      refine ⟨isAbsolute_eq_of_leading relative, ?_⟩
      rw [components_eq, relative, made, List.nil_append]
  | true =>
      have blank : ofPart [] = none := rfl
      simp only [if_true]
      refine ⟨by simp [isAbsolute], ?_⟩
      rw [components_eq]
      simp [leading, splitSlash, blank, made]

theorem isAbsolute_normalize (path : String) : isAbsolute (normalize path) = isAbsolute path :=
  (normalize_spec path).1

/-- The components of a normalised path are its normalised steps. -/
theorem components_normalize (path : String) :
    components (normalize path) = front path ++ normalSteps (components path) :=
  (normalize_spec path).2

/-! ## Relative paths -/

theorem dropCommon_append (cs as bs : List Component) :
    dropCommon (cs ++ as) (cs ++ bs) = dropCommon as bs := by
  induction cs with
  | nil => rfl
  | cons c cs ih => simp [dropCommon, ih]

theorem relativeParts_eq (as bs : List Component) :
    relativeParts as bs =
      List.replicate ((dropCommon as bs).1.filter Component.isName).length ".." ++
        (dropCommon as bs).2.filterMap Component.part? := rfl

theorem relativeParts_append (cs as bs : List Component) :
    relativeParts (cs ++ as) (cs ++ bs) = relativeParts as bs := by
  rw [relativeParts_eq, dropCommon_append, relativeParts_eq]

theorem dropCommon_split (as bs : List Component) :
    ∃ cs, as = cs ++ (dropCommon as bs).1 ∧ bs = cs ++ (dropCommon as bs).2 := by
  fun_induction dropCommon as bs with
  | case1 as a bs ih =>
      rcases ih with ⟨cs, left, right⟩
      exact ⟨a :: cs, by rw [List.cons_append, ← left], by rw [List.cons_append, ← right]⟩
  | case2 => exact ⟨[], rfl, rfl⟩
  | case3 => exact ⟨[], rfl, rfl⟩

/-- Nothing is left of the first list where it is a beginning of the second. -/
theorem dropCommon_eq_nil_iff {as bs : List Component} :
    (dropCommon as bs).1 = [] ↔ as <+: bs := by
  constructor
  · intro none_
    rcases dropCommon_split as bs with ⟨cs, left, right⟩
    rw [none_, List.append_nil] at left
    exact ⟨_, by rw [left, ← right]⟩
  · rintro ⟨rest, rfl⟩
    have same := dropCommon_append as [] rest
    rw [List.append_nil] at same
    rw [same]
    cases rest <;> rfl

/-- A file written below the root is seen as what follows the root. -/
theorem relativeParts_below (cs rest : List Component) :
    relativeParts cs (cs ++ rest) = rest.filterMap Component.part? := by
  have same := relativeParts_append cs [] rest
  rw [List.append_nil] at same
  rw [same]
  cases rest <;> simp [relativeParts, dropCommon]

/-- The parts of a relative path, when both or none of the paths are absolute. -/
theorem relative_eq {root file : String} (same : isAbsolute root = isAbsolute file) :
    relative root file = "/".intercalate (relativeParts (components root) (components file)) := by
  by_cases below : (components root).isPrefixOf (components file) = true
  · rcases List.isPrefixOf_iff_prefix.1 below with ⟨rest, shape⟩
    rw [relative, partsBetween, if_pos below, ← shape, List.drop_left, relativeParts_below]
  · rw [relative, partsBetween, if_neg below, if_neg (by simp [same])]

theorem isPart_of_relativeParts {as bs : List Component} (sound : Sound bs) :
    ∀ p ∈ relativeParts as bs, IsPart p := by
  rcases dropCommon_split as bs with ⟨cs, -, shape⟩
  have below : Sound (dropCommon as bs).2 := by
    rw [shape] at sound
    exact sound.of_append
  intro p hp
  rcases List.mem_append.1 hp with up | down
  · rcases List.eq_of_mem_replicate up with rfl
    exact isPart_parent
  · exact isPart_of_sound below p down

theorem parent_mem_parts {cs : List Component} (sound : Sound cs) :
    ".." ∈ cs.filterMap Component.part? ↔ .parent ∈ cs := by
  constructor
  · intro mem
    rcases List.mem_filterMap.1 mem with ⟨c, hc, part⟩
    cases c with
    | parent => exact hc
    | name text => exact absurd (Option.some.inj part) (sound text hc).2.2.2
    | root => cases part
    | here => cases part
  · intro mem
    exact List.mem_filterMap.2 ⟨_, mem, rfl⟩

/-- Seen from anywhere, a normalised file goes up only in front. -/
theorem Normal.head?_relativeParts {as bs : List Component} (normal : Normal bs)
    (up : ".." ∈ relativeParts as bs) : (relativeParts as bs).head? = some ".." := by
  rcases dropCommon_split as bs with ⟨cs, -, shape⟩
  have below : Normal (dropCommon as bs).2 := by
    rw [shape] at normal
    exact ⟨fun c hc => normal.steps c (List.mem_append_right cs hc),
      (List.pairwise_append.1 normal.order).2.1⟩
  rw [relativeParts_eq] at up ⊢
  cases count : ((dropCommon as bs).1.filter Component.isName).length with
  | zero =>
      simp only [count, List.replicate_zero, List.nil_append] at up ⊢
      exact below.head?_parts.1 ((parent_mem_parts below.sound).1 up)
  | succ n => simp [List.replicate_succ]

section Normalize

variable {root file : String} (same : isAbsolute root = isAbsolute file)

include same

/-- The parts of a relative path between normalised paths. -/
theorem relative_normalize_eq :
    relative (normalize root) (normalize file) =
      "/".intercalate (relativeParts (normalSteps (components root))
        (normalSteps (components file))) := by
  have kept : isAbsolute (normalize root) = isAbsolute (normalize file) := by
    rw [isAbsolute_normalize, isAbsolute_normalize, same]
  rw [relative_eq kept, components_normalize, components_normalize, front, front, same,
    relativeParts_append]

/-- Normalising leaves the relative path of a file alone that is written below the root without
parent steps. -/
theorem relative_normalize_of_down {rest : List Component}
    (below : components file = components root ++ rest) (down : .parent ∉ rest) :
    relative (normalize root) (normalize file) = relative root file := by
  have parts : (rest.filter Component.isName).filterMap Component.part? =
      rest.filterMap Component.part? := by
    rw [List.filterMap_filter]
    refine List.filterMap_congr fun c hc => ?_
    cases c with
    | parent => exact absurd hc down
    | _ => rfl
  rw [relative_normalize_eq same, relative_eq same, below, normalSteps_append down,
    relativeParts_below, relativeParts_below, parts]

/-- With parent steps below the root the relative path is another one when the file is normalised,
unless it leads out of the root. -/
theorem head?_of_relative_normalize {rest : List Component}
    (below : components file = components root ++ rest) (up : .parent ∈ rest)
    (equal : relative (normalize root) (normalize file) = relative root file) :
    (relativeParts (components root) (components file)).head? = some ".." := by
  have normal := normal_normalSteps (sound_components file)
  have sound := sound_components file
  -- equal texts have equal parts, and the parts of the normalised path go up only in front
  have parts : relativeParts (normalSteps (components root)) (normalSteps (components file)) =
      relativeParts (components root) (components file) := by
    rw [relative_normalize_eq same, relative_eq same] at equal
    exact intercalate_injective (isPart_of_relativeParts normal.sound)
      (isPart_of_relativeParts sound) equal
  have mem : ".." ∈ relativeParts (components root) (components file) := by
    rw [below, relativeParts_below]
    exact List.mem_filterMap.2 ⟨_, up, rfl⟩
  rw [← parts] at mem ⊢
  exact normal.head?_relativeParts mem

end Normalize

/-! ## Plain paths -/

/-- A path without dots and parent steps. -/
def Plain (path : String) : Prop :=
  .here ∉ components path ∧ .parent ∉ components path

theorem Plain.names {path : String} (plain : Plain path) :
    ∃ names : List String, (∀ n ∈ names, IsName n) ∧
      components path = front path ++ names.map .name := by
  rcases components_front path with ⟨rest, shape, steps⟩
  rcases plain with ⟨noDot, noUp⟩
  rw [shape, List.mem_append, not_or] at noDot noUp
  -- what is neither a dot nor a step up is a step down
  have down : ∀ c ∈ rest, c ∈ Set.range Component.name := by
    intro c hc
    rcases steps c hc with rfl | step
    · exact absurd hc noDot.2
    · cases step with
      | up => exact absurd hc noUp.2
      | down => exact ⟨_, rfl⟩
  obtain ⟨names, rfl⟩ : rest ∈ Set.range (List.map Component.name) := by
    rw [Set.range_list_map]
    exact down
  exact ⟨names, fun n hn => sound_of_steps steps n (List.mem_map_of_mem hn), shape⟩

/-- Normalising changes no component of a plain path. -/
theorem Plain.components_normalize {path : String} (plain : Plain path) :
    components (normalize path) = components path := by
  rcases plain.names with ⟨names, -, shape⟩
  have down : .parent ∉ names.map Component.name := by simp
  have kept : (names.map Component.name).filter Component.isName = names.map .name := by
    rw [List.filter_eq_self]
    simp [Component.isName]
  have root : normalSteps (front path) = [] := by
    unfold front
    split <;> rfl
  rw [Path.components_normalize, shape, normalSteps_append down, kept, root, List.nil_append]

theorem Plain.relative_normalize {root file : String} (plain : Plain root) (plain' : Plain file) :
    relative (normalize root) (normalize file) = relative root file := by
  rw [relative, relative, partsBetween, partsBetween, plain.components_normalize,
    plain'.components_normalize, isAbsolute_normalize, isAbsolute_normalize]

/-- Between names, a relative path goes up exactly when it does not just go down. -/
theorem head?_relativeParts_names {above below : List String} (valid : ∀ n ∈ below, IsName n) :
    (relativeParts (above.map .name) (below.map .name)).head? = some ".." ↔
      ¬ above.map Component.name <+: below.map Component.name := by
  rcases dropCommon_split (above.map .name) (below.map .name) with ⟨cs, left, right⟩
  rw [relativeParts_eq, ← dropCommon_eq_nil_iff]
  cases rest : (dropCommon (above.map Component.name) (below.map Component.name)).1 with
  | nil =>
      have sound : Sound (below.map .name) := fun text mem => valid text (by simpa using mem)
      have noUp : .parent ∉ below.map Component.name := by simp
      rw [right] at sound noUp
      have down : .parent ∉ (dropCommon (above.map Component.name) (below.map .name)).2 :=
        fun mem => noUp (List.mem_append_right cs mem)
      simp only [List.filter_nil, List.length_nil, List.replicate_zero, List.nil_append,
        not_true_eq_false, iff_false]
      exact fun up => down ((parent_mem_parts sound.of_append).1 (List.mem_of_mem_head? up))
  | cons c more =>
      have mem : c ∈ above.map Component.name := by
        rw [left, rest]
        exact List.mem_append_right cs List.mem_cons_self
      rcases List.mem_map.1 mem with ⟨text, -, rfl⟩
      have named : (Component.name text :: more).filter Component.isName =
          .name text :: more.filter Component.isName := rfl
      simp [named, List.replicate_succ]

/-- Among plain paths, a relative path goes up exactly when the file is not below the root. -/
theorem Plain.head?_relativeParts {root file : String} (plain : Plain root) (plain' : Plain file)
    (same : isAbsolute root = isAbsolute file) :
    (relativeParts (components root) (components file)).head? = some ".." ↔
      ¬ components root <+: components file := by
  rcases plain.names with ⟨above, -, shape⟩
  rcases plain'.names with ⟨below, valid, shape'⟩
  have fronts : front root = front file := by rw [front, front, same]
  rw [shape, shape', fronts, relativeParts_append, List.prefix_append_right_inj]
  exact head?_relativeParts_names valid

end Path
end ClientBoundary
