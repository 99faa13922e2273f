import ClientBoundary.Proofs.Project.Walking
import Mathlib.Data.List.Infix
import Mathlib.Data.List.Perm.Subperm

/-!
# Directories that a walk enters

A walk goes down from its root by the names of directories. It enters those that the names lead to,
apart from skipped ones and from what is behind a link that leads back to a directory on the way.
There are so many of them only: links lead to ever new directories, and between two links the walk
goes down the tree.

- `pathBelow`: the path of names below a root;
- `Entered`: the steps of a walk;
- `CanEnter`, `Entered.canEnter`, `CanEnter.entered`: what the walk enters, told by paths;
- `Entered.length_lt`: how far down it goes.
-/

namespace ClientBoundary
namespace Project

open Entry
open FileTree (follow?_of_locate? isDirectory_find?_iff join_ne_empty locate?_of_follow?
  ne_empty_of_locate?)
open ClientBoundary.Path (Component IsName components)

/-! ## Paths below a root -/

/-- The path of names below a root. -/
def pathBelow (root : String) (names : List String) : String :=
  names.foldl Path.join root

@[simp]
theorem pathBelow_nil (root : String) : pathBelow root [] = root := rfl

@[simp]
theorem pathBelow_concat (root : String) (names : List String) (n : String) :
    pathBelow root (names ++ [n]) = Path.join (pathBelow root names) n := by
  simp [pathBelow]

/-- Names below a root are the components behind those of the root. -/
theorem components_pathBelow {root : String} {names : List String} (filled : root ≠ "")
    (valid : ∀ n ∈ names, IsName n) :
    pathBelow root names ≠ "" ∧
      components (pathBelow root names) = components root ++ names.map .name := by
  induction names using List.reverseRecOn with
  | nil => exact ⟨filled, (List.append_nil _).symm⟩
  | append_singleton names n ih =>
      rcases ih fun m mem => valid m (List.mem_append_left _ mem) with ⟨front, parts⟩
      have name : IsName n := valid n (by simp)
      rw [pathBelow_concat]
      refine ⟨join_ne_empty front name, ?_⟩
      rw [Path.components_join front name, parts, List.map_append, List.append_assoc]
      rfl

section Steps

variable {tree : FileTree} {root : String}

/-- A path that leads on by a name leads through a directory that has an entry of that name. -/
theorem exists_entry_of_locate?_join {path n : String} {m : Location} (filled : path ≠ "")
    (name : IsName n) (leads : tree.locate? (Path.join path n) = some m) :
    ∃ l entries e, tree.locate? path = some l ∧ tree.at? l = some (.directory entries) ∧
      tree.at? (l ++ [n]) = some e := by
  rw [FileTree.locate?_join_eq filled name] at leads
  rcases follow?_front leads with ⟨l, front⟩
  have entry : ∃ e, tree.at? (l ++ [n]) = some e := by
    by_cases plain : ∀ target, tree.at? (l ++ [n]) ≠ some (.link target)
    · have step := follow?_name front plain
      rw [leads] at step
      rcases Option.map_eq_some_iff.1 step.symm with ⟨e, here, -⟩
      exact ⟨e, here⟩
    · push Not at plain
      rcases plain with ⟨target, link⟩
      exact ⟨_, link⟩
  rcases entry with ⟨e, here⟩
  -- only a directory has something below it
  have inside := here
  rw [FileTree.at?, at?_append] at inside
  rcases Option.bind_eq_some_iff.1 inside with ⟨d, there, within⟩
  cases d with
  | file content => simp [at?] at within
  | link target => simp [at?] at within
  | directory entries =>
      have located := locate?_of_follow? filled front (by simp [there, isDirectory])
      exact ⟨l, entries, e, located, there, here⟩

/-! ## Steps of a walk -/

/-- The directories that a walk from `root` enters: the names that lead there, the locations of the
directories that are open then, and its own. -/
inductive Entered (tree : FileTree) (root : String) : List String → List Location → Location → Prop
  | start {l : Location} {entries : List (String × Entry)} (located : tree.locate? root = some l)
      (here : tree.at? l = some (.directory entries)) : Entered tree root [] [l] l
  | down {names : List String} {opened : List Location} {location l : Location} {n : String}
      {e : Entry} {inner : List (String × Entry)} (outer : Entered tree root names opened location)
      (entry : tree.at? (location ++ [n]) = some e)
      (met : meets? tree opened location (pathBelow root names) n e = some (l, .directory inner))
      (unskipped : isSkippedName n = false) : Entered tree root (names ++ [n]) (l :: opened) l

section Entered

variable {names : List String} {opened : List Location} {location : Location}

theorem Visits.mem {path : String} {entries : List (String × Entry)}
    (v : Visits tree root location names path entries) {n : String} {e : Entry}
    (entry : tree.at? (location ++ [n]) = some e) : (n, e) ∈ entries :=
  mem_of_lookup ((at?_name v.here n).symm.trans entry)

theorem Entered.visits (wf : tree.WellFormed) (h : Entered tree root names opened location) :
    ∃ entries, Visits tree root location names (pathBelow root names) entries := by
  induction h with
  | start located here => exact ⟨_, here, located, by simp, by simp⟩
  | down outer entry met unskipped ih =>
      rcases ih with ⟨entries, v⟩
      rw [pathBelow_concat]
      exact ⟨_, v.directory wf (v.mem entry) met⟩

theorem Entered.visits_at (wf : tree.WellFormed) (h : Entered tree root names opened location)
    {entries : List (String × Entry)} (here : tree.at? location = some (.directory entries)) :
    Visits tree root location names (pathBelow root names) entries := by
  rcases h.visits wf with ⟨others, v⟩
  obtain rfl : entries = others := by simpa using here.symm.trans v.here
  exact v

/-- The open directories are those on the way. -/
theorem Entered.mem_opened (wf : tree.WellFormed) (h : Entered tree root names opened location)
    {m : Location} : m ∈ opened ↔
      ∃ front, front <+: names ∧ tree.locate? (pathBelow root front) = some m := by
  induction h with
  | start located here =>
      simp only [List.mem_singleton, List.prefix_nil, exists_eq_left, pathBelow_nil, located,
        Option.some.injEq]
      exact eq_comm
  | @down names opened location l n e inner outer entry met unskipped ih =>
      -- the last one is where the whole way leads, all others are on the way before
      rcases (outer.down entry met unskipped).visits wf with ⟨entries, v⟩
      simp only [List.mem_cons, ih, List.prefix_concat_iff, or_and_right, exists_or, exists_eq_left,
        v.located, Option.some.injEq]
      rw [eq_comm]

end Entered

/-! ## What is entered -/

/-- Under a name there is a link back to a directory on the way there. -/
def LeadsBack (tree : FileTree) (root : String) (names : List String) (n : String) : Prop :=
  ∃ l target, tree.locate? (pathBelow root names) = some l ∧
    tree.at? (l ++ [n]) = some (.link target) ∧
    ∃ front, front <+: names ∧
      tree.locate? (pathBelow root front) = tree.locate? (pathBelow root (names ++ [n]))

/-- Names that lead from `root` to a directory, through none that is skipped and by no link that
leads back. -/
structure CanEnter (tree : FileTree) (root : String) (names : List String) : Prop where
  valid : ∀ n ∈ names, IsName n
  unskipped : ∀ n ∈ names, n ≠ "node_modules" ∧ n.toList.head? ≠ some '.'
  directory : (tree.find? (pathBelow root names)).any isDirectory = true
  forward : ∀ front n, front ++ [n] <+: names → ¬LeadsBack tree root front n

theorem isSkippedName_eq_false_iff {n : String} :
    isSkippedName n = false ↔ n ≠ "node_modules" ∧ n.toList.head? ≠ some '.' := by
  simp [isSkippedName]

theorem Entered.canEnter (wf : tree.WellFormed) {names : List String} {opened : List Location}
    {location : Location} (h : Entered tree root names opened location) :
    CanEnter tree root names := by
  induction h with
  | start located here =>
      exact ⟨by simp, by simp, isDirectory_find?_iff.2 ⟨_, _, located, here⟩, by simp⟩
  | @down names opened location l n e inner outer entry met unskipped ih =>
      rcases outer.visits wf with ⟨entries, v⟩
      rcases (outer.down entry met unskipped).visits wf with ⟨within, v'⟩
      refine ⟨v'.valid, ?_, isDirectory_find?_iff.2 ⟨l, within, v'.located, v'.here⟩, ?_⟩
      · intro m mem
        rcases List.mem_append.1 mem with old | new
        · exact ih.unskipped m old
        · rw [List.mem_singleton.1 new]
          exact isSkippedName_eq_false_iff.1 unskipped
      · intro before m pre
        rcases List.prefix_concat_iff.1 pre with whole | short
        · -- a link that was followed leads to none of the open directories
          rcases List.append_inj' whole rfl with ⟨rfl, last⟩
          rcases List.cons.inj last with ⟨rfl, -⟩
          rintro ⟨k, target, located, link, back, on, same⟩
          obtain rfl : location = k := Option.some.inj (v.located.symm.trans located)
          obtain rfl : e = .link target := Option.some.inj (entry.symm.trans link)
          have closed := ((v.meets_iff wf (v.mem entry)).1 met).2.2 ⟨target, rfl⟩ rfl
          exact closed ((outer.mem_opened wf).2 ⟨back, on, same.trans v'.located⟩)
        · exact ih.forward before m short

theorem ne_empty_of_isDirectory (isDir : (tree.find? root).any isDirectory = true) : root ≠ "" := by
  rcases visits_root isDir with ⟨l, entries, located, -⟩
  exact ne_empty_of_locate? located

/-- What a walk can enter below a directory, it can enter through that. -/
theorem CanEnter.outer {names : List String} {n : String} (filled : root ≠ "")
    (h : CanEnter tree root (names ++ [n])) : CanEnter tree root names := by
  have valid : ∀ m ∈ names, IsName m := fun m mem => h.valid m (List.mem_append_left _ mem)
  refine ⟨valid, ?_, ?_, ?_⟩
  · intro m mem
    exact h.unskipped m (List.mem_append_left _ mem)
  · rcases isDirectory_find?_iff.1 h.directory with ⟨m, inner, leads, -⟩
    have front := (components_pathBelow filled valid).1
    rw [pathBelow_concat] at leads
    rcases exists_entry_of_locate?_join front (h.valid n (by simp)) leads with
      ⟨l, entries, e, located, here, -⟩
    exact isDirectory_find?_iff.2 ⟨l, entries, located, here⟩
  · intro front m pre
    exact h.forward front m (pre.trans (List.prefix_append names [n]))

theorem CanEnter.entered (wf : tree.WellFormed) (isDir : (tree.find? root).any isDirectory = true)
    {names : List String} (h : CanEnter tree root names) :
    ∃ opened location, Entered tree root names opened location := by
  have filled := ne_empty_of_isDirectory isDir
  induction names using List.reverseRecOn with
  | nil =>
      rcases visits_root isDir with ⟨l, entries, located, here, -⟩
      exact ⟨[l], l, .start located here⟩
  | append_singleton names n ih =>
      rcases ih (h.outer filled) with ⟨opened, location, outer⟩
      rcases outer.visits wf with ⟨entries, v⟩
      rcases isDirectory_find?_iff.1 h.directory with ⟨l, inner, leads, there⟩
      have valid := h.valid n (by simp)
      rw [pathBelow_concat] at leads
      rcases exists_entry_of_locate?_join (ne_empty_of_locate? v.located) valid leads with
        ⟨k, -, e, located, -, entry⟩
      obtain rfl : location = k := Option.some.inj (v.located.symm.trans located)
      -- a link to an open directory would lead back
      have met : meets? tree opened location (pathBelow root names) n e =
          some (l, .directory inner) := by
        refine (v.meets_iff wf (v.mem entry)).2 ⟨there, leads, ?_⟩
        rintro ⟨target, rfl⟩ - open_
        rcases (outer.mem_opened wf).1 open_ with ⟨front, on, same⟩
        refine h.forward names n (List.prefix_refl _) ?_
        exact ⟨location, target, v.located, entry, front, on, by rw [pathBelow_concat, same, leads]⟩
      exact ⟨_, l, outer.down entry met (isSkippedName_eq_false_iff.2 (h.unskipped n (by simp)))⟩

/-! ## How far down a walk goes -/

mutual

/-- The locations of the directories of a tree. -/
def directories : Entry → List Location
  | .directory entries => [] :: directoriesIn entries
  | _ => []

def directoriesIn : List (String × Entry) → List Location
  | [] => []
  | (n, e) :: more => (directories e).map (n :: ·) ++ directoriesIn more

end

mutual

theorem length_directories : ∀ e : Entry, (directories e).length = directoryCount e
  | .directory entries => by
      rw [directories, directoryCount, List.length_cons, length_directoriesIn entries, Nat.add_comm]
  | .file bytes => rfl
  | .link target => rfl

theorem length_directoriesIn : ∀ entries : List (String × Entry),
    (directoriesIn entries).length = directoryCounts entries
  | [] => rfl
  | (n, e) :: more => by
      rw [directoriesIn, directoryCounts, List.length_append, List.length_map, length_directories e,
        length_directoriesIn more]

end

theorem mem_directoriesIn {entries : List (String × Entry)} {n : String} {e : Entry} {l : Location}
    (mem : (n, e) ∈ entries) (inside : l ∈ directories e) : n :: l ∈ directoriesIn entries := by
  induction entries with
  | nil => cases mem
  | cons entry more ih =>
      rcases entry with ⟨m, first⟩
      rw [directoriesIn, List.mem_append]
      rcases List.mem_cons.1 mem with same | later
      · rcases Prod.mk.inj same with ⟨rfl, rfl⟩
        exact .inl (List.mem_map_of_mem inside)
      · exact .inr (ih later)

theorem mem_directories {top : Entry} {l : Location} {entries : List (String × Entry)}
    (here : top.at? l = some (.directory entries)) : l ∈ directories top := by
  induction l generalizing top with
  | nil =>
      obtain rfl : top = .directory entries := by simpa [at?] using here
      simp [directories]
  | cons n l ih =>
      cases top with
      | file content => simp [at?] at here
      | link target => simp [at?] at here
      | directory others =>
          rw [at?] at here
          rcases Option.bind_eq_some_iff.1 here with ⟨e, hit, within⟩
          rw [directories]
          exact List.mem_cons_of_mem _ (mem_directoriesIn (mem_of_lookup hit) (ih within))

theorem directoryCount_le {entries : List (String × Entry)} {n : String} {e : Entry}
    (mem : (n, e) ∈ entries) : directoryCount e ≤ directoryCounts entries := by
  induction entries with
  | nil => cases mem
  | cons entry more ih =>
      rcases entry with ⟨m, first⟩
      rw [directoryCounts]
      rcases List.mem_cons.1 mem with same | later
      · rcases Prod.mk.inj same with ⟨rfl, rfl⟩
        exact Nat.le_add_right _ _
      · exact Nat.le_add_left_of_le (ih later)

/-- A directory is no deeper in a tree than there are directories around it. -/
theorem length_lt_directoryCount {top : Entry} {l : Location} {entries : List (String × Entry)}
    (here : top.at? l = some (.directory entries)) : l.length < directoryCount top := by
  induction l generalizing top with
  | nil =>
      obtain rfl : top = .directory entries := by simpa [at?] using here
      rw [directoryCount]
      exact Nat.lt_add_right _ Nat.zero_lt_one
  | cons n l ih =>
      cases top with
      | file content => simp [at?] at here
      | link target => simp [at?] at here
      | directory others =>
          rw [at?] at here
          rcases Option.bind_eq_some_iff.1 here with ⟨e, hit, within⟩
          have inside := ih within
          have around := directoryCount_le (mem_of_lookup hit)
          rw [directoryCount, List.length_cons]
          omega

/-- There are as many locations of directories as directories. -/
theorem length_le_directoryCount {top : Entry} {ls : List Location} (distinct : ls.Nodup)
    (directory : ∀ l ∈ ls, ∃ entries, top.at? l = some (.directory entries)) :
    ls.length ≤ directoryCount top := by
  rw [← length_directories]
  refine (List.subperm_of_subset distinct ?_).length_le
  intro l mem
  rcases directory l mem with ⟨entries, here⟩
  exact mem_directories here

section Depth

variable {names : List String} {opened : List Location} {location : Location}

theorem Entered.directory (wf : tree.WellFormed) (h : Entered tree root names opened location) :
    ∀ m ∈ opened, ∃ entries, tree.at? m = some (.directory entries) := by
  induction h with
  | start located here =>
      intro m mem
      rw [List.mem_singleton.1 mem]
      exact ⟨_, here⟩
  | down outer entry met unskipped ih =>
      intro m mem
      rcases List.mem_cons.1 mem with rfl | old
      · rcases outer.visits wf with ⟨entries, v⟩
        exact ⟨_, (v.meets wf (v.mem entry) met).1⟩
      · exact ih m old

/-- The directories that a walk came to by links differ, and since the last of them it went straight
down. -/
theorem Entered.arrivals (wf : tree.WellFormed) (h : Entered tree root names opened location) :
    ∃ arrivals : List Location, arrivals.Nodup ∧ (∀ m ∈ arrivals, m ∈ opened) ∧
      names.length + directoryCount tree.top ≤
        arrivals.length * directoryCount tree.top + location.length := by
  induction h with
  | @start l entries located here =>
      refine ⟨[l], List.nodup_singleton l, fun m mem => mem, ?_⟩
      rw [List.length_nil, List.length_singleton]
      omega
  | @down names opened location l n e inner outer entry met unskipped ih =>
      rcases ih with ⟨arrivals, distinct, on, bound⟩
      rcases outer.visits wf with ⟨entries, v⟩
      have wider : ∀ m ∈ arrivals, m ∈ l :: opened := fun m mem => List.mem_cons_of_mem l (on m mem)
      by_cases link : ∃ target, e = .link target
      · -- a link leads to a directory that was not open, so it is a new arrival
        have closed := ((v.meets_iff wf (v.mem entry)).1 met).2.2 link rfl
        have fresh : l ∉ arrivals := fun mem => closed (on l mem)
        have deep := length_lt_directoryCount v.here
        refine ⟨l :: arrivals, List.nodup_cons.2 ⟨fresh, distinct⟩, ?_, ?_⟩
        · exact List.forall_mem_cons.2 ⟨List.mem_cons_self, wider⟩
        · calc (names ++ [n]).length + directoryCount tree.top
              ≤ arrivals.length * directoryCount tree.top + location.length + 1 := by
                rw [List.length_append, List.length_singleton]
                omega
            _ ≤ arrivals.length * directoryCount tree.top + directoryCount tree.top := by omega
            _ = (l :: arrivals).length * directoryCount tree.top := by
                rw [List.length_cons, Nat.succ_mul]
            _ ≤ (l :: arrivals).length * directoryCount tree.top + l.length := Nat.le_add_right _ _
      · -- any other directory stands one name below the one before
        have plain : ∀ target, e ≠ .link target := fun target same => link ⟨target, same⟩
        have leads := (v.meets wf (v.mem entry) met).2
        rw [v.locate?_join wf (v.mem entry) plain] at leads
        rcases Option.some.inj leads with rfl
        refine ⟨arrivals, distinct, wider, ?_⟩
        rw [List.length_append, List.length_append, List.length_singleton]
        omega

/-- A walk goes down fewer directories than its bound. -/
theorem Entered.length_lt (wf : tree.WellFormed) (h : Entered tree root names opened location) :
    names.length < walkBound tree := by
  rcases h.visits wf with ⟨entries, v⟩
  rcases h.arrivals wf with ⟨arrivals, distinct, on, bound⟩
  have deep := length_lt_directoryCount v.here
  have few : arrivals.length ≤ directoryCount tree.top :=
    length_le_directoryCount distinct fun m mem => h.directory wf m (on m mem)
  calc names.length
      ≤ arrivals.length * directoryCount tree.top := by omega
    _ ≤ (directoryCount tree.top + 1) * (directoryCount tree.top + 1) :=
        Nat.mul_le_mul (Nat.le_succ_of_le few) (Nat.le_succ _)
    _ < walkBound tree := Nat.lt_succ_self _

end Depth

end Steps

end Project
end ClientBoundary
