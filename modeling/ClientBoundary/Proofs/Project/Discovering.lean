import ClientBoundary.Proofs.Project.Entering
import ClientBoundary.Proofs.Text.ByteOrder
import Mathlib.Data.List.Lex
import Mathlib.Data.List.TakeWhile

/-!
# Script files below a root

A walk lists the script files in the directories that it enters, each once, in the order of the
components of their paths. It comes to an end by itself: more fuel finds nothing else.

- `splitExtension?_eq_some_iff`, `isScriptFile_iff`: what script files are called;
- `Lists`, `lists_of_mem_walk`, `mem_walk_of_entered`: the files in the directories that a walk
  enters;
- `walk_succ_eq`: fuel that is not used;
- `Component.Before`, `increasing_findScripts`: the order of the files;
- `findScripts_lists`: what the script files below a root are.
-/

namespace ClientBoundary

namespace Path

/-! ## Names and components -/

/-- A name is split at its last point, if something stands before that. -/
theorem splitExtension?_eq_some_iff {name stem extension : String} :
    splitExtension? name = some (stem, extension) ↔
      stem ≠ "" ∧ '.' ∉ extension.toList ∧ name = stem ++ "." ++ extension := by
  have text : (name = stem ++ "." ++ extension) ↔
      name.toList.reverse = extension.toList.reverse ++ '.' :: stem.toList.reverse := by
    rw [← String.toList_inj, ← List.reverse_inj]
    simp
  rw [text]
  constructor
  · intro split_
    have whole := List.takeWhile_append_dropWhile (p := (· ≠ '.')) (l := name.toList.reverse)
    have stop := List.head?_dropWhile_not (· ≠ '.') name.toList.reverse
    simp only [splitExtension?] at split_
    split at split_
    · cases split_
    · cases split_
    · rename_i point before filled rest
      rcases Prod.mk.inj (Option.some.inj split_) with ⟨rfl, rfl⟩
      rw [rest] at whole stop
      obtain rfl : point = '.' := by simpa using stop
      refine ⟨?_, ?_, by simpa using whole.symm⟩
      · intro empty
        exact filled (by simpa using String.toList_inj.2 empty)
      · intro point
        rw [String.toList_ofList, List.mem_reverse] at point
        simpa using List.mem_takeWhile_imp point
  · rintro ⟨filled, plain, shape⟩
    have behind : ∀ c ∈ extension.toList.reverse, decide (c ≠ '.') = true := by
      intro c mem
      exact decide_eq_true fun same => plain (same ▸ List.mem_reverse.1 mem)
    rcases List.exists_cons_of_ne_nil (l := stem.toList.reverse) (by simpa using filled) with
      ⟨c, cs, before⟩
    have whole : stem = String.ofList (c :: cs).reverse := by
      rw [← before, List.reverse_reverse, String.ofList_toList]
    simp only [splitExtension?]
    rw [shape, List.takeWhile_append_of_pos behind, List.dropWhile_append_of_pos behind, before]
    simp [whole]

/-- The kinds of components in their order. -/
def Component.rank : Component → Nat
  | .root => 0
  | .here => 1
  | .parent => 2
  | .name _ => 3

/-- The order of components: by their kinds, and names by their bytes. -/
inductive Component.Before : Component → Component → Prop
  | kind {c d : Component} (less : c.rank < d.rank) : Before c d
  | name {a b : String} (less : Text.utf8Bytes a < Text.utf8Bytes b) : Before (.name a) (.name b)

theorem Component.not_before_self (c : Component) : ¬Before c c := by
  intro before
  cases before with
  | kind less => exact Nat.lt_irrefl _ less
  | name less => exact List.lt_irrefl _ less

/-- Names are in the order of their components, whatever stands before them. -/
theorem before_names {front : List Component} {as bs : List String} (less : as < bs) :
    List.Lex Component.Before (front ++ as.map .name) (front ++ bs.map .name) := by
  refine List.Lex.append_left _ ?_ front
  induction less with
  | nil => exact .nil
  | rel smaller => exact .rel (.name (Text.utf8Bytes_lt_iff.2 smaller))
  | cons _ ih => exact .cons ih

end Path

namespace Project

open Entry
open FileTree (find?_eq_some_iff isDirectory_find?_iff ne_empty_of_locate?)
open ClientBoundary.Path (Component IsName components)

/-- A script file has one of the extensions behind a point, and something in front of that. -/
def IsScriptName (name : String) : Prop :=
  ∃ stem extension, stem ≠ "" ∧ extension ∈ scriptExtensions ∧ name = stem ++ "." ++ extension

theorem isScriptFile_iff {path n : String} {front : List Component}
    (parts : components path = front ++ [.name n]) : isScriptFile path = true ↔ IsScriptName n := by
  have file : Path.fileName? path = some n := by
    rw [Path.fileName?, parts, List.getLast?_concat]
  have plain : ∀ extension ∈ scriptExtensions, '.' ∉ extension.toList := by decide
  simp only [isScriptFile, Path.extension?, file, Option.bind_some, Option.any_map,
    Option.any_eq_true, List.contains_iff_mem, Prod.exists, Path.splitExtension?_eq_some_iff,
    IsScriptName]
  constructor
  · rintro ⟨stem, extension, ⟨filled, -, whole⟩, known⟩
    exact ⟨stem, extension, filled, known, whole⟩
  · rintro ⟨stem, extension, filled, known, whole⟩
    exact ⟨stem, extension, ⟨filled, plain _ known, whole⟩, known⟩

/-! ## What is found -/

/-- Names that lead from `root` through directories that a walk can enter, and the name of a script
file in the last of them. -/
structure Lists (tree : FileTree) (root : String) (names : List String) (last : String) : Prop where
  outer : CanEnter tree root names
  name : IsName last
  file : ∃ content, tree.find? (pathBelow root (names ++ [last])) = some (.file content)
  script : IsScriptName last

section Walk

variable {tree : FileTree} {root : String} {names : List String} {opened : List Location}
variable {location : Location} {entries : List (String × Entry)}

/-- What a walk finds is in the directories that it can enter. -/
theorem lists_of_mem_walk (wf : tree.WellFormed) (fuel : Nat) :
    ∀ {names opened location entries}, Entered tree root names opened location →
      tree.at? location = some (.directory entries) →
      ∀ f ∈ walk tree fuel opened location names (pathBelow root names) entries,
        ∃ front last, Lists tree root front last ∧
          f = ⟨front ++ [last], pathBelow root (front ++ [last])⟩ := by
  induction fuel with
  | zero =>
      intro names opened location entries entered here f mem
      cases mem
  | succ fuel ih =>
      intro names opened location entries entered here f mem
      rw [walk_succ] at mem
      rcases List.mem_flatMap.1 mem with ⟨⟨n, e⟩, listed, mem⟩
      have v := entered.visits_at wf here
      have entry := v.entry wf listed
      rcases mem_walkEntry.1 mem with
        ⟨l, content, met, script, rfl⟩ | ⟨l, inner, met, unskipped, below⟩
      · rcases v.meets wf listed met with ⟨there, leads⟩
        have parts := Path.components_join (ne_empty_of_locate? v.located) entry.1
        have file : tree.find? (pathBelow root (names ++ [n])) = some (.file content) := by
          rw [pathBelow_concat, find?_eq_some_iff]
          exact ⟨l, leads, there⟩
        refine ⟨names, n, ?_, by rw [pathBelow_concat]⟩
        exact ⟨entered.canEnter wf, entry.1, ⟨content, file⟩, (isScriptFile_iff parts).1 script⟩
      · rw [← pathBelow_concat] at below
        exact ih (entered.down entry.2 met unskipped) (v.meets wf listed met).1 f below

/-- What is found in a directory that a walk enters is found from the root. -/
theorem mem_walk_of_entered (wf : tree.WellFormed) {start : Location}
    {top : List (String × Entry)} (located : tree.locate? root = some start)
    (first : tree.at? start = some (.directory top)) {f : ScriptFile}
    (h : Entered tree root names opened location) :
    ∀ {fuel entries}, tree.at? location = some (.directory entries) →
      f ∈ walk tree fuel opened location names (pathBelow root names) entries →
      f ∈ walk tree (fuel + names.length) [start] start [] root top := by
  induction h with
  | start located' here' =>
      intro fuel entries here mem
      rcases Option.some.inj (located.symm.trans located') with rfl
      obtain rfl : top = entries := by simpa using first.symm.trans here
      exact mem
  | @down names opened location l n e inner outer entry met unskipped ih =>
      intro fuel entries here mem
      rcases outer.visits wf with ⟨others, v⟩
      have there := (v.meets wf (v.mem entry) met).1
      obtain rfl : inner = entries := by simpa using there.symm.trans here
      -- the directory around it finds the same with one more step
      have around :
          f ∈ walk tree (fuel + 1) opened location names (pathBelow root names) others := by
        rw [walk_succ]
        refine List.mem_flatMap.2 ⟨(n, e), v.mem entry, mem_walkEntry.2 (.inr ?_)⟩
        rw [pathBelow_concat] at mem
        exact ⟨l, inner, met, unskipped, mem⟩
      have found := ih v.here around
      rw [List.length_append, List.length_singleton]
      rwa [Nat.add_assoc, Nat.add_comm 1] at found

/-- A script file in a directory that a walk can enter is found. -/
theorem mem_walk_of_lists (wf : tree.WellFormed) (isDir : (tree.find? root).any isDirectory = true)
    {last : String} (h : Lists tree root names last) {start : Location}
    {top : List (String × Entry)} (located : tree.locate? root = some start)
    (first : tree.at? start = some (.directory top)) :
    ⟨names ++ [last], pathBelow root (names ++ [last])⟩ ∈
      walk tree (walkBound tree) [start] start [] root top := by
  rcases h.outer.entered wf isDir with ⟨opened, location, entered⟩
  rcases entered.visits wf with ⟨entries, v⟩
  rcases h.file with ⟨content, file⟩
  rw [pathBelow_concat, find?_eq_some_iff] at file
  rcases file with ⟨l, leads, there⟩
  have filled := ne_empty_of_locate? v.located
  rcases exists_entry_of_locate?_join filled h.name leads with ⟨k, -, e, located', -, entry⟩
  obtain rfl : location = k := Option.some.inj (v.located.symm.trans located')
  have met : meets? tree opened location (pathBelow root names) last e = some (l, .file content) :=
    (v.meets_iff wf (v.mem entry)).2 ⟨there, leads, fun _ => nofun⟩
  have script := (isScriptFile_iff (Path.components_join filled h.name)).2 h.script
  -- there is fuel left in the directory of the file
  rcases Nat.exists_eq_add_of_lt (entered.length_lt wf) with ⟨rest, bound⟩
  have found : ⟨names ++ [last], pathBelow root (names ++ [last])⟩ ∈
      walk tree (rest + 1) opened location names (pathBelow root names) entries := by
    rw [walk_succ]
    refine List.mem_flatMap.2 ⟨(last, e), v.mem entry, mem_walkEntry.2 (.inl ?_)⟩
    exact ⟨l, content, met, script, by rw [pathBelow_concat]⟩
  have from_root := mem_walk_of_entered wf located first entered v.here found
  rwa [show rest + 1 + names.length = walkBound tree by omega] at from_root

/-- Fuel beyond the bound is not used. -/
theorem walk_succ_eq (wf : tree.WellFormed) (fuel : Nat) :
    ∀ {names opened location entries}, Entered tree root names opened location →
      tree.at? location = some (.directory entries) → walkBound tree ≤ fuel + names.length →
      walk tree (fuel + 1) opened location names (pathBelow root names) entries =
        walk tree fuel opened location names (pathBelow root names) entries := by
  induction fuel with
  | zero =>
      intro names opened location entries entered here enough
      have short := entered.length_lt wf
      omega
  | succ fuel ih =>
      intro names opened location entries entered here enough
      have v := entered.visits_at wf here
      rw [walk_succ, walk_succ]
      refine List.flatMap_congr ?_
      rintro ⟨n, e⟩ listed
      simp only [walkEntry]
      split
      · rfl
      · rename_i l inner met
        split
        · rfl
        · rename_i unskipped
          have deeper := entered.down (v.entry wf listed).2 met (Bool.not_eq_true _ ▸ unskipped)
          have enough' : walkBound tree ≤ fuel + (names ++ [n]).length := by
            rw [List.length_append, List.length_singleton]
            omega
          rw [← pathBelow_concat]
          exact ih deeper (v.meets wf listed met).1 enough'
      · rfl

end Walk

/-! ## Order -/

theorem namesLe_iff {as bs : List String} : namesLe as bs = true ↔ as ≤ bs := by
  rw [le_iff_lt_or_eq]
  induction as generalizing bs with
  | nil => cases bs <;> simp [namesLe]
  | cons a as ih =>
      cases bs with
      | nil => simp [namesLe]
      | cons b bs =>
          simp only [namesLe, Bool.or_eq_true, Bool.and_eq_true, decide_eq_true_eq, ih,
            List.cons_lt_cons_iff, List.cons.injEq, and_or_left, or_assoc]

section Scripts

variable {tree : FileTree} {root : String}

/-- The names of script files increase. -/
theorem increasing_findScripts (wf : tree.WellFormed)
    (isDir : (tree.find? root).any isDirectory = true) :
    (findScripts tree root).Pairwise fun f g => f.names < g.names := by
  have distinct := List.pairwise_map.1 (nodup_findScripts wf isDir)
  have sorted : (findScripts tree root).Pairwise fun f g => f.names ≤ g.names := by
    rcases visits_root isDir with ⟨l, entries, located, here, -⟩
    simp only [findScripts, located, here]
    refine (List.pairwise_mergeSort ?_ ?_ _).imp namesLe_iff.1
    · intro a b c
      simpa only [namesLe_iff] using le_trans
    · intro a b
      simpa only [Bool.or_eq_true, namesLe_iff] using le_total a.names b.names
  exact (sorted.and distinct).imp fun both => lt_of_le_of_ne both.1 both.2

/-- Below a directory the script files are listed once each, in the order of the components of their
paths: every file that names lead to through directories that can be entered, links followed. The
directories that a walk can enter are less deep than its bound, so that it ends by itself. -/
theorem findScripts_lists (wf : tree.WellFormed)
    (isDir : (tree.find? root).any isDirectory = true) :
    (((findScripts tree root).map (·.path)).Pairwise fun p q =>
        List.Lex Component.Before (components p) (components q)) ∧
      ((findScripts tree root).map (·.path)).Nodup ∧
      (∀ path, path ∈ (findScripts tree root).map (·.path) ↔
        ∃ names last, path = pathBelow root (names ++ [last]) ∧ Lists tree root names last) ∧
      (∀ names, CanEnter tree root names → names.length < walkBound tree) ∧
      ∀ l entries, tree.locate? root = some l → tree.at? l = some (.directory entries) →
        ∀ fuel, walkBound tree ≤ fuel → walk tree fuel [l] l [] root entries =
          walk tree (walkBound tree) [l] l [] root entries := by
  have increasing : ((findScripts tree root).map (·.path)).Pairwise fun p q =>
      List.Lex Component.Before (components p) (components q) := by
    refine List.pairwise_map.2 ((increasing_findScripts wf isDir).imp_of_mem ?_)
    intro f g hf hg less
    rw [(found_of_mem_findScripts wf isDir hf).parts, (found_of_mem_findScripts wf isDir hg).parts]
    exact Path.before_names less
  refine ⟨increasing, ?_, ?_, ?_, ?_⟩
  · refine increasing.imp ?_
    rintro p _ before rfl
    exact List.lex_irrefl Component.not_before_self _ before
  · intro path
    rcases perm_findScripts isDir with ⟨l, entries, v, perm⟩
    rw [List.mem_map]
    constructor
    · rintro ⟨f, mem, rfl⟩
      have found := perm.mem_iff.1 mem
      rcases lists_of_mem_walk wf _ (.start v.located v.here) v.here f found with
        ⟨names, last, lists, rfl⟩
      exact ⟨names, last, rfl, lists⟩
    · rintro ⟨names, last, rfl, lists⟩
      exact ⟨_, perm.mem_iff.2 (mem_walk_of_lists wf isDir lists v.located v.here), rfl⟩
  · intro names enters
    rcases enters.entered wf isDir with ⟨opened, location, entered⟩
    exact entered.length_lt wf
  · intro l entries located here fuel enough
    induction fuel, enough using Nat.le_induction with
    | base => rfl
    | succ fuel enough ih => exact (walk_succ_eq wf fuel (.start located here) here enough).trans ih

/-- The names of a script file are the components of its path behind those of the root. -/
theorem Lists.names_eq {names : List String} {last path : String} (filled : root ≠ "")
    (h : Lists tree root names last) (same : path = pathBelow root (names ++ [last]))
    (others : List String) (parts : components path = components root ++ others.map .name) :
    names ++ [last] = others := by
  have valid : ∀ n ∈ names ++ [last], IsName n := by
    intro n mem
    rcases List.mem_append.1 mem with old | new
    · exact h.outer.valid n old
    · rw [List.mem_singleton.1 new]
      exact h.name
  rw [same, (components_pathBelow filled valid).2] at parts
  exact List.map_injective_iff.2 (fun _ _ => Component.name.inj) (List.append_cancel_left parts)

end Scripts

/-! ## A directory with links -/

/-- A project with a link to itself, one to a directory beside the one around it, and one to a
directory that is skipped under its own name. -/
def linkedProject : List (String × Entry) :=
  [("a.ts", .file (.ok [])), ("lib", .link "/lib"), ("loop", .link "../p"),
    ("node_modules", .directory [("b.js", .file (.ok []))]), ("out", .link "node_modules")]

/-- The content of a file that may not be read. -/
def locked : Content := .error "Permission denied (os error 13)"

def linkedTree : FileTree where
  top := .directory [("lib", .directory [("c.ts", .file locked)]),
    ("w", .directory [("p", .directory linkedProject)])]
  working := ["w"]

theorem wellFormed_linkedTree : linkedTree.WellFormed := by
  have modules : (Entry.directory [("b.js", .file (.ok []))]).WellFormed :=
    .cons (by decide) (by decide) (.file _) .nil
  have library : (Entry.directory [("c.ts", .file locked)]).WellFormed :=
    .cons (by decide) (by decide) (.file _) .nil
  have links : (Entry.directory [("node_modules", .directory [("b.js", .file (.ok []))]),
      ("out", .link "node_modules")]).WellFormed :=
    .cons (by decide) (by decide) modules (.cons (by decide) (by decide) (.link _) .nil)
  have project : (Entry.directory linkedProject).WellFormed :=
    .cons (by decide) (by decide) (.file _) <| .cons (by decide) (by decide) (.link _) <|
      .cons (by decide) (by decide) (.link _) links
  exact .cons (by decide) (by decide) library
    (.cons (by decide) (by decide) (.cons (by decide) (by decide) project .nil) .nil)

/-- What is in a skipped directory is found below the name of the link to it, but not below its own,
and nothing is found below the link back. From the root of the system, a link leads out of the
project to a file that cannot be read. -/
theorem findScripts_lists_linkedTree :
    linkedTree.WellFormed ∧ (linkedTree.find? "../w/p/").any isDirectory = true ∧
      "../w/p/out/b.js" ∈ (findScripts linkedTree "../w/p/").map (·.path) ∧
      "../w/p/node_modules/b.js" ∉ (findScripts linkedTree "../w/p/").map (·.path) ∧
      "../w/p/loop/a.ts" ∉ (findScripts linkedTree "../w/p/").map (·.path) ∧
      (linkedTree.find? "/w/p").any isDirectory = true ∧
      "/w/p/lib/c.ts" ∈ (findScripts linkedTree "/w/p").map (·.path) := by
  have wf := wellFormed_linkedTree
  have isDir : (linkedTree.find? "../w/p/").any isDirectory = true := by decide +kernel
  have isDir' : (linkedTree.find? "/w/p").any isDirectory = true := by decide +kernel
  have filled : "../w/p/" ≠ "" := by decide
  have located : linkedTree.locate? "../w/p/" = some ["w", "p"] := by decide +kernel
  -- a link right below the root leads back only to the root
  have forward {root n : String}
      (other : linkedTree.locate? root ≠ linkedTree.locate? (pathBelow root [n])) :
      ∀ front m, front ++ [m] <+: [n] → ¬LeadsBack linkedTree root front m := by
    rintro front m pre ⟨l, target, here, link, back, on, same⟩
    have whole : front ++ [m] = [] ++ [n] := pre.eq_of_length_le (by simp)
    rcases List.append_inj' whole rfl with ⟨rfl, last⟩
    rcases List.cons.inj last with ⟨rfl, -⟩
    rw [List.prefix_nil.1 on] at same
    exact other same
  rcases findScripts_lists wf isDir with ⟨-, -, exactly, -, -⟩
  rcases findScripts_lists wf isDir' with ⟨-, -, exactly', -, -⟩
  refine ⟨wf, isDir, ?_, ?_, ?_, isDir', ?_⟩
  · refine (exactly _).2 ⟨["out"], "b.js", by decide, ⟨?_, by decide, ⟨.ok [], ?_⟩,
      ⟨"b", "js", by decide, by decide, rfl⟩⟩⟩
    · exact ⟨by decide, by decide, by decide +kernel, forward (by decide +kernel)⟩
    · exact FileTree.find?_eq_some_iff.2
        ⟨["w", "p", "node_modules", "b.js"], by decide +kernel, rfl⟩
  · intro mem
    rcases (exactly _).1 mem with ⟨names, last, same, lists⟩
    have names := lists.names_eq filled same ["node_modules", "b.js"] (by decide)
    rcases List.append_inj' (names.trans (rfl : _ = ["node_modules"] ++ ["b.js"])) rfl with ⟨rfl, -⟩
    exact (lists.outer.unskipped "node_modules" (by simp)).1 rfl
  · intro mem
    rcases (exactly _).1 mem with ⟨names, last, same, lists⟩
    have names := lists.names_eq filled same ["loop", "a.ts"] (by decide)
    rcases List.append_inj' (names.trans (rfl : _ = ["loop"] ++ ["a.ts"])) rfl with ⟨rfl, -⟩
    refine lists.outer.forward [] "loop" (List.prefix_refl _) ?_
    refine ⟨["w", "p"], "../p", located, rfl, [], List.prefix_refl _, ?_⟩
    decide +kernel
  · refine (exactly' _).2 ⟨["lib"], "c.ts", by decide, ⟨?_, by decide, ⟨locked, ?_⟩,
      ⟨"c", "ts", by decide, by decide, rfl⟩⟩⟩
    · exact ⟨by decide, by decide, by decide +kernel, forward (by decide +kernel)⟩
    · exact FileTree.find?_eq_some_iff.2 ⟨["lib", "c.ts"], by decide +kernel, rfl⟩

end Project
end ClientBoundary
