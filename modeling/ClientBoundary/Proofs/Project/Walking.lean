import ClientBoundary.Project.Discovery
import ClientBoundary.Proofs.Project.Resolving
import ClientBoundary.Proofs.Project.WellFormed
import Mathlib.Data.List.Nodup
import Mathlib.Tactic.SplitIfs

/-!
# What a walk finds

In a tree as file systems have them, every script file that a walk finds is where its path leads,
and no two of them have the same path relative to the start of the walk.

- `Found`, `found_of_mem_findScripts`: where the path of a script file leads;
- `nodup_findScripts`: the names of the script files differ;
- `nodup_relative`: so do their relative paths.
-/

namespace ClientBoundary
namespace Project

open Entry
open FileTree (isDirectory_find?_iff ne_empty_of_locate?)
open ClientBoundary.Path (Component IsName components)

/-! ## Steps of a walk -/

/-- What a walk adds for one entry of the directory that it is in. -/
def walkEntry (tree : FileTree) (fuel : Nat) (opened : List Location) (location : Location)
    (names : List String) (path : String) : String × Entry → List ScriptFile :=
  fun (name, e) =>
    match meets? tree opened location path name e with
    | some (_, .file _) =>
        if isScriptFile (Path.join path name) then [⟨names ++ [name], Path.join path name⟩] else []
    | some (l, .directory inner) =>
        if isSkippedName name then []
        else walk tree fuel (l :: opened) l (names ++ [name]) (Path.join path name) inner
    | _ => []

theorem walk_succ (tree : FileTree) (fuel : Nat) (opened : List Location) (location : Location)
    (names : List String) (path : String) (entries : List (String × Entry)) :
    walk tree (fuel + 1) opened location names path entries =
      entries.flatMap (walkEntry tree fuel opened location names path) := rfl

/-- A walk from `root` is in a directory: its path leads there, by names below the root. -/
structure Visits (tree : FileTree) (root : String) (location : Location) (names : List String)
    (path : String) (entries : List (String × Entry)) : Prop where
  here : tree.at? location = some (.directory entries)
  located : tree.locate? path = some location
  valid : ∀ n ∈ names, IsName n
  parts : components path = components root ++ names.map .name

/-- A script file that a walk from `root` found: its path leads to a file, by names below the
root. -/
structure Found (tree : FileTree) (root : String) (f : ScriptFile) : Prop where
  located : ∃ l content, tree.locate? f.path = some l ∧ tree.at? l = some (.file content)
  valid : ∀ n ∈ f.names, IsName n
  parts : components f.path = components root ++ f.names.map .name

section Walk

variable {tree : FileTree} {root path : String} {location : Location} {names : List String}
variable {entries : List (String × Entry)} {opened : List Location}

theorem Visits.entry (wf : tree.WellFormed) (v : Visits tree root location names path entries)
    {n : String} {e : Entry} (mem : (n, e) ∈ entries) :
    IsName n ∧ tree.at? (location ++ [n]) = some e := by
  cases wf.at? v.here with
  | directory valid sorted inner =>
      have distinct := nodup_of_sorted sorted
      exact ⟨valid (n, e) mem, (at?_name v.here n).trans (lookup_of_mem distinct mem)⟩

theorem Visits.locate?_join (wf : tree.WellFormed)
    (v : Visits tree root location names path entries) {n : String} {e : Entry}
    (mem : (n, e) ∈ entries) (plain : ∀ target, e ≠ .link target) :
    tree.locate? (Path.join path n) = some (location ++ [n]) := by
  rcases v.entry wf mem with ⟨name, here⟩
  have step := FileTree.locate?_join v.located name fun target link =>
    plain target (Option.some.inj (here.symm.trans link))
  simpa [here] using step

theorem meets?_link {n target : String} :
    meets? tree opened location path n (.link target) =
      (tree.locate? (Path.join path n)).bind fun l => (tree.at? l).bind fun met =>
        if met.isDirectory = true ∧ l ∈ opened then none else some (l, met) := by
  cases located : tree.locate? (Path.join path n) with
  | none => simp [meets?, located]
  | some l =>
      cases there : tree.at? l with
      | none => simp [meets?, located, there]
      | some met => cases met <;> simp [meets?, located, there, isDirectory]

/-- A link is met where the path leads, except to a directory that is open already. -/
theorem meets?_link_iff {n target : String} {met : Entry} {l : Location} :
    meets? tree opened location path n (.link target) = some (l, met) ↔
      tree.at? l = some met ∧ tree.locate? (Path.join path n) = some l ∧
        (met.isDirectory = true → l ∉ opened) := by
  simp only [meets?_link, Option.bind_eq_some_iff, Option.ite_none_left_eq_some, not_and,
    Option.some.injEq, Prod.mk.injEq]
  constructor
  · rintro ⟨m, located, other, there, closed, rfl, rfl⟩
    exact ⟨there, located, closed⟩
  · rintro ⟨there, located, closed⟩
    exact ⟨l, located, met, there, closed, rfl, rfl⟩

/-- What a walk meets is where the path leads, except for a link to a directory that is open. -/
theorem Visits.meets_iff (wf : tree.WellFormed) (v : Visits tree root location names path entries)
    {n : String} {e met : Entry} {l : Location} (mem : (n, e) ∈ entries) :
    meets? tree opened location path n e = some (l, met) ↔
      tree.at? l = some met ∧ tree.locate? (Path.join path n) = some l ∧
        ((∃ target, e = .link target) → met.isDirectory = true → l ∉ opened) := by
  -- what is no link stands in the directory itself
  have plain (no_link : ∀ target, e ≠ .link target)
      (here : meets? tree opened location path n e = some (location ++ [n], e)) :
      meets? tree opened location path n e = some (l, met) ↔
        tree.at? l = some met ∧ tree.locate? (Path.join path n) = some l ∧
          ((∃ target, e = .link target) → met.isDirectory = true → l ∉ opened) := by
    have there := (v.entry wf mem).2
    rw [here, v.locate?_join wf mem no_link]
    constructor
    · intro same
      rcases Prod.mk.inj (Option.some.inj same) with ⟨rfl, rfl⟩
      refine ⟨there, rfl, ?_⟩
      rintro ⟨target, link⟩
      exact absurd link (no_link target)
    · rintro ⟨found, same, -⟩
      rcases Option.some.inj same with rfl
      rw [Option.some.inj (there.symm.trans found)]
  cases e with
  | file content => exact plain (by simp) rfl
  | directory inner => exact plain (by simp) rfl
  | link target =>
      rw [meets?_link_iff]
      simp

/-- What a walk meets is where the path leads. -/
theorem Visits.meets (wf : tree.WellFormed) (v : Visits tree root location names path entries)
    {n : String} {e met : Entry} {l : Location} (mem : (n, e) ∈ entries)
    (h : meets? tree opened location path n e = some (l, met)) :
    tree.at? l = some met ∧ tree.locate? (Path.join path n) = some l := by
  rcases (v.meets_iff wf mem).1 h with ⟨here, located, -⟩
  exact ⟨here, located⟩

/-- The names and the path after one more step. -/
theorem Visits.join (wf : tree.WellFormed) (v : Visits tree root location names path entries)
    {n : String} {e : Entry} (mem : (n, e) ∈ entries) :
    (∀ m ∈ names ++ [n], IsName m) ∧
      components (Path.join path n) = components root ++ (names ++ [n]).map .name := by
  have name := (v.entry wf mem).1
  refine ⟨?_, ?_⟩
  · intro m hm
    rcases List.mem_append.1 hm with old | new
    · exact v.valid m old
    · rw [List.mem_singleton.1 new]
      exact name
  · rw [Path.components_join (ne_empty_of_locate? v.located) name, v.parts]
    simp

theorem Visits.directory (wf : tree.WellFormed) (v : Visits tree root location names path entries)
    {n : String} {e : Entry} {l : Location} {inner : List (String × Entry)}
    (mem : (n, e) ∈ entries)
    (h : meets? tree opened location path n e = some (l, .directory inner)) :
    Visits tree root l (names ++ [n]) (Path.join path n) inner := by
  rcases v.meets wf mem h with ⟨here, located⟩
  rcases v.join wf mem with ⟨valid, parts⟩
  exact ⟨here, located, valid, parts⟩

theorem Visits.file (wf : tree.WellFormed) (v : Visits tree root location names path entries)
    {n : String} {e : Entry} {l : Location} {content : Content} (mem : (n, e) ∈ entries)
    (h : meets? tree opened location path n e = some (l, .file content)) :
    Found tree root ⟨names ++ [n], Path.join path n⟩ := by
  rcases v.meets wf mem h with ⟨here, located⟩
  rcases v.join wf mem with ⟨valid, parts⟩
  exact ⟨⟨l, content, located, here⟩, valid, parts⟩

/-! ## Whole walks -/

/-- What a walk finds for an entry: a script file, or what is in a directory that is not skipped. -/
theorem mem_walkEntry {fuel : Nat} {n : String} {e : Entry} {f : ScriptFile} :
    f ∈ walkEntry tree fuel opened location names path (n, e) ↔
      (∃ l content, meets? tree opened location path n e = some (l, .file content) ∧
        isScriptFile (Path.join path n) = true ∧ f = ⟨names ++ [n], Path.join path n⟩) ∨
      ∃ l inner, meets? tree opened location path n e = some (l, .directory inner) ∧
        isSkippedName n = false ∧
        f ∈ walk tree fuel (l :: opened) l (names ++ [n]) (Path.join path n) inner := by
  simp only [walkEntry]
  split
  · rename_i l content met
    simp [met]
  · rename_i l inner met
    simp [met]
  · rename_i no_file no_directory
    constructor
    · nofun
    · rintro (⟨l, content, met, -⟩ | ⟨l, inner, met, -⟩)
      · exact absurd met (no_file l content)
      · exact absurd met (no_directory l inner)

theorem found_of_mem_walk (wf : tree.WellFormed) (fuel : Nat) :
    ∀ {opened location names path entries}, Visits tree root location names path entries →
      ∀ f ∈ walk tree fuel opened location names path entries, Found tree root f := by
  induction fuel with
  | zero =>
      intro opened location names path entries v f mem
      cases mem
  | succ fuel ih =>
      -- the walk stays a visit where it goes down, so the invariant reaches every file
      intro opened location names path entries v f mem
      rw [walk_succ] at mem
      rcases List.mem_flatMap.1 mem with ⟨⟨n, e⟩, entry, mem⟩
      rcases mem_walkEntry.1 mem with ⟨l, content, met, -, rfl⟩ | ⟨l, inner, met, -, below⟩
      · exact v.file wf entry met
      · exact ih (v.directory wf entry met) f below

/-- The names of what is found for an entry go on with its name, if names go on below it. -/
theorem names_of_mem_walkEntry {fuel : Nat} {n : String} {e : Entry} {f : ScriptFile}
    (below : ∀ {opened location names path entries},
      ∀ f ∈ walk tree fuel opened location names path entries,
        ∃ n more, f.names = names ++ n :: more)
    (mem : f ∈ walkEntry tree fuel opened location names path (n, e)) :
    ∃ more, f.names = names ++ n :: more := by
  rcases mem_walkEntry.1 mem with ⟨l, content, met, -, rfl⟩ | ⟨l, inner, met, -, inside⟩
  · exact ⟨[], rfl⟩
  · rcases below f inside with ⟨m, more, shape⟩
    exact ⟨m :: more, by simp [shape]⟩

/-- The names of what a walk finds go on from the names where it is. -/
theorem names_of_mem_walk (fuel : Nat) : ∀ {opened location names path entries},
    ∀ f ∈ walk tree fuel opened location names path entries,
      ∃ n more, f.names = names ++ n :: more := by
  induction fuel with
  | zero =>
      intro opened location names path entries f mem
      cases mem
  | succ fuel ih =>
      intro opened location names path entries f mem
      rw [walk_succ] at mem
      rcases List.mem_flatMap.1 mem with ⟨⟨n, e⟩, -, mem⟩
      rcases names_of_mem_walkEntry ih mem with ⟨more, shape⟩
      exact ⟨n, more, shape⟩

/-- No two files that a walk finds have the same names. -/
theorem nodup_walk (wf : tree.WellFormed) (fuel : Nat) :
    ∀ {opened location names path entries}, Visits tree root location names path entries →
      ((walk tree fuel opened location names path entries).map (·.names)).Nodup := by
  induction fuel with
  | zero =>
      intro opened location names path entries v
      exact List.nodup_nil
  | succ fuel ih =>
      intro opened location names path entries v
      rw [walk_succ, List.map_flatMap, List.nodup_flatMap]
      constructor
      · rintro ⟨n, e⟩ entry
        simp only [walkEntry]
        split
        · split_ifs
          · exact List.nodup_singleton _
          · exact List.nodup_nil
        · rename_i l inner met
          split_ifs
          · exact List.nodup_nil
          · exact ih (v.directory wf entry met)
        · exact List.nodup_nil
      · -- files below different entries differ in the name of the entry
        have distinct : (entries.map (·.1)).Nodup := by
          cases wf.at? v.here with
          | directory valid sorted inner => exact nodup_of_sorted sorted
        refine (List.pairwise_map.1 distinct).imp ?_
        rintro ⟨n, e⟩ ⟨m, d⟩ differ
        intro ns here there
        rcases List.mem_map.1 here with ⟨f, mem, rfl⟩
        rcases List.mem_map.1 there with ⟨g, also, same⟩
        rcases names_of_mem_walkEntry (names_of_mem_walk fuel) mem with ⟨more, shape⟩
        rcases names_of_mem_walkEntry (names_of_mem_walk fuel) also with ⟨others, other⟩
        rw [shape, other] at same
        exact differ (List.cons.inj (List.append_cancel_left same)).1.symm

end Walk

/-! ## Script files below a path -/

section Scripts

variable {tree : FileTree} {root : String}

theorem visits_root (isDir : (tree.find? root).any isDirectory = true) :
    ∃ l entries, tree.locate? root = some l ∧ tree.at? l = some (.directory entries) ∧
      Visits tree root l [] root entries := by
  rcases isDirectory_find?_iff.1 isDir with ⟨l, entries, located, here⟩
  exact ⟨l, entries, located, here, here, located, by simp, by simp⟩

/-- In a directory, the script files are those of a walk. -/
theorem perm_findScripts (isDir : (tree.find? root).any isDirectory = true) :
    ∃ l entries, Visits tree root l [] root entries ∧
      (findScripts tree root).Perm (walk tree (walkBound tree) [l] l [] root entries) := by
  rcases visits_root isDir with ⟨l, entries, located, here, v⟩
  refine ⟨l, entries, v, ?_⟩
  simp only [findScripts, located, here]
  exact List.mergeSort_perm _ _

theorem found_of_mem_findScripts (wf : tree.WellFormed)
    (isDir : (tree.find? root).any isDirectory = true) {f : ScriptFile}
    (mem : f ∈ findScripts tree root) : Found tree root f := by
  rcases perm_findScripts isDir with ⟨l, entries, v, perm⟩
  exact found_of_mem_walk wf _ v f (perm.mem_iff.1 mem)

theorem nodup_findScripts (wf : tree.WellFormed)
    (isDir : (tree.find? root).any isDirectory = true) :
    ((findScripts tree root).map (·.names)).Nodup := by
  rcases perm_findScripts isDir with ⟨l, entries, v, perm⟩
  exact (perm.map _).nodup_iff.2 (nodup_walk wf _ v)

theorem Found.relative {f : ScriptFile} (h : Found tree root f) :
    Path.relative root f.path = "/".intercalate f.names :=
  Path.relative_of_components h.parts

/-- No two script files have the same path relative to the start of the walk. -/
theorem nodup_relative (wf : tree.WellFormed) (isDir : (tree.find? root).any isDirectory = true) :
    ((findScripts tree root).map fun f => Path.relative root f.path).Nodup := by
  have names := nodup_findScripts wf isDir
  rw [List.Nodup, List.pairwise_map] at names ⊢
  -- relative paths are the names with slashes between them
  refine names.imp_of_mem ?_
  intro f g hf hg differ same
  have found := found_of_mem_findScripts wf isDir hf
  have also := found_of_mem_findScripts wf isDir hg
  rw [found.relative, also.relative] at same
  exact differ (Path.intercalate_injective (fun n hn => (found.valid n hn).isPart)
    (fun n hn => (also.valid n hn).isPart) same)

end Scripts

end Project
end ClientBoundary
