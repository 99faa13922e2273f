import ClientBoundary.Project.Discovery
import ClientBoundary.Proofs.Project.Resolving
import ClientBoundary.Proofs.Project.WellFormed

/-!
# Contents of files

What a walk finds does not depend on what is in the files.

- `FileTree.emptied`: a tree without the contents of its files;
- `findScripts_emptied`: it has the script files of the tree;
- `FileTree.withContent`: a tree with other content in one file;
- `findScripts_withContent`, `grows_withContent`: what it has in common with the tree.
-/

namespace ClientBoundary
namespace Project

open Entry

/-! ## Trees without contents -/

mutual

/-- The entry with nothing in its files. -/
def Entry.emptied : Entry → Entry
  | .file _ => .file (.ok [])
  | .directory entries => .directory (emptiedAll entries)
  | .link target => .link target

def Entry.emptiedAll : List (String × Entry) → List (String × Entry)
  | [] => []
  | (n, e) :: more => (n, e.emptied) :: emptiedAll more

end

theorem lookup_emptiedAll (entries : List (String × Entry)) (n : String) :
    (emptiedAll entries).lookup n = (entries.lookup n).map emptied := by
  induction entries with
  | nil => rfl
  | cons entry more ih =>
      rcases entry with ⟨m, e⟩
      rw [emptiedAll, List.lookup_cons, List.lookup_cons, ih]
      cases n == m <;> rfl

theorem at?_emptied (top : Entry) (l : Location) :
    top.emptied.at? l = (top.at? l).map emptied := by
  induction l generalizing top with
  | nil => rfl
  | cons n l ih =>
      cases top with
      | file content => rfl
      | link target => rfl
      | directory entries =>
          rw [emptied, at?, at?, lookup_emptiedAll]
          cases entries.lookup n with
          | none => rfl
          | some e => exact ih e

/-- Emptying files keeps what every entry is, and so does filling them. -/
theorem kept_emptied (e : Entry) : Kept True e e.emptied ∧ Kept True e.emptied e := by
  cases e with
  | file content => exact ⟨.file (.inl trivial), .file (.inl trivial)⟩
  | directory entries => exact ⟨.directory _ _, .directory _ _⟩
  | link target => exact ⟨.link target, .link target⟩

/-- The tree with nothing in its files. -/
def FileTree.emptied (tree : FileTree) : FileTree :=
  { tree with top := tree.top.emptied }

theorem locate?_emptied (tree : FileTree) (path : String) :
    tree.emptied.locate? path = tree.locate? path := by
  have empties : FileTree.Grows (fun _ => True) tree tree.emptied := by
    refine .of_top fun l e found => ?_
    exact ⟨e.emptied, by rw [at?_emptied, found, Option.map_some], (kept_emptied e).1⟩
  have fills : FileTree.Grows (fun _ => True) tree.emptied tree := by
    refine ⟨rfl, fun l e found => ?_⟩
    rw [FileTree.emptied, at?_emptied] at found
    rcases Option.map_eq_some_iff.1 found with ⟨e, here, rfl⟩
    exact ⟨e, here, (kept_emptied e).2⟩
  -- each of the two trees has everything of the other one
  apply Option.ext
  intro l
  exact ⟨FileTree.locate?_of_grows fills, FileTree.locate?_of_grows empties⟩

/-! ## Walks -/

mutual

theorem directoryCount_emptied : ∀ e : Entry, directoryCount e.emptied = directoryCount e
  | .file _ => rfl
  | .directory entries => by
      rw [emptied, directoryCount, directoryCount, directoryCounts_emptiedAll entries]
  | .link _ => rfl

theorem directoryCounts_emptiedAll : ∀ entries : List (String × Entry),
    directoryCounts (emptiedAll entries) = directoryCounts entries
  | [] => rfl
  | (n, e) :: more => by
      rw [emptiedAll, directoryCounts, directoryCounts, directoryCount_emptied e,
        directoryCounts_emptiedAll more]

end

section Walks

variable {tree : FileTree} {opened : List Location} {location : Location} {path : String}

theorem meets?_emptied (name : String) (e : Entry) :
    meets? tree.emptied opened location path name e.emptied =
      (meets? tree opened location path name e).map fun (l, met) => (l, met.emptied) := by
  cases e with
  | file content => rfl
  | directory entries => rfl
  | link target =>
      simp only [emptied, meets?, locate?_emptied]
      cases tree.locate? (Path.join path name) with
      | none => rfl
      | some l =>
          simp only [FileTree.at?, FileTree.emptied, at?_emptied]
          cases tree.top.at? l with
          | none => rfl
          | some met =>
              cases met with
              | file content => rfl
              | link target => rfl
              | directory entries =>
                  simp only [Option.map_some, emptied]
                  split <;> rfl

theorem walk_emptied (fuel : Nat) : ∀ {opened location names path entries},
    walk tree.emptied fuel opened location names path (emptiedAll entries) =
      walk tree fuel opened location names path entries := by
  induction fuel with
  | zero =>
      intro opened location names path entries
      rfl
  | succ fuel ih =>
      intro opened location names path entries
      -- entry by entry, the walks meet the same and go down alike
      induction entries with
      | nil => rfl
      | cons entry more rest =>
          rcases entry with ⟨n, e⟩
          simp only [walk, emptiedAll, List.flatMap_cons] at rest ⊢
          rw [rest, meets?_emptied]
          congr 1
          rcases meets? tree opened location path n e with _ | ⟨l, met⟩
          · rfl
          · cases met with
            | file content => rfl
            | link target => rfl
            | directory inner => simp only [Option.map_some, emptied, ih]

end Walks

theorem findScripts_emptied (tree : FileTree) (root : String) :
    findScripts tree.emptied root = findScripts tree root := by
  simp only [findScripts, locate?_emptied]
  cases tree.locate? root with
  | none => rfl
  | some l =>
      have same : tree.emptied.at? l = (tree.at? l).map Entry.emptied := at?_emptied tree.top l
      have bound : walkBound tree.emptied = walkBound tree := by
        rw [walkBound, walkBound, FileTree.emptied, directoryCount_emptied]
      simp only [same, bound]
      rcases tree.at? l with _ | (content | entries | target)
      · rfl
      · rfl
      · simp only [Option.map_some, Entry.emptied, walk_emptied]
      · rfl

theorem isDirectory_emptied (tree : FileTree) (root : String) :
    (tree.emptied.find? root).any isDirectory = (tree.find? root).any isDirectory := by
  rw [FileTree.find?, FileTree.find?, locate?_emptied]
  cases tree.locate? root with
  | none => rfl
  | some l =>
      have same : tree.emptied.at? l = (tree.at? l).map Entry.emptied := at?_emptied tree.top l
      simp only [Option.bind_some, same]
      rcases tree.at? l with _ | (content | entries | target) <;> rfl

/-! ## Other content -/

/-- The entry with other content in the file at a location. -/
def Entry.withContent (content : Content) : Location → Entry → Entry
  | [], .file _ => .file content
  | n :: more, .directory entries => .directory (changeName n (withContent content more) entries)
  | _, e => e

/-- The tree with other content in the file at a location. -/
def FileTree.withContent (content : Content) (l : Location) (tree : FileTree) : FileTree :=
  { tree with top := tree.top.withContent content l }

theorem emptiedAll_changeName {f : Entry → Entry} (same : ∀ e, (f e).emptied = e.emptied)
    (n : String) (entries : List (String × Entry)) :
    emptiedAll (changeName n f entries) = emptiedAll entries := by
  induction entries with
  | nil => rfl
  | cons entry more ih =>
      rcases entry with ⟨m, e⟩
      rw [changeName] at ih ⊢
      rw [List.map_cons]
      by_cases hit : m = n
      · simp [hit, emptiedAll, same, ih]
      · simp [hit, emptiedAll, ih]

section Changed

variable (content : Content) (l : Location)

theorem emptied_entry_withContent (top : Entry) :
    (top.withContent content l).emptied = top.emptied := by
  induction l generalizing top with
  | nil => cases top <;> rfl
  | cons n l ih =>
      cases top with
      | file old => rfl
      | link target => rfl
      | directory entries => rw [withContent, emptied, emptied, emptiedAll_changeName ih]

theorem emptied_withContent (tree : FileTree) :
    (tree.withContent content l).emptied = tree.emptied := by
  rw [FileTree.emptied, FileTree.withContent, emptied_entry_withContent, FileTree.emptied]

theorem findScripts_withContent (tree : FileTree) (root : String) :
    findScripts (tree.withContent content l) root = findScripts tree root := by
  -- without contents the two trees are one
  rw [← findScripts_emptied, emptied_withContent, findScripts_emptied]

theorem isDirectory_withContent (tree : FileTree) (root : String) :
    ((tree.withContent content l).find? root).any isDirectory =
      (tree.find? root).any isDirectory := by
  rw [← isDirectory_emptied, emptied_withContent, isDirectory_emptied]

theorem grows_entry_withContent (top : Entry) :
    Entry.Grows (· = l) top (top.withContent content l) := by
  induction l generalizing top with
  | nil =>
      cases top with
      | link target => exact Entry.Grows.refl _ _
      | directory entries => exact Entry.Grows.refl _ _
      | file old =>
          rintro (_ | ⟨n, more⟩) e found
          · obtain rfl : Entry.file old = e := by simpa [at?] using found
            exact ⟨.file content, rfl, .file (.inl rfl)⟩
          · simp [at?] at found
  | cons n l ih =>
      cases top with
      | file old => exact Entry.Grows.refl _ _
      | link target => exact Entry.Grows.refl _ _
      | directory entries =>
          rw [withContent]
          apply Entry.Grows.changeName
          · intro sub hit
            exact ih sub
          · intro m same
            rw [same]

theorem grows_withContent (tree : FileTree) :
    FileTree.Grows (· = l) tree (tree.withContent content l) :=
  .of_top (grows_entry_withContent content l tree.top)

end Changed

theorem Entry.WellFormed.withContent (content : Content) {l : Location} {top : Entry}
    (h : top.WellFormed) : (top.withContent content l).WellFormed := by
  induction l generalizing top with
  | nil =>
      cases top with
      | file old => exact .file content
      | link target => exact h
      | directory entries => exact h
  | cons n l ih =>
      cases top with
      | file old => exact h
      | link target => exact h
      | directory entries => exact h.changeName (fun _ sound => ih sound) n

end Project
end ClientBoundary
