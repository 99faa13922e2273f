import ClientBoundary.Proofs.Project.EntryText
import ClientBoundary.Proofs.Project.Walking

/-!
# Entries in the cache directory

The entry of a path is a file of its own name right in the cache directory. Storing an entry changes
that file and nothing else of the tree, and so does removing it.

- `isName_entryName`: what an entry is called;
- `Opened`: where the directory of a cache is, and what it holds;
- `get_of_free`, `get_of_entry`: reading the entry of a path;
- `opened_write`, `opened_remove`: the directory after an entry was written or removed;
- `opened_set`, `grows_set`: storing one.
-/

namespace ClientBoundary
namespace Project
namespace Cache

open Entry
open FileTree (Grows follow?_of_locate? locate?_join locate?_of_grows ne_empty_of_locate?
  steps_join)
open ClientBoundary.Path (Component IsName components)
open Rules (Finding)

/-- The name of an entry is longer than a step, and all slashes are taken out of it. -/
theorem isName_entryName (path : String) : IsName (entryName path) := by
  have text : (entryName path).toList =
      (path.toList.map fun c => if c = '/' || c = '\\' || c = ':' then '_' else c) ++
        ['.', 'j', 's', 'o', 'n'] := by
    rw [entryName, String.toList_append, String.toList_ofList]
    rfl
  have long : 5 ≤ (entryName path).toList.length := by
    rw [text, List.length_append]
    exact Nat.le_add_left 5 _
  have not_short : ∀ short : String, short.toList.length < 5 → entryName path ≠ short := by
    rintro short less rfl
    omega
  refine ⟨not_short "" (by decide), ?_, not_short "." (by decide), not_short ".." (by decide)⟩
  rw [text, List.mem_append, not_or]
  constructor
  · intro slash
    rcases List.mem_map.1 slash with ⟨c, -, same⟩
    by_cases special : c = '/' ∨ c = '\\' ∨ c = ':'
    · have replaced : (c = '/' || c = '\\' || c = ':') = true := by simpa [or_assoc] using special
      rw [if_pos replaced] at same
      exact absurd same (by decide)
    · have kept : ¬((c = '/' || c = '\\' || c = ':') = true) := by simpa [or_assoc] using special
      rw [if_neg kept] at same
      exact special (.inl same)
  · decide

/-- The directory of a cache is at a location and holds some entries. -/
structure Opened (c : Cache) (tree : FileTree) (dir : Location) (entries : List (String × Entry)) :
    Prop where
  located : tree.locate? c.directory = some dir
  here : tree.at? dir = some (.directory entries)

section Slot

variable {c : Cache} {tree : FileTree} {dir : Location} {entries : List (String × Entry)}

theorem Opened.filled (h : Opened c tree dir entries) : c.directory ≠ "" :=
  ne_empty_of_locate? h.located

theorem Opened.followed (h : Opened c tree dir entries) :
    follow? tree.top linkLimit (tree.start c.directory) (components c.directory) = some dir :=
  follow?_of_locate? h.located

theorem Opened.find? (h : Opened c tree dir entries) :
    tree.find? c.directory = some (.directory entries) := by
  rw [FileTree.find?, h.located, Option.bind_some, h.here]

theorem opened_of_find? (h : tree.find? c.directory = some (.directory entries)) :
    ∃ dir, Opened c tree dir entries := by
  rcases Option.bind_eq_some_iff.1 h with ⟨dir, located, here⟩
  exact ⟨dir, located, here⟩

/-- What stands under the entry path is looked up in the directory. -/
theorem find?_entryPath (h : Opened c tree dir entries) {path : String}
    (slot : IsSlot entries (entryName path)) :
    tree.find? (c.entryPath path) = entries.lookup (entryName path) := by
  -- no link stands there, so the path ends in the directory
  have name : tree.at? (dir ++ [entryName path]) = entries.lookup (entryName path) :=
    at?_name h.here (entryName path)
  have plain : ∀ target, tree.at? (dir ++ [entryName path]) ≠ some (.link target) := by
    intro target link
    rw [name] at link
    rcases slot _ link with ⟨bytes, same⟩
    cases same
  have located := locate?_join h.located (isName_entryName path) plain
  rw [← entryPath] at located
  rw [FileTree.find?, located, name]
  cases found : entries.lookup (entryName path) with
  | none => rfl
  | some e => simp [name, found]

theorem get_of_free (h : Opened c tree dir entries) {path : String}
    (free : entries.lookup (entryName path) = none) (source : String) :
    c.get tree path source = (tree, none) := by
  have slot : IsSlot entries (entryName path) := by
    intro e found
    simp [free] at found
  have bytes : tree.bytes? (c.entryPath path) = none := by
    rw [FileTree.bytes?, find?_entryPath h slot, free]
  unfold Cache.get
  rw [bytes, Option.bind_none]

/-- An entry that holds its text is found, if it was made from the source. -/
theorem get_of_entry (h : Opened c tree dir entries) {path : String} {e : CacheEntry}
    (fits : ∀ f ∈ e.findings, f.Fits)
    (found : entries.lookup (entryName path) = some (.file (.ok (Text.utf8Bytes e.render))))
    (source : String) : c.get tree path source =
      (tree, if e.digest = digest source c.fingerprint then some e.findings else none) := by
  have slot : IsSlot entries (entryName path) := by
    intro other same
    rw [found] at same
    exact ⟨_, (Option.some.inj same).symm⟩
  have bytes : tree.bytes? (c.entryPath path) = some (Text.utf8Bytes e.render) := by
    rw [FileTree.bytes?, find?_entryPath h slot, found]
  unfold Cache.get
  rw [bytes, Option.bind_some, textOf?_utf8Bytes]
  simp only [CacheEntry.parse?_render fits]

/-! ## Writing and removing -/

theorem splitLast?_entryPath (h : Opened c tree dir entries) (path : String) :
    splitLast? (steps (c.entryPath path)) = some (components c.directory, entryName path) := by
  rw [entryPath, steps_join h.filled (isName_entryName path)]
  simp [splitLast?]

theorem start_entryPath (tree : FileTree) (c : Cache) (path : String) :
    tree.start (c.entryPath path) = tree.start c.directory :=
  FileTree.start_join (isName_entryName path)

/-- Bytes that are written to the entry of a path stand in the directory. -/
theorem write_eq (h : Opened c tree dir entries) {path : String}
    (slot : IsSlot entries (entryName path)) (bytes : List UInt8) :
    tree.write (c.entryPath path) bytes =
      { tree with
        top := changeAt (putName (entryName path) (.file (.ok bytes))) dir tree.top } := by
  have name := at?_name h.here (entryName path)
  -- what is written is not behind a link, so the first of the allowed steps is the last one
  rw [FileTree.write, start_entryPath, show linkLimit = 40 + 1 from rfl, writeFrom,
    splitLast?_entryPath h]
  simp only [h.followed, name]
  cases found : entries.lookup (entryName path) with
  | none => rfl
  | some e =>
      rcases slot e found with ⟨bytes, rfl⟩
      rfl

theorem grows_write (h : Opened c tree dir entries) {path : String}
    (slot : IsSlot entries (entryName path)) (bytes : List UInt8) :
    Grows (Inside dir) tree (tree.write (c.entryPath path) bytes) := by
  rw [write_eq h slot]
  exact .of_top (grows_changeAt h.here slot bytes)

theorem opened_write (h : Opened c tree dir entries) {path : String}
    (slot : IsSlot entries (entryName path)) (bytes : List UInt8) :
    Opened c (tree.write (c.entryPath path) bytes) dir
      (putName (entryName path) (.file (.ok bytes)) entries) := by
  refine ⟨locate?_of_grows (grows_write h slot bytes) h.located, ?_⟩
  rw [write_eq h slot]
  exact at?_changeAt _ h.here

/-- The entry that is removed was a file, and the way to the directory does not lead through it. -/
theorem opened_remove (h : Opened c tree dir entries) {path : String} {content : Content}
    (found : entries.lookup (entryName path) = some (.file content)) :
    Opened c (tree.remove (c.entryPath path)) dir (removeName (entryName path) entries) := by
  have removes : (fun entries : List (String × Entry) =>
      if (entries.lookup (entryName path)).any isDirectory then entries
      else removeName (entryName path) entries) entries = removeName (entryName path) entries := by
    simp [found, isDirectory]
  have apart : ¬dir = dir ++ [entryName path] := by simp
  rw [FileTree.remove, start_entryPath, changeFrom, splitLast?_entryPath h]
  simp only [h.followed]
  refine ⟨FileTree.locate?_of_keepsKinds (keepsKinds_removeName h.here found removes) h.located
    apart, ?_⟩
  exact (at?_changeAt _ h.here).trans (congrArg (fun left => some (Entry.directory left)) removes)

/-! ## Storing -/

theorem grows_set (h : Opened c tree dir entries) {path : String}
    (slot : IsSlot entries (entryName path)) (source : String) (findings : List Finding) :
    Grows (Inside dir) tree (c.set tree path source findings) :=
  grows_write h slot _

theorem wellFormed_set (h : Opened c tree dir entries) (wf : tree.WellFormed) {path : String}
    (slot : IsSlot entries (entryName path)) (source : String) (findings : List Finding) :
    (c.set tree path source findings).WellFormed := by
  rw [set, write_eq h slot]
  refine wf.changeAt fun entries sound => ?_
  exact sound.putName (isName_entryName path) (.file _)

theorem opened_set (h : Opened c tree dir entries) {path : String}
    (slot : IsSlot entries (entryName path)) (source : String) (findings : List Finding) :
    Opened c (c.set tree path source findings) dir
      (putName (entryName path) (.file (.ok (Text.utf8Bytes
        (CacheEntry.mk (digest source c.fingerprint) findings).render))) entries) :=
  opened_write h slot _

end Slot

end Cache
end Project
end ClientBoundary
