import ClientBoundary.Proofs.Path.Joining
import ClientBoundary.Project.FileTree
import Mathlib.Data.List.Nodup
import Mathlib.Data.String.Basic

/-!
# Well-formed file trees

In the trees of a file system every directory has its entries in the order of their names, each
under a name of its own.

- `Entry.WellFormed`, `FileTree.WellFormed`: such trees;
- `Entry.WellFormed.at?`: their parts are such trees;
- `Entry.WellFormed.nil`, `Entry.WellFormed.cons`: directories entry by entry;
- `Entry.WellFormed.putName`, `Entry.WellFormed.changeAt`: changes that keep a tree well-formed.
-/

namespace ClientBoundary
namespace Project

open Entry
open ClientBoundary.Path (IsName)

/-- The entries of every directory have names, in increasing order. -/
inductive Entry.WellFormed : Entry → Prop
  | file (content : Content) : WellFormed (.file content)
  | link (target : String) : WellFormed (.link target)
  | directory {entries : List (String × Entry)} (valid : ∀ p ∈ entries, IsName p.1)
      (sorted : (entries.map (·.1)).Pairwise (· < ·)) (inner : ∀ p ∈ entries, p.2.WellFormed) :
      WellFormed (.directory entries)

/-- A tree is well-formed from the root down. -/
abbrev FileTree.WellFormed (tree : FileTree) : Prop :=
  tree.top.WellFormed

theorem nodup_of_sorted {entries : List (String × Entry)}
    (sorted : (entries.map (·.1)).Pairwise (· < ·)) : (entries.map (·.1)).Nodup :=
  sorted.imp fun less => ne_of_lt less

theorem lookup_of_mem {entries : List (String × Entry)} (distinct : (entries.map (·.1)).Nodup)
    {n : String} {e : Entry} (mem : (n, e) ∈ entries) : entries.lookup n = some e := by
  induction entries with
  | nil => cases mem
  | cons entry more ih =>
      rcases entry with ⟨m, old⟩
      rw [List.map_cons, List.nodup_cons] at distinct
      rcases List.mem_cons.1 mem with same | later
      · rcases Prod.mk.inj same with ⟨rfl, rfl⟩
        simp
      · -- the first entry has another name, as all names differ
        have other : n ≠ m := by
          rintro rfl
          exact distinct.1 (List.mem_map.2 ⟨(n, e), later, rfl⟩)
        have apart : (n == m) = false := beq_false_of_ne other
        rw [List.lookup_cons, apart]
        exact ih distinct.2 later

theorem mem_of_lookup {entries : List (String × Entry)} {n : String} {e : Entry}
    (h : entries.lookup n = some e) : (n, e) ∈ entries := by
  rcases List.lookup_eq_some_iff.1 h with ⟨front, rest, rfl, -⟩
  simp

theorem Entry.WellFormed.at? {tree e : Entry} {l : Location} (h : tree.WellFormed)
    (found : tree.at? l = some e) : e.WellFormed := by
  induction l generalizing tree with
  | nil =>
      obtain rfl : tree = e := by simpa [Entry.at?] using found
      exact h
  | cons n l ih =>
      cases h with
      | file content => simp [Entry.at?] at found
      | link target => simp [Entry.at?] at found
      | directory valid sorted inner =>
          rw [Entry.at?] at found
          rcases Option.bind_eq_some_iff.1 found with ⟨sub, hit, below⟩
          exact ih (inner (n, sub) (mem_of_lookup hit)) below

/-! ## Directories entry by entry -/

theorem Entry.WellFormed.nil : (Entry.directory []).WellFormed :=
  .directory (by simp) .nil (by simp)

/-- An entry in front of others whose names come after its own. -/
theorem Entry.WellFormed.cons {n : String} {e : Entry} {entries : List (String × Entry)}
    (valid : IsName n) (before : ∀ m ∈ entries.map (·.1), n < m) (inner : e.WellFormed)
    (rest : (Entry.directory entries).WellFormed) :
    (Entry.directory ((n, e) :: entries)).WellFormed := by
  cases rest with
  | directory names sorted inside =>
      refine .directory ?_ (List.pairwise_cons.2 ⟨before, sorted⟩) ?_
      · exact List.forall_mem_cons.2 ⟨valid, names⟩
      · exact List.forall_mem_cons.2 ⟨inner, inside⟩

/-! ## Changes -/

theorem mem_putName {name : String} {e : Entry} {entries : List (String × Entry)}
    {p : String × Entry} (mem : p ∈ putName name e entries) : p = (name, e) ∨ p ∈ entries := by
  induction entries with
  | nil => exact .inl (List.mem_singleton.1 mem)
  | cons entry more ih =>
      rcases entry with ⟨n, old⟩
      rw [putName] at mem
      split at mem
      · exact List.mem_cons.1 mem
      · split at mem
        · rcases List.mem_cons.1 mem with new | later
          · exact .inl new
          · exact .inr (List.mem_cons_of_mem _ later)
        · rcases List.mem_cons.1 mem with first | later
          · exact .inr (first ▸ List.mem_cons_self)
          · exact (ih later).imp_right (List.mem_cons_of_mem _)

theorem sorted_putName {name : String} {e : Entry} {entries : List (String × Entry)}
    (sorted : (entries.map (·.1)).Pairwise (· < ·)) :
    ((putName name e entries).map (·.1)).Pairwise (· < ·) := by
  induction entries with
  | nil => exact List.pairwise_singleton _ _
  | cons entry more ih =>
      rcases entry with ⟨n, old⟩
      have below : ∀ m ∈ more.map (·.1), n < m := (List.pairwise_cons.1 sorted).1
      have rest : (more.map (·.1)).Pairwise (· < ·) := (List.pairwise_cons.1 sorted).2
      rw [putName]
      -- the new entry stands before the first one, in its place or behind it
      split
      · rename_i before
        refine List.pairwise_cons.2 ⟨?_, sorted⟩
        intro m mem
        rcases List.mem_cons.1 mem with rfl | later
        · exact before
        · exact lt_trans before (below m later)
      · rename_i before
        split
        · rename_i same
          subst same
          exact sorted
        · rename_i other
          have after : n < name := lt_of_le_of_ne (not_lt.1 before) (Ne.symm other)
          refine List.pairwise_cons.2 ⟨?_, ih rest⟩
          intro m mem
          rcases List.mem_map.1 mem with ⟨p, added, rfl⟩
          rcases mem_putName added with rfl | old
          · exact after
          · exact below p.1 (List.mem_map.2 ⟨p, old, rfl⟩)

theorem Entry.WellFormed.putName {name : String} {e : Entry} {entries : List (String × Entry)}
    (h : (Entry.directory entries).WellFormed) (valid : IsName name) (inner : e.WellFormed) :
    (Entry.directory (putName name e entries)).WellFormed := by
  cases h with
  | directory names sorted inside =>
      refine .directory ?_ (sorted_putName sorted) ?_
      · intro p mem
        rcases mem_putName mem with rfl | old
        · exact valid
        · exact names p old
      · intro p mem
        rcases mem_putName mem with rfl | old
        · exact inner
        · exact inside p old

/-- Changing an entry keeps a directory well-formed if it keeps the entry so. -/
theorem Entry.WellFormed.changeName {f : Entry → Entry} {entries : List (String × Entry)}
    (h : (Entry.directory entries).WellFormed) (keeps : ∀ e, e.WellFormed → (f e).WellFormed)
    (n : String) : (Entry.directory (changeName n f entries)).WellFormed := by
  cases h with
  | directory names sorted inside =>
      -- the names and their order stay
      have keys : (Entry.changeName n f entries).map (·.1) = entries.map (·.1) := by
        rw [Entry.changeName, List.map_map]
        refine List.map_congr_left fun p _ => ?_
        by_cases same : p.1 = n <;> simp [same]
      refine .directory ?_ (by rw [keys]; exact sorted) ?_
      · intro p mem
        have key : p.1 ∈ entries.map (·.1) := keys ▸ List.mem_map.2 ⟨p, mem, rfl⟩
        rcases List.mem_map.1 key with ⟨q, old, same⟩
        rw [← same]
        exact names q old
      · intro p mem
        rcases List.mem_map.1 mem with ⟨q, old, rfl⟩
        have sound := inside q old
        by_cases same : q.1 = n
        · simpa [same] using keeps _ sound
        · simpa [same] using sound

/-- Changing a directory keeps a tree well-formed if it keeps the directory so. -/
theorem Entry.WellFormed.changeAt {f : List (String × Entry) → List (String × Entry)}
    (keeps : ∀ entries, (Entry.directory entries).WellFormed →
      (Entry.directory (f entries)).WellFormed)
    {dir : Location} {tree : Entry} (h : tree.WellFormed) : (changeAt f dir tree).WellFormed := by
  induction dir generalizing tree with
  | nil =>
      cases tree with
      | file content => exact h
      | link target => exact h
      | directory entries => exact keeps entries h
  | cons n dir ih =>
      cases tree with
      | file content => exact h
      | link target => exact h
      | directory entries => exact h.changeName (fun _ sound => ih sound) n

end Project
end ClientBoundary
