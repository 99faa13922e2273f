import ClientBoundary.Project.FileTree
import ClientBoundary.Proofs.Path.Joining

/-!
# Where paths lead

A path leads somewhere by its components, and it still leads there after a file was written into
some directory, or removed from it, unless it leads to the file itself.

- `Entry.reach_append`, `follow?_here`, `follow?_name`, `follow?_names`: following a path with more
  behind it;
- `Entry.Grows`, `grows_changeAt`: what stays of an entry when files of one directory are written;
- `Entry.KeepsKinds`, `keepsKinds_removeName`: what stays when a file is removed;
- `FileTree.isDirectory_find?_iff`, `follow?_of_locate?`, `locate?_join`:
  where paths lead in a tree;
- `FileTree.locate?_of_keepsKinds`, `locate?_of_grows`: they lead to the same locations in the tree
  that it became.
-/

namespace ClientBoundary
namespace Project

open ClientBoundary.Path (Component IsName components)

namespace Entry

/-! ## Entries of a directory -/

theorem lookup_putName_self (name : String) (e : Entry) (entries : List (String × Entry)) :
    (putName name e entries).lookup name = some e := by
  induction entries with
  | nil => simp [putName]
  | cons entry more ih =>
      rcases entry with ⟨n, old⟩
      by_cases before : name < n
      · simp [putName, before]
      · by_cases same : name = n
        · subst same
          simp [putName]
        · have other : (name == n) = false := beq_false_of_ne same
          simp [putName, before, same, List.lookup_cons, other, ih]

theorem lookup_putName_of_ne {name other : String} (ne : other ≠ name) (e : Entry)
    (entries : List (String × Entry)) :
    (putName name e entries).lookup other = entries.lookup other := by
  have apart : (other == name) = false := beq_false_of_ne ne
  induction entries with
  | nil => simp [putName, List.lookup_cons, apart]
  | cons entry more ih =>
      rcases entry with ⟨n, old⟩
      by_cases before : name < n
      · simp [putName, before, List.lookup_cons, apart]
      · by_cases same : name = n
        · subst same
          simp [putName, List.lookup_cons, apart]
        · simp only [putName, before, same, if_false, List.lookup_cons, ih]

theorem lookup_changeName (name : String) (f : Entry → Entry) (entries : List (String × Entry))
    (other : String) : (changeName name f entries).lookup other =
      (entries.lookup other).map fun e => if other = name then f e else e := by
  induction entries with
  | nil => rfl
  | cons entry more ih =>
      rcases entry with ⟨n, e⟩
      have step : changeName name f ((n, e) :: more) =
          (n, if n = name then f e else e) :: changeName name f more := by
        by_cases same : n = name <;> simp [changeName, same]
      rw [step, List.lookup_cons, List.lookup_cons, ih]
      by_cases hit : other = n
      · subst hit
        simp
      · have apart : (other == n) = false := beq_false_of_ne hit
        simp [apart]

theorem lookup_removeName (name other : String) (entries : List (String × Entry)) :
    (removeName name entries).lookup other =
      if other = name then none else entries.lookup other := by
  induction entries with
  | nil => simp [removeName]
  | cons entry more ih =>
      rcases entry with ⟨n, e⟩
      rw [removeName] at ih ⊢
      by_cases removed : n = name
      · -- the entry goes, and it was none of those with other names
        subst removed
        rw [List.filter_cons_of_neg (by simp), ih]
        by_cases same : other = n
        · rw [if_pos same, if_pos same]
        · have apart : (other == n) = false := beq_false_of_ne same
          rw [if_neg same, if_neg same, List.lookup_cons, apart]
      · rw [List.filter_cons_of_pos (by simpa using removed), List.lookup_cons,
          List.lookup_cons, ih]
        by_cases same : other = n
        · subst same
          simp [removed]
        · have apart : (other == n) = false := beq_false_of_ne same
          simp only [apart]

theorem at?_append (tree : Entry) (l more : Location) :
    tree.at? (l ++ more) = (tree.at? l).bind fun e => e.at? more := by
  induction l generalizing tree with
  | nil => simp [at?]
  | cons n l ih =>
      cases tree with
      | file content => rfl
      | link target => rfl
      | directory entries =>
          rw [List.cons_append, at?, at?]
          cases entries.lookup n with
          | none => rfl
          | some e => exact ih e

theorem at?_name {tree : Entry} {l : Location} {entries : List (String × Entry)}
    (h : tree.at? l = some (.directory entries)) (n : String) :
    tree.at? (l ++ [n]) = entries.lookup n := by
  rw [at?_append, h, Option.bind_some, at?]
  cases entries.lookup n <;> simp [at?]

theorem at?_changeAt {tree : Entry} {dir : Location} {entries : List (String × Entry)}
    (f : List (String × Entry) → List (String × Entry))
    (h : tree.at? dir = some (.directory entries)) :
    (changeAt f dir tree).at? dir = some (.directory (f entries)) := by
  induction dir generalizing tree with
  | nil =>
      obtain rfl : tree = .directory entries := by simpa [at?] using h
      rfl
  | cons n dir ih =>
      cases tree with
      | file content => simp [at?] at h
      | link target => simp [at?] at h
      | directory others =>
          rw [at?] at h
          rcases Option.bind_eq_some_iff.1 h with ⟨e, found, inner⟩
          rw [changeAt, at?, lookup_changeName, found]
          simpa using ih inner

/-! ## Growing trees -/

/-- A location is that of an entry of a directory. -/
def Inside (dir l : Location) : Prop :=
  ∃ n, l = dir ++ [n]

/-- What stays of an entry: its kind, and the bytes of a file that is not `inside`. -/
inductive Kept (inside : Prop) : Entry → Entry → Prop
  | file {content other : Content} (same : inside ∨ content = other) :
      Kept inside (.file content) (.file other)
  | directory (entries others : List (String × Entry)) :
      Kept inside (.directory entries) (.directory others)
  | link (target : String) : Kept inside (.link target) (.link target)

theorem Kept.refl {inside : Prop} (e : Entry) : Kept inside e e := by
  cases e with
  | file content => exact .file (.inr rfl)
  | directory entries => exact .directory entries entries
  | link target => exact .link target

theorem Kept.trans {inside : Prop} {a b c : Entry} (h : Kept inside a b) (k : Kept inside b c) :
    Kept inside a c := by
  cases h with
  | directory entries others =>
      cases k with
      | directory _ more => exact .directory entries more
  | link target => exact k
  | file same =>
      cases k with
      | file also =>
          rcases same with within | rfl
          · exact .file (.inl within)
          · exact .file also

theorem Kept.imp {inside within : Prop} {a b : Entry} (h : Kept inside a b)
    (imp : inside → within) : Kept within a b := by
  cases h with
  | file same => exact .file (same.imp_left imp)
  | directory entries others => exact .directory entries others
  | link target => exact .link target

/-- A tree that has everything of another one. Only the bytes of files at locations that are
`inside` may differ. -/
def Grows (inside : Location → Prop) (tree grown : Entry) : Prop :=
  ∀ l e, tree.at? l = some e → ∃ e', grown.at? l = some e' ∧ Kept (inside l) e e'

section Grows

variable {inside : Location → Prop} {tree grown : Entry} {l : Location}

theorem Grows.refl (inside : Location → Prop) (tree : Entry) : Grows inside tree tree := by
  intro l e found
  exact ⟨e, found, Kept.refl e⟩

theorem Grows.trans {a b c : Entry} (h : Grows inside a b) (k : Grows inside b c) :
    Grows inside a c := by
  intro l e found
  rcases h l e found with ⟨e', found', kept⟩
  rcases k l e' found' with ⟨e'', found'', keeps⟩
  exact ⟨e'', found'', kept.trans keeps⟩

end Grows

/-- A file may be written under a name that is free or stands for a file that can be read. -/
def IsSlot (entries : List (String × Entry)) (n : String) : Prop :=
  ∀ e, entries.lookup n = some e → ∃ bytes, e = .file (.ok bytes)

theorem grows_putName {entries : List (String × Entry)} {n : String} (slot : IsSlot entries n)
    (bytes : List UInt8) :
    Grows (Inside []) (.directory entries)
      (.directory (putName n (.file (.ok bytes)) entries)) := by
  intro l e found
  cases l with
  | nil =>
      obtain rfl : Entry.directory entries = e := by simpa [at?] using found
      exact ⟨_, rfl, .directory _ _⟩
  | cons m more =>
      rw [at?] at found
      rcases Option.bind_eq_some_iff.1 found with ⟨inner, hit, below⟩
      by_cases same : m = n
      · subst same
        rcases slot inner hit with ⟨old, rfl⟩
        -- nothing is below a file
        cases more with
        | cons k more => simp [at?] at below
        | nil =>
            obtain rfl : Entry.file (.ok old) = e := by simpa [at?] using below
            refine ⟨.file (.ok bytes), ?_, .file (.inl ⟨m, rfl⟩)⟩
            simp [at?, lookup_putName_self]
      · refine ⟨e, ?_, Kept.refl e⟩
        simpa [at?, lookup_putName_of_ne same, hit] using below

/-- A directory grows with one of its entries. -/
theorem Grows.changeName {inside within : Location → Prop} {entries : List (String × Entry)}
    {d : String} {f : Entry → Entry}
    (h : ∀ sub, entries.lookup d = some sub → Grows inside sub (f sub))
    (below : ∀ l, inside l → within (d :: l)) :
    Grows within (.directory entries) (.directory (changeName d f entries)) := by
  intro l e found
  cases l with
  | nil =>
      obtain rfl : Entry.directory entries = e := by simpa [at?] using found
      exact ⟨_, rfl, .directory _ _⟩
  | cons m more =>
      rw [at?] at found
      rcases Option.bind_eq_some_iff.1 found with ⟨inner, here, beyond⟩
      by_cases same : m = d
      · subst same
        rcases h inner here more e beyond with ⟨e', found', kept⟩
        refine ⟨e', ?_, kept.imp (below more)⟩
        simpa [at?, lookup_changeName, here] using found'
      · -- beside the entry nothing changes at all
        refine ⟨e, ?_, Kept.refl e⟩
        simpa [at?, lookup_changeName, same, here] using beyond

/-- A tree grows when a file is written into one of its directories. -/
theorem grows_changeAt {tree : Entry} {dir : Location} {entries : List (String × Entry)}
    {n : String}
    (h : tree.at? dir = some (.directory entries)) (slot : IsSlot entries n) (bytes : List UInt8) :
    Grows (Inside dir) tree (changeAt (putName n (.file (.ok bytes))) dir tree) := by
  induction dir generalizing tree with
  | nil =>
      obtain rfl : tree = .directory entries := by simpa [at?] using h
      exact grows_putName slot bytes
  | cons d dir ih =>
      cases tree with
      | file content => simp [at?] at h
      | link target => simp [at?] at h
      | directory others =>
          rw [at?] at h
          rcases Option.bind_eq_some_iff.1 h with ⟨sub, hit, below⟩
          apply Grows.changeName
          · intro other here
            obtain rfl : sub = other := Option.some.inj (hit.symm.trans here)
            exact ih below
          · rintro l ⟨k, rfl⟩
            exact ⟨k, rfl⟩

/-! ## Following components -/

theorem reach_append (top : Entry) (l : Location) (path more : List Component) :
    reach top l (path ++ more) =
      match reach top l path with
      | .found m => reach top m more
      | .missing => .missing
      | .link start target rest => .link start target (rest ++ more) := by
  fun_induction reach top l path with
  | case1 l => rfl
  | case2 l rest inside ih => simpa [reach, inside] using ih
  | case3 l rest outside => simp [reach, outside]
  | case4 l rest inside ih => simpa [reach, inside] using ih
  | case5 l rest outside => simp [reach, outside]
  | case6 l rest inside ih => simpa [reach, inside] using ih
  | case7 l rest outside => simp [reach, outside]
  | case8 l n rest none => simp [reach, none]
  | case9 l n rest target link => simp [reach, link]
  | case10 l n rest e other found ih =>
      rw [List.cons_append, reach, found]
      cases e with
      | link target => exact absurd rfl (other target)
      | file content => exact ih
      | directory entries => exact ih

theorem isDirectory_iff {e : Entry} :
    e.isDirectory = true ↔ ∃ entries, e = .directory entries := by
  cases e <;> simp [isDirectory]

/-- A last step that stays is possible in a directory only. -/
theorem follow?_here (top : Entry) (links : Nat) (l : Location) (path : List Component) :
    follow? top links l (path ++ [.here]) =
      (follow? top links l path).filter fun m => (top.at? m).any isDirectory := by
  induction links generalizing l path with
  | zero => rfl
  | succ links ih =>
      rw [follow?, follow?, reach_append]
      cases reach top l path with
      | missing => rfl
      | link start target rest =>
          simp only
          rw [← List.append_assoc]
          exact ih _ _
      | found m =>
          cases inside : (top.at? m).any isDirectory <;> simp [reach, inside, Option.filter]

/-- A name behind a path stands for what is in the directory that the path leads to. -/
theorem follow?_name {top : Entry} {links : Nat} {l m : Location} {path : List Component}
    {n : String} (h : follow? top links l path = some m)
    (plain : ∀ target, top.at? (m ++ [n]) ≠ some (.link target)) :
    follow? top links l (path ++ [.name n]) = (top.at? (m ++ [n])).map fun _ => m ++ [n] := by
  induction links generalizing l path with
  | zero => simp [follow?] at h
  | succ links ih =>
      rw [follow?] at h ⊢
      rw [reach_append]
      cases reached : reach top l path with
      | missing => simp [reached] at h
      | link start target rest =>
          simp only [reached] at h ⊢
          rw [← List.append_assoc]
          exact ih h
      | found m' =>
          obtain rfl : m' = m := by simpa [reached] using h
          -- the path ends in the directory, which holds no link under the name
          simp only [reach]
          cases here : top.at? (m' ++ [n]) with
          | none => rfl
          | some e =>
              cases e with
              | link target => exact absurd here (plain target)
              | file content => rfl
              | directory entries => rfl

/-- A path that leads somewhere leads through its front. -/
theorem follow?_front {top : Entry} {links : Nat} {l m : Location} {path more : List Component}
    (h : follow? top links l (path ++ more) = some m) :
    ∃ between, follow? top links l path = some between := by
  induction links generalizing l path with
  | zero => simp [follow?] at h
  | succ links ih =>
      rw [follow?, reach_append] at h
      rw [follow?]
      cases reached : reach top l path with
      | missing => simp [reached] at h
      | found between => exact ⟨between, rfl⟩
      | link start target rest =>
          simp only [reached, ← List.append_assoc] at h
          exact ih h

/-- Without links, names behind a path are names in the directory that it leads to. -/
theorem follow?_names {top : Entry} (plain : ∀ l target, top.at? l ≠ some (.link target))
    {links : Nat} {start : Location} (names : List String) :
    ∀ {path : List Component} {base l : Location}, follow? top links start path = some base →
      follow? top links start (path ++ names.map .name) = some l → l = base ++ names := by
  induction names with
  | nil =>
      intro path base l leads there
      rw [List.map_nil, List.append_nil, leads] at there
      rw [List.append_nil]
      exact (Option.some.inj there).symm
  | cons n names ih =>
      intro path base l leads there
      rw [List.map_cons, List.append_cons] at there
      rcases follow?_front there with ⟨m, front⟩
      have step := follow?_name leads (plain (base ++ [n]))
      rw [front] at step
      rcases Option.map_eq_some_iff.1 step.symm with ⟨e, -, rfl⟩
      rw [ih front there, ← List.append_cons]

/-! ## Paths in changed trees -/

/-- Another entry has an entry of the same kind wherever this one has an entry, apart from files
that are `lost`. -/
structure KeepsKinds (lost : Location → Prop) (top other : Entry) : Prop where
  files : ∀ l, lost l → ∃ content, top.at? l = some (.file content)
  rest : ∀ l e, ¬lost l → top.at? l = some e → ∃ e', other.at? l = some e' ∧ Kept True e e'

section Changed

variable {lost : Location → Prop} {top other : Entry}

theorem KeepsKinds.directory (h : KeepsKinds lost top other) {l : Location}
    (found : (top.at? l).any isDirectory = true) : (other.at? l).any isDirectory = true := by
  cases here : top.at? l with
  | none => simp [here] at found
  | some e =>
      have present : ¬lost l := by
        intro gone
        rcases h.files l gone with ⟨bytes, file⟩
        simp [file, isDirectory] at found
      rcases h.rest l e present here with ⟨e', there, kept⟩
      cases kept with
      | file same => simp [here, isDirectory] at found
      | directory entries others => simp [there, isDirectory]
      | link target => simp [here, isDirectory] at found

/-- From a file a path leads nowhere else. -/
theorem reach_of_file {location : Location} {content : Content}
    (file : top.at? location = some (.file content)) (path : List Component) :
    reach top location path = .found location ∨ reach top location path = .missing := by
  induction path with
  | nil => exact .inl rfl
  | cons c path ih =>
      -- every step is one in a directory
      cases c with
      | name n => simp [reach, at?_append, file, at?]
      | _ => simp [reach, file, isDirectory]

/-- A path that does not lead to a lost file takes the same steps in the other top. -/
theorem reach_of_keepsKinds (h : KeepsKinds lost top other) {l : Location}
    {path : List Component} (there : reach top l path ≠ .missing)
    (past : ∀ m, lost m → reach top l path ≠ .found m) :
    reach other l path = reach top l path := by
  -- every step is decided by an entry, whose kind is kept
  fun_induction reach top l path with
  | case1 l => rfl
  | case2 l rest inside ih => simpa [reach, h.directory inside] using ih there past
  | case3 l rest outside => exact absurd rfl there
  | case4 l rest inside ih => simpa [reach, h.directory inside] using ih there past
  | case5 l rest outside => exact absurd rfl there
  | case6 l rest inside ih => simpa [reach, h.directory inside] using ih there past
  | case7 l rest outside => exact absurd rfl there
  | case8 l n rest none => exact absurd rfl there
  | case9 l n rest target link =>
      have present : ¬lost (l ++ [n]) := by
        intro gone
        rcases h.files _ gone with ⟨content, file⟩
        simp [file] at link
      rcases h.rest _ _ present link with ⟨e', found, kept⟩
      cases kept with
      | link target => simp [reach, found]
  | case10 l n rest e no_link found ih =>
      -- through a lost file a path leads to that file only
      have present : ¬lost (l ++ [n]) := by
        intro gone
        rcases h.files _ gone with ⟨content, file⟩
        rcases reach_of_file file rest with ended | nowhere
        · exact past _ gone ended
        · exact there nowhere
      rcases h.rest _ _ present found with ⟨e', found', kept⟩
      have same := ih there past
      cases kept with
      | link target => exact absurd rfl (no_link target)
      | file equal => simpa [reach, found'] using same
      | directory entries others => simpa [reach, found'] using same

/-- A path that leads somewhere leads to the same location in the other top, through the same
links. -/
theorem follow?_of_keepsKinds (h : KeepsKinds lost top other) {links : Nat} {l m : Location}
    {path : List Component} (leads : follow? top links l path = some m) (present : ¬lost m) :
    follow? other links l path = some m := by
  induction links generalizing l path with
  | zero => simp [follow?] at leads
  | succ links ih =>
      have there : reach top l path ≠ .missing := by
        intro missing
        simp [follow?, missing] at leads
      have past : ∀ k, lost k → reach top l path ≠ .found k := by
        intro k gone ended
        rw [follow?, ended] at leads
        exact present (Option.some.inj leads ▸ gone)
      rw [follow?, reach_of_keepsKinds h there past]
      rw [follow?] at leads
      cases reached : reach top l path with
      | missing => exact absurd reached there
      | found m' => simpa [reached] using leads
      | link start target rest =>
          simp only [reached] at leads ⊢
          exact ih leads

end Changed

/-- A top keeps the kinds of its entries when a file goes from a directory. -/
theorem keepsKinds_removeName {top : Entry} {dir : Location} {entries : List (String × Entry)}
    {n : String} {content : Content} {f : List (String × Entry) → List (String × Entry)}
    (h : top.at? dir = some (.directory entries)) (file : entries.lookup n = some (.file content))
    (removes : f entries = removeName n entries) :
    KeepsKinds (· = dir ++ [n]) top (changeAt f dir top) := by
  refine ⟨?_, ?_⟩
  · rintro l rfl
    exact ⟨content, (at?_name h n).trans file⟩
  induction dir generalizing top with
  | nil =>
      obtain rfl : top = .directory entries := by simpa [at?] using h
      rintro (_ | ⟨m, more⟩) e apart found
      · obtain rfl : Entry.directory entries = e := by simpa [at?] using found
        exact ⟨_, rfl, .directory _ _⟩
      · rw [at?] at found
        rcases Option.bind_eq_some_iff.1 found with ⟨inner, hit, below⟩
        have differ : m ≠ n := by
          rintro rfl
          obtain rfl : Entry.file content = inner := Option.some.inj (file.symm.trans hit)
          -- nothing is below the file, so the location is its own
          cases more with
          | nil => exact apart rfl
          | cons k more => simp [at?] at below
        refine ⟨e, ?_, Kept.refl e⟩
        rw [changeAt, at?, removes, lookup_removeName, if_neg differ, hit]
        exact below
  | cons d dir ih =>
      cases top with
      | file old => simp [at?] at h
      | link target => simp [at?] at h
      | directory others =>
          rw [at?] at h
          rcases Option.bind_eq_some_iff.1 h with ⟨sub, hit, down⟩
          rintro (_ | ⟨m, more⟩) e apart found
          · obtain rfl : Entry.directory others = e := by simpa [at?] using found
            exact ⟨_, rfl, .directory _ _⟩
          · rw [at?] at found
            rcases Option.bind_eq_some_iff.1 found with ⟨inner, here, below⟩
            rw [changeAt, at?, lookup_changeName, here, Option.map_some, Option.bind_some]
            by_cases same : m = d
            · subst same
              obtain rfl : sub = inner := Option.some.inj (hit.symm.trans here)
              rw [if_pos rfl]
              exact ih down more e (fun whole => apart (congrArg (m :: ·) whole)) below
            · rw [if_neg same]
              exact ⟨e, below, Kept.refl e⟩

theorem Grows.keepsKinds {inside : Location → Prop} {top grown : Entry}
    (h : Grows inside top grown) : KeepsKinds (fun _ => False) top grown := by
  refine ⟨fun _ gone => gone.elim, ?_⟩
  intro l e _ found
  rcases h l e found with ⟨e', there, kept⟩
  exact ⟨e', there, kept.imp fun _ => trivial⟩

end Entry

open Entry

namespace FileTree

/-! ## Paths in a tree -/

section Paths

variable {tree : FileTree} {path : String} {l : Location}

theorem find?_eq_some_iff {e : Entry} :
    tree.find? path = some e ↔ ∃ l, tree.locate? path = some l ∧ tree.at? l = some e :=
  Option.bind_eq_some_iff

/-- A path leads to a directory. -/
theorem isDirectory_find?_iff :
    (tree.find? path).any isDirectory = true ↔
      ∃ l entries, tree.locate? path = some l ∧ tree.at? l = some (.directory entries) := by
  rw [Option.any_eq_true]
  constructor
  · rintro ⟨e, found, dir⟩
    rcases isDirectory_iff.1 dir with ⟨entries, rfl⟩
    rcases find?_eq_some_iff.1 found with ⟨l, located, here⟩
    exact ⟨l, entries, located, here⟩
  · rintro ⟨l, entries, located, here⟩
    exact ⟨_, find?_eq_some_iff.2 ⟨l, located, here⟩, rfl⟩

theorem bytes?_eq_some_iff {bytes : List UInt8} :
    tree.bytes? path = some bytes ↔ tree.find? path = some (.file (.ok bytes)) := by
  rw [bytes?]
  rcases tree.find? path with _ | ((reason | read) | entries | target) <;> simp

theorem ne_empty_of_locate? (located : tree.locate? path = some l) : path ≠ "" := by
  rintro rfl
  simp [locate?] at located

theorem locate?_eq (filled : path ≠ "") :
    tree.locate? path = follow? tree.top linkLimit (tree.start path) (steps path) :=
  if_neg (by simpa using filled)

/-- Where a path leads, its components lead. -/
theorem follow?_of_locate? (located : tree.locate? path = some l) :
    follow? tree.top linkLimit (tree.start path) (components path) = some l := by
  rw [locate?_eq (ne_empty_of_locate? located), steps] at located
  split at located
  · rw [follow?_here, Option.filter_eq_some_iff] at located
    exact located.1
  · exact located

/-- Where the components of a path lead to a directory, the path leads there. -/
theorem locate?_of_follow? (filled : path ≠ "")
    (leads : follow? tree.top linkLimit (tree.start path) (components path) = some l)
    (inside : (tree.at? l).any isDirectory = true) : tree.locate? path = some l := by
  rw [locate?_eq filled, steps]
  split
  · rw [follow?_here, Option.filter_eq_some_iff]
    exact ⟨leads, inside⟩
  · exact leads

theorem join_ne_empty {n : String} (filled : path ≠ "") (name : IsName n) :
    Path.join path n ≠ "" := by
  intro empty
  have parts := Path.components_join filled name
  rw [empty] at parts
  have none : components "" = [] := rfl
  simp [none] at parts

/-- A path that goes on by a name takes one step more. -/
theorem steps_join {n : String} (filled : path ≠ "") (name : IsName n) :
    steps (Path.join path n) = components path ++ [.name n] := by
  -- a name is neither empty nor a dot, so nothing stays behind it
  have last : endsInside (Path.join path n) = false := by
    have empty : n.toList ≠ [] := fun same => name.1 (String.toList_inj.1 same)
    have dot : n.toList ≠ ['.'] := fun same => name.2.2.1 (String.toList_inj.1 same)
    simp [endsInside, Path.getLast?_splitSlash_join filled name, empty, dot]
  rw [steps, last, if_neg Bool.false_ne_true, Path.components_join filled name]

theorem start_join {n : String} (name : IsName n) :
    tree.start (Path.join path n) = tree.start path := by
  rw [start, start, origin, origin, Path.isAbsolute_join name.relative]

/-- Where a path leads that goes on by a name, its steps lead. -/
theorem locate?_join_eq {n : String} (filled : path ≠ "") (name : IsName n) :
    tree.locate? (Path.join path n) =
      follow? tree.top linkLimit (tree.start path) (components path ++ [.name n]) := by
  rw [locate?_eq (join_ne_empty filled name), steps_join filled name, start_join name]

/-- A name that is no link leads to the entry of the directory. -/
theorem locate?_join {n : String} (located : tree.locate? path = some l) (name : IsName n)
    (plain : ∀ target, tree.at? (l ++ [n]) ≠ some (.link target)) :
    tree.locate? (Path.join path n) = (tree.at? (l ++ [n])).map fun _ => l ++ [n] := by
  rw [locate?_join_eq (ne_empty_of_locate? located) name]
  exact follow?_name (follow?_of_locate? located) plain

end Paths

/-! ## Paths in a tree that was changed -/

section Changed

variable {lost : Location → Prop} {tree : FileTree} {other : Entry}

theorem locate?_of_keepsKinds (h : KeepsKinds lost tree.top other) {path : String} {l : Location}
    (located : tree.locate? path = some l) (present : ¬lost l) :
    locate? { tree with top := other } path = some l := by
  have filled := ne_empty_of_locate? located
  rw [locate?_eq filled] at located ⊢
  exact follow?_of_keepsKinds h located present

end Changed

/-- A tree has everything of the tree that it grew from, seen from the same directory. -/
structure Grows (inside : Location → Prop) (tree grown : FileTree) : Prop where
  working : grown.working = tree.working
  top : Entry.Grows inside tree.top grown.top

section Growing

variable {inside : Location → Prop} {tree grown : FileTree}

theorem Grows.refl (inside : Location → Prop) (tree : FileTree) : Grows inside tree tree :=
  ⟨rfl, Entry.Grows.refl inside tree.top⟩

theorem Grows.trans {a b c : FileTree} (h : Grows inside a b) (k : Grows inside b c) :
    Grows inside a c :=
  ⟨k.working.trans h.working, h.top.trans k.top⟩

theorem Grows.of_top {top : Entry} (h : Entry.Grows inside tree.top top) :
    Grows inside tree { tree with top := top } :=
  ⟨rfl, h⟩

theorem locate?_of_grows (h : Grows inside tree grown)
    {path : String} {l : Location} (located : tree.locate? path = some l) :
    grown.locate? path = some l := by
  rcases grown with ⟨top, working⟩
  rcases h with ⟨rfl, grows⟩
  exact locate?_of_keepsKinds grows.keepsKinds located id

/-- What a path leads to has the same bytes, unless it is inside. -/
theorem find?_of_grows (h : Grows inside tree grown) {path : String} {l : Location}
    {content : Content} (located : tree.locate? path = some l)
    (here : tree.at? l = some (.file content)) (outside : ¬inside l) :
    grown.find? path = tree.find? path := by
  rcases h.top l _ here with ⟨e', there, kept⟩
  have file : tree.find? path = some (.file content) :=
    find?_eq_some_iff.2 ⟨l, located, here⟩
  rw [file, find?_eq_some_iff]
  refine ⟨l, locate?_of_grows h located, ?_⟩
  cases kept with
  | file same =>
      rcases same with within | rfl
      · exact absurd within outside
      · exact there

end Growing

end FileTree
end Project
end ClientBoundary
