import ClientBoundary.Proofs.Project.EntryStore
import Mathlib.Logic.Function.Basic

/-!
# Histories of a cache directory

A cache directory is a map from entry names to bytes. Reading, storing and overwriting entries in
any order does to the files what it does to the map, so what an entry answers is told by the last
time it was written.

- `Event`, `Event.run`, `runAll`: what happens to a cache directory, one thing after the other;
- `Holds`: the entries of a directory are those of a map;
- `Event.effect`, `Holds.run`, `Holds.runAll`: one step, and a whole history, on the map;
- `LastStored`, `effectAll_of_lastStored`: the bytes of the last findings that were stored;
- `Holds.get`: reading an entry;
- `Serves`, `runAll_serves`: what is read after any history, and what reading changes.
-/

namespace ClientBoundary
namespace Project
namespace Cache

open Entry
open ClientBoundary.Path (Component components)
open Rules (Finding)

/-! ## Events -/

/-- The file of the entry of a path in the directory of a cache. -/
def entryFile (directory path : String) : String :=
  Path.join directory (entryName path)

/-- What happens to the directory of a cache. Several caches may share it, each with a fingerprint
of its own. -/
inductive Event where
  | opens (fingerprint : String)
  | gets (fingerprint path source : String)
  | sets (fingerprint path source : String) (findings : List Finding)
  /-- Something else writes the entry of a path. -/
  | replaces (path : String) (bytes : List UInt8)

namespace Event

def run (directory : String) (tree : FileTree) : Event → FileTree
  | .opens fingerprint => openIn tree ⟨directory, fingerprint⟩
  | .gets fingerprint path source => (Cache.get ⟨directory, fingerprint⟩ tree path source).1
  | .sets fingerprint path source findings =>
      Cache.set ⟨directory, fingerprint⟩ tree path source findings
  | .replaces path bytes => tree.write (entryFile directory path) bytes

/-- The name of the entry that an event is about. -/
def about? : Event → Option String
  | .opens _ => none
  | .gets _ path _ => some (entryName path)
  | .sets _ path _ _ => some (entryName path)
  | .replaces path _ => some (entryName path)

/-- The name of the entry that an event writes. -/
def written? : Event → Option String
  | .opens _ => none
  | .gets _ _ _ => none
  | .sets _ path _ _ => some (entryName path)
  | .replaces path _ => some (entryName path)

end Event

/-- The tree after a history. -/
def runAll (directory : String) (tree : FileTree) (events : List Event) : FileTree :=
  events.foldl (Event.run directory) tree

/-! ## Bytes of entries -/

/-- The bytes of a text that is no entry. -/
def Corrupt (bytes : List UInt8) : Prop :=
  ∃ text, textOf? bytes = some text ∧ CacheEntry.parse? text = none

instance (bytes : List UInt8) : Decidable (Corrupt bytes) :=
  decidable_of_iff ((textOf? bytes).any fun text => (CacheEntry.parse? text).isNone) <| by
    simp [Corrupt, Option.any_eq_true]

/-- The bytes that are stored for findings on a source. -/
def storedBytes (fingerprint source : String) (findings : List Finding) : List UInt8 :=
  Text.utf8Bytes (CacheEntry.mk (digest source fingerprint) findings).render

theorem set_eq_write (directory fingerprint : String) (tree : FileTree) (path source : String)
    (findings : List Finding) : Cache.set ⟨directory, fingerprint⟩ tree path source findings =
      tree.write (entryFile directory path) (storedBytes fingerprint source findings) := rfl

/-- The findings in the bytes of an entry, if they hold for the source. -/
def findingsIn? (fingerprint source : String) (bytes : List UInt8) : Option (List Finding) :=
  ((textOf? bytes).bind CacheEntry.parse?).bind fun e =>
    if e.digest = digest source fingerprint then some e.findings else none

theorem findingsIn?_eq_some {fingerprint source : String} {bytes : List UInt8}
    {findings : List Finding} : findingsIn? fingerprint source bytes = some findings ↔
      ∃ text e, textOf? bytes = some text ∧ CacheEntry.parse? text = some e ∧
        e.digest = digest source fingerprint ∧ e.findings = findings := by
  simp only [findingsIn?, Option.bind_eq_some_iff, Option.ite_none_right_eq_some, Option.some.injEq]
  constructor
  · rintro ⟨e, ⟨text, read, parsed⟩, same, rfl⟩
    exact ⟨text, e, read, parsed, same, rfl⟩
  · rintro ⟨text, e, read, parsed, same, rfl⟩
    exact ⟨e, ⟨text, read, parsed⟩, same, rfl⟩

/-- Stored findings are read back as they were, whoever reads them. -/
theorem findingsIn?_storedBytes {findings : List Finding} (fits : ∀ f ∈ findings, f.Fits)
    (stored_for read_for stored_source source : String) :
    findingsIn? read_for source (storedBytes stored_for stored_source findings) =
      if digest stored_source stored_for = digest source read_for then some findings else none := by
  have parsed : CacheEntry.parse?
      (CacheEntry.mk (digest stored_source stored_for) findings).render = some ⟨_, findings⟩ :=
    CacheEntry.parse?_render fits
  rw [findingsIn?, storedBytes, textOf?_utf8Bytes, Option.bind_some, parsed, Option.bind_some]

theorem not_corrupt_storedBytes {findings : List Finding} (fits : ∀ f ∈ findings, f.Fits)
    (fingerprint source : String) : ¬Corrupt (storedBytes fingerprint source findings) := by
  rintro ⟨text, read, unparsed⟩
  rw [storedBytes, textOf?_utf8Bytes] at read
  rcases Option.some.inj read with rfl
  rw [CacheEntry.parse?_render fits] at unparsed
  cases unparsed

/-! ## The directory as a map -/

/-- The bytes of the entries by their names. -/
abbrev Contents := String → Option (List UInt8)

/-- The directory of a cache is there, and what stands in it under the names of entries are files
with the given contents. -/
def Holds (directory : String) (tree : FileTree) (contents : Contents) : Prop :=
  ∃ dir entries, Opened ⟨directory, ""⟩ tree dir entries ∧
    ∀ path, entries.lookup (entryName path) =
      (contents (entryName path)).map fun bytes => .file (.ok bytes)

section Holds

variable {directory : String} {tree : FileTree} {contents : Contents}

/-- Any fingerprint opens the same directory. -/
theorem Opened.fingerprint {dir : Location} {entries : List (String × Entry)}
    (h : Opened ⟨directory, ""⟩ tree dir entries) (fingerprint : String) :
    Opened ⟨directory, fingerprint⟩ tree dir entries :=
  ⟨h.located, h.here⟩

theorem isSlot_of_lookup {entries : List (String × Entry)} {name : String}
    {bytes? : Option (List UInt8)}
    (h : entries.lookup name = bytes?.map fun bytes => .file (.ok bytes)) :
    IsSlot entries name := by
  intro e found
  rw [h] at found
  rcases Option.map_eq_some_iff.1 found with ⟨bytes, -, rfl⟩
  exact ⟨bytes, rfl⟩

theorem Holds.find? (h : Holds directory tree contents) (path : String) :
    tree.find? (entryFile directory path) =
      (contents (entryName path)).map fun bytes => .file (.ok bytes) := by
  rcases h with ⟨dir, entries, opened, held⟩
  exact (find?_entryPath opened (isSlot_of_lookup (held path))).trans (held path)

theorem Holds.bytes? (h : Holds directory tree contents) (path : String) :
    tree.bytes? (entryFile directory path) = contents (entryName path) := by
  rw [FileTree.bytes?, h.find? path]
  cases contents (entryName path) <;> rfl

/-- Writing an entry puts its bytes into the map. -/
theorem Holds.write (h : Holds directory tree contents) (path : String) (bytes : List UInt8) :
    Holds directory (tree.write (entryFile directory path) bytes)
      (Function.update contents (entryName path) (some bytes)) := by
  rcases h with ⟨dir, entries, opened, held⟩
  refine ⟨dir, _, opened_write opened (isSlot_of_lookup (held path)) bytes, ?_⟩
  intro other
  by_cases same : entryName other = entryName path
  · rw [same, lookup_putName_self, Function.update_self, Option.map_some]
  · rw [lookup_putName_of_ne same, Function.update_of_ne same, held]

/-- Removing an entry takes its name from the map. -/
theorem Holds.remove (h : Holds directory tree contents) {path : String} {bytes : List UInt8}
    (found : contents (entryName path) = some bytes) :
    Holds directory (tree.remove (entryFile directory path))
      (Function.update contents (entryName path) none) := by
  rcases h with ⟨dir, entries, opened, held⟩
  have file : entries.lookup (entryName path) = some (.file (.ok bytes)) := by
    rw [held, found, Option.map_some]
  refine ⟨dir, _, opened_remove opened file, ?_⟩
  intro other
  rw [lookup_removeName]
  by_cases same : entryName other = entryName path
  · rw [if_pos same, same, Function.update_self, Option.map_none]
  · rw [if_neg same, Function.update_of_ne same, held]

/-- A cache reads the findings in the bytes of the entry, and removes it only if they are those of a
text that is no entry. -/
theorem Holds.get (h : Holds directory tree contents) (fingerprint path source : String) :
    Cache.get ⟨directory, fingerprint⟩ tree path source =
      (if (contents (entryName path)).any (Corrupt ·) then tree.remove (entryFile directory path)
        else tree,
        (contents (entryName path)).bind (findingsIn? fingerprint source)) := by
  have bytes : tree.bytes? (entryPath ⟨directory, fingerprint⟩ path) = contents (entryName path) :=
    h.bytes? path
  unfold Cache.get
  rw [bytes]
  cases contents (entryName path) with
  | none => rfl
  | some held =>
      simp only [Option.bind_some, Option.any_some]
      cases read : textOf? held with
      | none => simp [findingsIn?, Corrupt, read]
      | some text =>
          cases parsed : CacheEntry.parse? text with
          | none => simp [findingsIn?, Corrupt, read, parsed, entryPath, entryFile]
          | some e => simp [findingsIn?, Corrupt, read, parsed]

/-! ## Steps and runs -/

/-- What an event does to the map. -/
def Event.effect (contents : Contents) : Event → Contents
  | .opens _ => contents
  | .gets _ path _ =>
      if (contents (entryName path)).any (Corrupt ·) then
        Function.update contents (entryName path) none
      else contents
  | .sets fingerprint path source findings =>
      Function.update contents (entryName path) (some (storedBytes fingerprint source findings))
  | .replaces path bytes => Function.update contents (entryName path) (some bytes)

/-- The map after a history. -/
def effectAll (contents : Contents) (events : List Event) : Contents :=
  events.foldl Event.effect contents

/-- An event does to the directory what it does to the map. -/
theorem Holds.run (h : Holds directory tree contents) (event : Event) :
    Holds directory (event.run directory tree) (event.effect contents) := by
  cases event with
  | opens fingerprint =>
      -- the directory is there, so that opening it makes nothing
      rcases h with ⟨dir, entries, opened, held⟩
      rw [Event.run, openIn, opened.find?]
      exact ⟨dir, entries, opened, held⟩
  | gets fingerprint path source =>
      rw [Event.run, Event.effect, h.get]
      cases found : contents (entryName path) with
      | none => exact h
      | some bytes =>
          rw [Option.any_some]
          by_cases corrupt : Corrupt bytes
          · simpa [corrupt] using h.remove found
          · simpa [corrupt] using h
  | sets fingerprint path source findings =>
      rw [Event.run, Event.effect, set_eq_write]
      exact h.write path _
  | replaces path bytes => exact h.write path bytes

/-- A history does to the directory what it does to the map. -/
theorem Holds.runAll (h : Holds directory tree contents) (events : List Event) :
    Holds directory (runAll directory tree events) (effectAll contents events) := by
  induction events generalizing tree contents with
  | nil => exact h
  | cons event events ih => exact ih (h.run event)

/-! ## What a history leaves -/

/-- An event leaves all entries but its own. -/
theorem effect_of_ne {event : Event} {name : String} (apart : event.about? ≠ some name) :
    event.effect contents name = contents name := by
  cases event with
  | opens fingerprint => rfl
  | gets fingerprint path source =>
      have other : name ≠ entryName path := fun same => apart (congrArg some same.symm)
      rw [Event.effect]
      split
      · exact Function.update_of_ne other _ _
      · rfl
  | sets fingerprint path source findings =>
      exact Function.update_of_ne (fun same => apart (congrArg some same.symm)) _ _
  | replaces path bytes =>
      exact Function.update_of_ne (fun same => apart (congrArg some same.symm)) _ _

/-- An entry that can be read stays until it is written. -/
theorem effect_of_not_written {event : Event} {name : String} {bytes : List UInt8}
    (held : contents name = some bytes) (sound : ¬Corrupt bytes)
    (other : event.written? ≠ some name) : event.effect contents name = some bytes := by
  cases event with
  | gets fingerprint path source =>
      by_cases same : name = entryName path
      · subst same
        simp [Event.effect, held, sound]
      · have apart : (Event.gets fingerprint path source).about? ≠ some name :=
          fun found => same (Option.some.inj found).symm
        exact (effect_of_ne apart).trans held
  | opens fingerprint => exact held
  | sets fingerprint path source findings =>
      have apart : (Event.sets fingerprint path source findings).about? ≠ some name := other
      exact (effect_of_ne apart).trans held
  | replaces path bytes =>
      have apart : (Event.replaces path bytes).about? ≠ some name := other
      exact (effect_of_ne apart).trans held

theorem effectAll_of_not_written {name : String} {bytes : List UInt8} {events : List Event}
    (held : contents name = some bytes) (sound : ¬Corrupt bytes)
    (others : ∀ event ∈ events, event.written? ≠ some name) :
    effectAll contents events name = some bytes := by
  induction events generalizing contents with
  | nil => exact held
  | cons event events ih =>
      have step := effect_of_not_written held sound (others event List.mem_cons_self)
      exact ih step fun later mem => others later (List.mem_cons_of_mem _ mem)

/-- The last event that wrote an entry stored the findings on a source. -/
def LastStored (events : List Event) (name fingerprint source : String)
    (findings : List Finding) : Prop :=
  ∃ before path later, events = before ++ .sets fingerprint path source findings :: later ∧
    entryName path = name ∧ ∀ event ∈ later, event.written? ≠ some name

theorem effectAll_of_lastStored {events : List Event} {name fingerprint source : String}
    {findings : List Finding} (stored : LastStored events name fingerprint source findings)
    (fits : ∀ f ∈ findings, f.Fits) :
    effectAll contents events name = some (storedBytes fingerprint source findings) := by
  rcases stored with ⟨before, path, later, rfl, rfl, last⟩
  rw [effectAll, List.foldl_append, List.foldl_cons]
  exact effectAll_of_not_written (Function.update_self ..)
    (not_corrupt_storedBytes fits fingerprint source) last

/-! ## What caches serve -/

/-- What is read of the last findings that were stored. -/
theorem Holds.get_of_lastStored (h : Holds directory tree contents) {events : List Event}
    {path stored_for stored_source : String} {findings : List Finding}
    (stored : LastStored events (entryName path) stored_for stored_source findings)
    (fits : ∀ f ∈ findings, f.Fits) (fingerprint source : String) :
    (Cache.get ⟨directory, fingerprint⟩ (Cache.runAll directory tree events) path source).2 =
      if digest stored_source stored_for = digest source fingerprint then some findings
      else none := by
  rw [(h.runAll events).get, effectAll_of_lastStored stored fits, Option.bind_some,
    findingsIn?_storedBytes fits]

/-- Where different bytes have different digests, the digests can be told from the bytes. -/
theorem digest_eq_iff {source fingerprint other_source other_fingerprint : String}
    (apart : digest source fingerprint = digest other_source other_fingerprint →
      hashedBytes source fingerprint = hashedBytes other_source other_fingerprint) :
    digest source fingerprint = digest other_source other_fingerprint ↔
      hashedBytes source fingerprint = hashedBytes other_source other_fingerprint :=
  ⟨apart, congrArg Digest.sha256Hex⟩

/-- A cache has findings to serve exactly if they are in the entry that the file holds. -/
theorem Holds.get_eq_some_iff (h : Holds directory tree contents) {fingerprint path source : String}
    {findings : List Finding} :
    (Cache.get ⟨directory, fingerprint⟩ tree path source).2 = some findings ↔
      ∃ bytes text e, tree.bytes? (entryFile directory path) = some bytes ∧
        textOf? bytes = some text ∧ CacheEntry.parse? text = some e ∧
        e.digest = digest source fingerprint ∧ e.findings = findings := by
  rw [h.get, h.bytes?, Option.bind_eq_some_iff]
  simp only [findingsIn?_eq_some, exists_and_left]

/-- The file of an entry goes with reading it exactly if it holds a text that is no entry. -/
theorem Holds.get_removes_iff (h : Holds directory tree contents)
    {fingerprint path source : String} :
    (tree.find? (entryFile directory path)).isSome = true ∧
        (Cache.get ⟨directory, fingerprint⟩ tree path source).1.find? (entryFile directory path) =
          none ↔
      ∃ bytes, tree.bytes? (entryFile directory path) = some bytes ∧ Corrupt bytes := by
  have after := (h.run (.gets fingerprint path source)).find? path
  rw [Event.run, Event.effect] at after
  rw [after, h.find?, h.bytes?]
  cases found : contents (entryName path) with
  | none => simp
  | some bytes =>
      by_cases corrupt : Corrupt bytes
      · simp [corrupt]
      · simp [corrupt, found]

/-- If it does not, reading changes nothing. -/
theorem Holds.get_keeps (h : Holds directory tree contents) {fingerprint path source : String}
    (sound : ¬∃ bytes, tree.bytes? (entryFile directory path) = some bytes ∧ Corrupt bytes) :
    (Cache.get ⟨directory, fingerprint⟩ tree path source).1 = tree := by
  rw [h.get, if_neg]
  intro corrupt
  rcases (Option.any_eq_true _ _).1 corrupt with ⟨bytes, found, corrupt⟩
  exact sound ⟨bytes, (h.bytes? path).trans found, of_decide_eq_true corrupt⟩

/-- An event about another entry leaves the file of an entry as it is. -/
theorem Holds.find?_run (h : Holds directory tree contents) {event : Event} {path : String}
    (apart : event.about? ≠ some (entryName path)) :
    (event.run directory tree).find? (entryFile directory path) =
      tree.find? (entryFile directory path) := by
  rw [(h.run event).find?, h.find?, effect_of_ne apart]

/-- What the caches in a directory serve after a history that left a tree. -/
structure Serves (directory : String) (events : List Event) (tree : FileTree) : Prop where
  /-- What is served is what the entry holds for the source and the fingerprint. -/
  held : ∀ fingerprint path source findings,
    (Cache.get ⟨directory, fingerprint⟩ tree path source).2 = some findings ↔
      ∃ bytes text e, tree.bytes? (entryFile directory path) = some bytes ∧
        textOf? bytes = some text ∧ CacheEntry.parse? text = some e ∧
        e.digest = digest source fingerprint ∧ e.findings = findings
  /-- The last findings that were stored are served for the bytes that they were stored for, if no
  others have the digest of those. -/
  stored : ∀ path stored_for stored_source findings,
    LastStored events (entryName path) stored_for stored_source findings →
    (∀ f ∈ findings, f.Fits) → ∀ fingerprint source,
    (digest stored_source stored_for = digest source fingerprint →
      hashedBytes stored_source stored_for = hashedBytes source fingerprint) →
    (Cache.get ⟨directory, fingerprint⟩ tree path source).2 =
      if hashedBytes stored_source stored_for = hashedBytes source fingerprint then some findings
      else none
  /-- Those bytes are told by the source and the fingerprint, unless there is a zero in a
  fingerprint. -/
  stored_plain : ∀ path stored_for stored_source findings,
    LastStored events (entryName path) stored_for stored_source findings →
    (∀ f ∈ findings, f.Fits) → ∀ fingerprint source,
    (digest stored_source stored_for = digest source fingerprint →
      hashedBytes stored_source stored_for = hashedBytes source fingerprint) →
    '\x00' ∉ stored_for.toList → '\x00' ∉ fingerprint.toList →
    (Cache.get ⟨directory, fingerprint⟩ tree path source).2 =
      if stored_source = source ∧ stored_for = fingerprint then some findings else none
  /-- Reading takes the file of an entry away exactly if it holds a text that is no entry. -/
  removed : ∀ fingerprint path source,
    ((tree.find? (entryFile directory path)).isSome = true ∧
        (Cache.get ⟨directory, fingerprint⟩ tree path source).1.find? (entryFile directory path) =
          none) ↔
      ∃ bytes, tree.bytes? (entryFile directory path) = some bytes ∧ Corrupt bytes
  /-- Otherwise it changes nothing. -/
  kept : ∀ fingerprint path source,
    (¬∃ bytes, tree.bytes? (entryFile directory path) = some bytes ∧ Corrupt bytes) →
    (Cache.get ⟨directory, fingerprint⟩ tree path source).1 = tree
  /-- Nothing touches the file of an entry with another name. -/
  apart : ∀ event path, Event.about? event ≠ some (entryName path) →
    (event.run directory tree).find? (entryFile directory path) =
      tree.find? (entryFile directory path)

/-- After any history the caches in a directory serve what the entries hold. -/
theorem runAll_serves (start : Holds directory tree contents) (events : List Event) :
    Serves directory events (runAll directory tree events) := by
  have holds := start.runAll events
  have stored : ∀ {path stored_for stored_source findings},
      LastStored events (entryName path) stored_for stored_source findings →
      (∀ f ∈ findings, f.Fits) → ∀ {fingerprint source},
      (digest stored_source stored_for = digest source fingerprint →
        hashedBytes stored_source stored_for = hashedBytes source fingerprint) →
      (Cache.get ⟨directory, fingerprint⟩ (Cache.runAll directory tree events) path source).2 =
        if hashedBytes stored_source stored_for = hashedBytes source fingerprint then some findings
        else none := by
    intro path stored_for stored_source findings last fits fingerprint source unique
    have served := start.get_of_lastStored last fits fingerprint source
    simpa only [digest_eq_iff unique] using served
  exact
    { held := fun _ _ _ _ => holds.get_eq_some_iff
      stored := fun _ _ _ _ last fits _ _ unique => stored last fits unique
      stored_plain := by
        intro path stored_for stored_source findings last fits fingerprint source unique
          front_plain plain
        simpa only [hashedBytes_eq_iff front_plain plain] using stored last fits unique
      removed := fun _ _ _ => holds.get_removes_iff
      kept := fun _ _ _ => holds.get_keeps
      apart := fun _ _ => holds.find?_run }

end Holds

/-! ## One directory -/

/-- A project that has an empty cache directory. -/
def emptyCache : FileTree := ⟨.directory [("c", .directory [])], []⟩

def windowFinding : Finding :=
  ⟨"browser-api", "m", ["window"], "src/a.tsx", ⟨1, 1⟩, some (Rules.insertUseClient 0)⟩

theorem fits_windowFinding : ∀ f ∈ [windowFinding], f.Fits := by
  intro f mem
  rw [List.mem_singleton.1 mem]
  refine ⟨by decide, by decide, ?_⟩
  rintro i ⟨⟩
  decide

theorem holds_emptyCache : Holds "c" emptyCache fun _ => none := by
  have located : emptyCache.locate? "c" = some ["c"] := by decide +kernel
  exact ⟨["c"], [], ⟨located, rfl⟩, fun _ => rfl⟩

/-- An entry that is none is read, then findings are stored, and read under another fingerprint. -/
def mended : List Event :=
  [.replaces "a" (Text.utf8Bytes "no"), .gets "cfg" "a" "x", .sets "cfg" "a" "x" [windowFinding],
    .gets "new" "a" "x"]

theorem lastStored_mended : LastStored mended (entryName "a") "cfg" "x" [windowFinding] := by
  refine ⟨[.replaces "a" (Text.utf8Bytes "no"), .gets "cfg" "a" "x"], "a", [.gets "new" "a" "x"],
    rfl, rfl, ?_⟩
  intro event mem
  rw [List.mem_singleton.1 mem]
  exact nofun

/-- What is no entry goes when it is read. Findings that are stored then are served for their source
under their fingerprint, and a file with another name stays. -/
theorem runAll_serves_windowFinding :
    Holds "c" emptyCache (fun _ => none) ∧
      (Cache.get ⟨"c", "cfg"⟩ (runAll "c" emptyCache [.replaces "a" (Text.utf8Bytes "no")])
        "a" "x").1.find? (entryFile "c" "a") = none ∧
      (Cache.get ⟨"c", "cfg"⟩ (runAll "c" emptyCache mended) "a" "x").2 = some [windowFinding] ∧
      (Cache.get ⟨"c", "new"⟩ (runAll "c" emptyCache mended) "a" "x").2 = none ∧
      (Cache.get ⟨"c", "cfg"⟩ (runAll "c" emptyCache mended) "a" "y").1 =
        runAll "c" emptyCache mended ∧
      (Event.run "c" (runAll "c" emptyCache mended) (.sets "cfg" "b" "x" [])).find?
        (entryFile "c" "a") = (runAll "c" emptyCache mended).find? (entryFile "c" "a") := by
  have broken := runAll_serves holds_emptyCache [.replaces "a" (Text.utf8Bytes "no")]
  have serves := runAll_serves holds_emptyCache mended
  have hit := serves.stored "a" _ _ _ lastStored_mended fits_windowFinding "cfg" "x" fun _ => rfl
  have apart : digest "x" "cfg" ≠ digest "x" "new" := by decide +kernel
  have missed := serves.stored_plain "a" _ _ _ lastStored_mended fits_windowFinding "new" "x"
    (fun same => absurd same apart) (by decide) (by decide)
  refine ⟨holds_emptyCache, ?_, ?_, ?_, ?_, ?_⟩
  · have wrote := (holds_emptyCache.write "a" (Text.utf8Bytes "no")).bytes? "a"
    rw [Function.update_self] at wrote
    have corrupt : Corrupt (Text.utf8Bytes "no") := ⟨"no", textOf?_utf8Bytes _, by decide +kernel⟩
    exact ((broken.removed "cfg" "a" "x").2 ⟨_, wrote, corrupt⟩).2
  · rw [hit, if_pos rfl]
  · rw [missed, if_neg (by decide)]
  · refine serves.kept "cfg" "a" "y" ?_
    rintro ⟨bytes, found, corrupt⟩
    have holds := holds_emptyCache.runAll mended
    rw [holds.bytes?, effectAll_of_lastStored lastStored_mended fits_windowFinding] at found
    rcases Option.some.inj found with rfl
    exact not_corrupt_storedBytes fits_windowFinding _ _ corrupt
  · exact serves.apart (.sets "cfg" "b" "x" []) "a" (by decide)

/-- With a zero in it a fingerprint can take the place of another one with a part of the source:
findings are served that were stored for another source. -/
theorem get_of_zero_in_fingerprint :
    LastStored [.sets "a" "x.tsx" "b\x00c" [windowFinding]] (entryName "x.tsx") "a" "b\x00c"
        [windowFinding] ∧
      (Cache.get ⟨"c", "a\x00b"⟩ (runAll "c" emptyCache
        [.sets "a" "x.tsx" "b\x00c" [windowFinding]]) "x.tsx" "c").2 = some [windowFinding] ∧
      ¬("b\x00c" = "c" ∧ "a" = "a\x00b") := by
  have last : LastStored [.sets "a" "x.tsx" "b\x00c" [windowFinding]] (entryName "x.tsx") "a"
      "b\x00c" [windowFinding] := ⟨[], "x.tsx", [], rfl, rfl, by simp⟩
  have same : hashedBytes "b\x00c" "a" = hashedBytes "c" "a\x00b" := by decide
  refine ⟨last, ?_, by decide⟩
  rw [holds_emptyCache.get_of_lastStored last fits_windowFinding, digest, digest, same, if_pos rfl]

end Cache
end Project
end ClientBoundary
