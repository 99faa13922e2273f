import ClientBoundary.Digest
import ClientBoundary.Project.CacheEntry
import ClientBoundary.Project.FileTree
import ClientBoundary.Text.Bytes

/-!
# The result cache

A directory of entries, one for each linted path. An entry holds for one text under one
configuration: it carries the digest of the configuration's fingerprint and the text.

- `Cache.hashedBytes`: what is digested;
- `Cache.get`: the findings that hold, and the tree without an entry that cannot be read;
- `Cache.set`: the tree with the entry of a path.
-/

namespace ClientBoundary
namespace Project

open Rules (Finding)

structure Cache where
  directory : String
  fingerprint : String
  deriving DecidableEq, Repr

/-- The text of bytes, if they are one. -/
def textOf? (bytes : List UInt8) : Option String :=
  String.fromUTF8? ⟨bytes.toArray⟩

namespace Cache

/-- The bytes that a digest stands for: the fingerprint, a zero and the source. -/
def hashedBytes (source fingerprint : String) : List UInt8 :=
  Text.utf8Bytes fingerprint ++ 0 :: Text.utf8Bytes source

def digest (source fingerprint : String) : String :=
  Digest.sha256Hex (hashedBytes source fingerprint)

/-- Open a cache: its directory is made unless something is there. -/
def openIn (tree : FileTree) (c : Cache) : FileTree :=
  if (tree.find? c.directory).isSome then tree else tree.makeDirectories c.directory

/-- The name of the entry of a path. -/
def entryName (path : String) : String :=
  String.ofList (path.toList.map fun c => if c = '/' || c = '\\' || c = ':' then '_' else c) ++
    ".json"

def entryPath (c : Cache) (path : String) : String :=
  Path.join c.directory (entryName path)

/-- The findings stored for a path, if they hold for the source. An entry that is text but no
entry is removed. -/
def get (c : Cache) (tree : FileTree) (path source : String) : FileTree × Option (List Finding) :=
  match (tree.bytes? (c.entryPath path)).bind textOf? with
  | none => (tree, none)
  | some text =>
      match CacheEntry.parse? text with
      | none => (tree.remove (c.entryPath path), none)
      -- an entry for another text or configuration stays until it is written over
      | some e => (tree, if e.digest = digest source c.fingerprint then some e.findings else none)

/-- Store the findings on a source for its path. -/
def set (c : Cache) (tree : FileTree) (path source : String) (findings : List Finding) : FileTree :=
  let e : CacheEntry := ⟨digest source c.fingerprint, findings⟩
  tree.write (c.entryPath path) (Text.utf8Bytes e.render)

end Cache
end Project
end ClientBoundary
