import ClientBoundary.Proofs.Json.Printing
import ClientBoundary.Proofs.Project.EntryText

/-!
# What an entry is kept under

An entry holds for the bytes that were digested for it: a fingerprint, a zero and a source. No
fingerprint of a configuration has a zero in it, so the bytes tell both.

- `Config.printable_fingerprint`: fingerprints have no control characters;
- `hashedBytes_fingerprint_eq_iff`: the bytes tell the fingerprint and the source.
-/

namespace ClientBoundary
namespace Rules

/-- Whatever its globs are, the fingerprint of a configuration has no control characters. -/
theorem Config.printable_fingerprint (c : Config) : Json.Printable c.fingerprint.toList :=
  c.toValue.printable_render

theorem Config.zero_notMem_fingerprint (c : Config) : '\x00' ∉ c.fingerprint.toList := by
  intro mem
  exact absurd (c.printable_fingerprint _ mem) (by decide)

end Rules

namespace Project

open Rules (Config)

/-- The bytes that are digested for a source under a configuration tell its fingerprint and the
source, as no byte of a fingerprint is zero. -/
theorem hashedBytes_fingerprint_eq_iff (c d : Config) (source other_source : String) :
    (Cache.hashedBytes source c.fingerprint = Cache.hashedBytes other_source d.fingerprint ↔
      c.fingerprint = d.fingerprint ∧ source = other_source) ∧
      0 ∉ Text.utf8Bytes c.fingerprint := by
  constructor
  · rw [hashedBytes_eq_iff c.zero_notMem_fingerprint d.zero_notMem_fingerprint, and_comm]
  · rw [Text.zero_mem_utf8Bytes]
    exact c.zero_notMem_fingerprint

end Project
end ClientBoundary
