import ClientBoundary.Path.Components
import ClientBoundary.Text.Lossy

/-!
# Relative paths

The path of a file as seen from a root, with slashes between its parts. A file below the root keeps
the components after it, a file outside climbs out first. When only one of the two is absolute the
file keeps its own path.

- `relative`: the relative path between paths that are text;
- `relativeOfBytes`: the relative path between paths of any bytes, which is a text all the same.
-/

namespace ClientBoundary
namespace Path

/-- How a component is written in a relative path. -/
def Component.part? : Component → Option String
  | .name text => some text
  | .parent => some ".."
  | .root => none
  | .here => none

def Component.isName : Component → Bool
  | .name _ => true
  | _ => false

/-- What is left of two lists after their longest common beginning. -/
def dropCommon {α : Type} [DecidableEq α] : List α → List α → List α × List α
  | a :: as, b :: bs => if a = b then dropCommon as bs else (a :: as, b :: bs)
  | as, bs => (as, bs)

/-- The parts of the relative path: a step up for every name of the root beyond the common
beginning, then what is left of the file. -/
def relativeParts (root file : List Component) : List String :=
  let (above, below) := dropCommon root file
  List.replicate (above.filter Component.isName).length ".." ++ below.filterMap Component.part?

/-- The parts of the path of `file` relative to `root`. -/
def partsBetween (root file : String) : List String :=
  let r := components root
  let f := components file
  if r.isPrefixOf f then
    -- the file is below the root, or is the root itself
    (f.drop r.length).filterMap Component.part?
  else if isAbsolute root != isAbsolute file then
    -- where the working directory is decides what is between them, and that is not asked
    f.filterMap Component.part?
  else
    relativeParts r f

/-- The path of `file` relative to `root`. -/
def relative (root file : String) : String :=
  "/".intercalate (partsBetween root file)

/-! ## Paths of bytes -/

/-- Bytes as a text in which each character stands for one byte. A slash and a point are bytes of
their own, so that a path of bytes has the components of this text. -/
def byteText (bytes : List UInt8) : String :=
  String.ofList (bytes.map Char.ofUInt8)

/-- How the bytes of a name are shown. -/
def shown (name : String) : String :=
  String.ofList (Text.lossyText (name.toList.map Char.toUInt8))

/-- The path of `file` relative to `root`, both of them bytes: names are compared as bytes, and
shown as text afterwards. -/
def relativeOfBytes (root file : List UInt8) : String :=
  "/".intercalate ((partsBetween (byteText root) (byteText file)).map shown)

end Path
end ClientBoundary
