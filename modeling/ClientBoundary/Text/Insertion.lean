import ClientBoundary.Text.Bytes

/-!
# Insertions into a text

An insertion puts a text at a byte offset. Several insertions are applied together, in the order
of their offsets: of those at one offset the first in the list wins, and one that lies past the
end or inside a character is left out.

- `byOffset`: the candidates in offset order, those at one offset in list order;
- `insertAll`: the new text and how many insertions took place.
-/

namespace ClientBoundary
namespace Text

structure Insertion where
  offset : Nat
  text : String
  deriving DecidableEq, Repr

/-- The insertions that lie within a text of `size` bytes, in offset order. -/
def byOffset (size : Nat) (insertions : List Insertion) : List Insertion :=
  (insertions.filter (·.offset ≤ size)).mergeSort fun a b => a.offset ≤ b.offset

/-- Apply insertions in offset order to `rest`, the part of the text from byte `position` on.
`last` is the offset of the insertion before; another one at that offset is passed over. -/
def insertSorted (position : Nat) (last : Option Nat) (rest : List Char) :
    List Insertion → List Char × Nat
  | [] => (rest, 0)
  | i :: more =>
      if last.any (i.offset ≤ ·) then
        insertSorted position last rest more
      else
        match splitAtByte? rest (i.offset - position) with
        | none => insertSorted position last rest more
        | some (before, after) =>
            let (tail, applied) := insertSorted i.offset (some i.offset) after more
            (before ++ i.text.toList ++ tail, applied + 1)

/-- Apply insertions to a text; the second component counts those that took place. -/
def insertAll (source : String) (insertions : List Insertion) : String × Nat :=
  let text := source.toList
  let (result, applied) := insertSorted 0 none text (byOffset (byteLength text) insertions)
  (String.ofList result, applied)

/-! ## Laws -/

/-- Where nothing is inserted, the text stays as it is. -/
theorem insertSorted_unchanged {position : Nat} {last : Option Nat} {rest : List Char}
    {insertions : List Insertion} (h : (insertSorted position last rest insertions).2 = 0) :
    (insertSorted position last rest insertions).1 = rest := by
  fun_induction insertSorted position last rest insertions with
  | case1 => rfl
  | case2 position last rest i more skip ih => exact ih h
  | case3 position last rest i more keep split_none ih => exact ih h
  | case4 => simp at h

end Text
end ClientBoundary
