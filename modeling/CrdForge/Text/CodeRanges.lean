/-! Sets of characters, given by ranges of code points. -/
namespace CrdForge.Text

/-- A set of characters as closed ranges of code points, ascending and apart. -/
structure CodeRanges where
  bounds : Array (Nat × Nat)

namespace CodeRanges

/-- Halving search for the code point among the ranges from `low` up to `high`. The first argument
bounds the number of halvings. -/
def search (bounds : Array (Nat × Nat)) (point : Nat) : Nat → Nat → Nat → Bool
  | 0, _, _ => false
  | steps + 1, low, high =>
    if low < high then
      let middle := (low + high) / 2
      match bounds[middle]? with
      | none => false
      | some (first, last) =>
        if point < first then search bounds point steps low middle
        else if last < point then search bounds point steps (middle + 1) high
        else true
    else false

/-- Whether the character lies in one of the ranges. -/
def contains (set : CodeRanges) (c : Char) : Bool :=
  search set.bounds c.toNat (set.bounds.size.log2 + 2) 0 set.bounds.size

end CodeRanges

end CrdForge.Text
