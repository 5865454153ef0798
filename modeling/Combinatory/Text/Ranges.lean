import Combinatory.Text.Basic

/-!
# Ranges of code points

The character classes of the Unicode standard are given as ranges of code points, in increasing
order.
-/

namespace Combinatory.Text

/-- Whether one of the ranges holds the code point; both ends belong to a range. No range after one that
begins beyond the code point can hold it. -/
def inRanges : List (Nat × Nat) → Nat → Bool
  | [], _ => false
  | (first, last) :: rest, code =>
    if code < first then false else code ≤ last || inRanges rest code

end Combinatory.Text
