import Combinatory.Text.Blank
import Combinatory.Text.Digit

/-!
# Reading a number

A number is written as decimal digits of any script, with a single underscore allowed between two
digits and one sign before them; blanks may surround it. At most `maxDigits` digits are read.
-/

namespace Combinatory.Text

/-- The greatest count of digits of a number that is read. -/
def maxDigits : Nat := 4300

/-- The digits of a number without sign, the underscores between them left out. -/
def digits? : Text → Option (List Nat)
  | [] => none
  | [c] => (digitValue? c).map ([·])
  | c :: '_' :: cs => do return (← digitValue? c) :: (← digits? cs)
  | c :: cs => do return (← digitValue? c) :: (← digits? cs)

/-- The number that digits stand for, the most significant first. -/
def ofDigits (ds : List Nat) : Nat := ds.foldl (fun n d => 10 * n + d) 0

/-- Reads a number without sign. -/
def toNat? (t : Text) : Option Nat := do
  let ds ← digits? t
  if ds.length ≤ maxDigits then some (ofDigits ds) else none

def toInt? (t : Text) : Option Int :=
  match trimBoth isNumberBlank t with
  | '+' :: cs => (toNat? cs).map Int.ofNat
  | '-' :: cs => (toNat? cs).map fun n => -Int.ofNat n
  | cs => (toNat? cs).map Int.ofNat

end Combinatory.Text
