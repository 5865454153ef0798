import Combinatory.Text.Basic

/-!
# Paths

A path is written with slashes between its parts. Reading it drops empty parts and the part `.`, and
keeps `..`; two slashes at the start, and no other number of them, are kept as two.
-/

namespace Combinatory

/-- A path: the slashes it starts with, and its parts. -/
structure Path where
  root : Text
  parts : List Text
  deriving DecidableEq

namespace Path

/-- The slashes that the start of a path comes to. -/
def rootOf : Text → Text
  | ['/', '/'] => ['/', '/']
  | '/' :: '/' :: c :: _ => if c = '/' then ['/'] else ['/', '/']
  | '/' :: _ => ['/']
  | _ => []

def parse (t : Text) : Path :=
  ⟨rootOf t, (Text.split '/' t).filter fun part => part ≠ [] ∧ part ≠ ['.']⟩

/-- A path in its normal form; the empty path is `.`. -/
def text (p : Path) : Text :=
  match p.root, p.parts with
  | [], [] => ['.']
  | root, parts => root ++ ['/'].intercalate parts

end Path

end Combinatory
