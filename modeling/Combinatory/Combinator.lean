import Combinatory.Text.Quoted

/-!
# Combinators

A combinator is a reduction rule with a name: it collects `arity` terms and puts its template in their
place, in which a digit stands for the argument of that index. Digits are not checked against the
arity when a combinator is made; `Combinator.Usable` says that they fit.
-/

namespace Combinatory

/-- A named reduction rule. -/
structure Combinator where
  /-- The text that stands for the combinator; it is not empty. -/
  name : Text
  /-- How many arguments it takes. -/
  arity : Nat
  /-- What takes its place; a digit stands for the argument of that index. -/
  template : Text
  name_ne_nil : name ≠ [] := by decide
  deriving DecidableEq

/-- The index of the argument that a character of a template stands for. -/
def placeholder? (c : Char) : Option Nat :=
  if '0' ≤ c ∧ c ≤ '9' then some (c.toNat - '0'.toNat) else none

namespace Combinator

def isConstant (d : Combinator) : Bool := d.arity = 0

/-- The indices of the arguments that the template uses, in its order. -/
def placeholders (d : Combinator) : List Nat := d.template.filterMap placeholder?

/-- Whether the template uses no argument beyond those collected. A constant copies its template, so
its digits stand for themselves. -/
def Usable (d : Combinator) : Prop := d.arity = 0 ∨ ∀ i ∈ d.placeholders, i < d.arity

instance (d : Combinator) : Decidable d.Usable := inferInstanceAs (Decidable (_ ∨ _))

def line (d : Combinator) : Text :=
  d.name ++ ", ".toList ++ Text.ofNat d.arity ++ ", ".toList ++ d.template

def describe (d : Combinator) : Text :=
  "CombinatorDefinition(".toList ++ Text.quoted d.name ++ ", ".toList ++ Text.ofNat d.arity ++
    ", ".toList ++ Text.quoted d.template ++ ")".toList

/-- Whether the name stands at the head of a buffer. -/
def Heads (d : Combinator) (buffer : Text) : Prop := d.name <+: buffer

instance (d : Combinator) (buffer : Text) : Decidable (d.Heads buffer) :=
  inferInstanceAs (Decidable (_ <+: _))

/-! ## The standard combinators -/

/-- `S x y z = x z (y z)` -/
def s : Combinator := ⟨['S'], 3, "02(12)".toList, by decide⟩

/-- `K x y = x` -/
def k : Combinator := ⟨['K'], 2, ['0'], by decide⟩

/-- `I x = x` -/
def i : Combinator := ⟨['I'], 1, ['0'], by decide⟩

/-- `B x y z = x (y z)` -/
def b : Combinator := ⟨['B'], 3, "0(12)".toList, by decide⟩

/-- `C x y z = x z y` -/
def c : Combinator := ⟨['C'], 3, "021".toList, by decide⟩

end Combinator

end Combinatory
