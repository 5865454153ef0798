import Combinatory.Basis
import Combinatory.Bracket

/-!
# Terms

A buffer is a flat text of terms side by side. The term at its head is one of four:

* a compound, from an opening bracket to its partner, or to the end when there is none;
* a variable, a lower-case letter with the underscores and digits after it;
* a name of the basis;
* any other character on its own, a symbol.

`Basis.takeTerm?` cuts the term off the head and `Basis.splitTerms` cuts the whole buffer. Nothing is
lost (`Basis.takeTerm?_append`) and every term has a character (`Basis.length_lt_of_takeTerm?`), so
the cutting ends.
-/

namespace Combinatory

inductive TermKind where
  | compound
  | var
  | name
  | symbol
  deriving DecidableEq, Repr

def TermKind.label : TermKind → Text
  | .compound => "compound".toList
  | .var => "variable".toList
  | .name => "macro".toList
  | .symbol => "opaque".toList

/-- A piece cut off a buffer, with its kind. -/
structure Term where
  text : Text
  kind : TermKind
  deriving DecidableEq

namespace Term

/-- What a compound holds: its text without the first character, and without the last one if that
closes the first. -/
def interior (t : Term) : Text :=
  if t.text.getLast? = some ')' ∧ Balanced t.text then t.text.tail.dropLast else t.text.tail

/-- What a compound holds; `none` for another kind of term. -/
def interior? (t : Term) : Option Text := if t.kind = .compound then some t.interior else none

def describe (t : Term) : Text :=
  "Term(".toList ++ Text.quoted t.text ++ ", ".toList ++ t.kind.label ++ ")".toList

end Term

/-- The characters that may start a variable. -/
def isVariableStart (c : Char) : Bool := 'a' ≤ c && c ≤ 'z'

/-- The characters that may go on a variable. -/
def isSubscript (c : Char) : Bool := c = '_' || ('0' ≤ c && c ≤ '9')

namespace Basis

/-- Cuts the term off the head of a buffer with first character `c`. -/
def cutTerm (R : Basis) (c : Char) (cs : Text) : Term × Text :=
  if c = '(' then
    let (inside, rest) := cutAtClose 0 cs
    (⟨c :: inside, .compound⟩, rest)
  else if isVariableStart c then
    (⟨c :: cs.takeWhile isSubscript, .var⟩, cs.dropWhile isSubscript)
  else
    match R.findPrefix? (c :: cs) with
    | some d => (⟨d.name, .name⟩, (c :: cs).drop d.name.length)
    | none => (⟨[c], .symbol⟩, cs)

def emptyBufferMessage : Text := "Cannot extract a term from an empty buffer".toList

/-- Cuts the term off the head of a buffer; an empty buffer has none. -/
def takeTerm? (R : Basis) : Text → Option (Term × Text)
  | [] => none
  | c :: cs => some (R.cutTerm c cs)

theorem cutTerm_append (R : Basis) (c : Char) (cs : Text) :
    (R.cutTerm c cs).1.text ++ (R.cutTerm c cs).2 = c :: cs := by
  unfold cutTerm
  split
  · simp [cutAtClose_append]
  · split
    · simp
    · split
      · next d h => exact List.prefix_iff_eq_append.1 (isPrefix_of_findPrefix? h)
      · rfl

theorem cutTerm_text_ne_nil (R : Basis) (c : Char) (cs : Text) : (R.cutTerm c cs).1.text ≠ [] := by
  unfold cutTerm
  split
  · simp
  · split
    · simp
    · split
      · next d _ => exact d.name_ne_nil
      · simp

theorem takeTerm?_append {R : Basis} {buffer rest : Text} {t : Term}
    (h : R.takeTerm? buffer = some (t, rest)) : t.text ++ rest = buffer := by
  cases buffer with
  | nil => simp [takeTerm?] at h
  | cons c cs =>
    have h := Option.some.inj h
    rw [← R.cutTerm_append c cs, h]

theorem length_lt_of_takeTerm? {R : Basis} {buffer rest : Text} {t : Term}
    (h : R.takeTerm? buffer = some (t, rest)) : rest.length < buffer.length := by
  have ht := takeTerm?_append h
  cases buffer with
  | nil => simp [takeTerm?] at h
  | cons c cs =>
    have hne := R.cutTerm_text_ne_nil c cs
    rw [Option.some.inj h] at hne
    have := List.length_pos_iff.2 hne
    simp [← ht]
    omega

def splitTerms (R : Basis) (buffer : Text) : List Term :=
  match _h : R.takeTerm? buffer with
  | none => []
  | some (t, rest) => t :: R.splitTerms rest
termination_by buffer.length
decreasing_by exact length_lt_of_takeTerm? _h

def termCount (R : Basis) (buffer : Text) : Nat := (R.splitTerms buffer).length

end Basis

end Combinatory
