/-!
# Text

A text is a list of characters: buffers, names, templates, lines and messages alike. Lengths and
positions count characters.

`Text.ofNat` and `Text.ofInt` write a number in decimal. `Text.split` cuts a text at a separator;
`Text.intercalate_split` says that putting the separator back between the parts gives the text.
-/

namespace Combinatory

/-- A text, as the list of its characters. -/
abbrev Text := List Char

namespace Text

/-- A number in decimal digits, without leading zeros. -/
def ofNat (n : Nat) : Text := Nat.toDigits 10 n

/-- A whole number in decimal digits, a minus sign before a negative one. -/
def ofInt : Int → Text
  | .ofNat n => ofNat n
  | .negSucc n => '-' :: ofNat (n + 1)

/-- The parts of a text between the occurrences of `sep`; one part more than occurrences. -/
def split (sep : Char) : Text → List Text
  | [] => [[]]
  | c :: cs =>
    if c = sep then [] :: split sep cs
    else
      match split sep cs with
      | [] => [[c]]
      | part :: parts => (c :: part) :: parts

@[simp] theorem split_nil (sep : Char) : split sep [] = [[]] := rfl

theorem split_ne_nil (sep : Char) (t : Text) : split sep t ≠ [] := by
  cases t with
  | nil => simp
  | cons c cs => unfold split; split <;> (try split) <;> simp

/-- Putting the separator back between the parts gives the text. -/
theorem intercalate_split (sep : Char) (t : Text) : [sep].intercalate (split sep t) = t := by
  induction t with
  | nil => rfl
  | cons c cs ih =>
    unfold split
    cases h : split sep cs with
    | nil => exact absurd h (split_ne_nil sep cs)
    | cons part parts =>
      rw [h] at ih
      by_cases hc : c = sep
      · subst hc
        rw [if_pos rfl, ← ih]
        simp [List.intercalate]
      · rw [if_neg hc, ← ih]
        cases parts <;> simp [List.intercalate]

/-- `t` without its first characters that satisfy `p` and without its last ones. -/
def trimBoth (p : Char → Bool) (t : Text) : Text := ((t.dropWhile p).reverse.dropWhile p).reverse

end Text

end Combinatory
