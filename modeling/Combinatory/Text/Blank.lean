import Combinatory.Text.Basic

/-!
# Blanks

Three sets of blank characters.

* `isBlank`: the white space characters of the Unicode standard, with the four separators
  U+001C to U+001F. They surround a line and separate words.
* `isNumberBlank`: those that may surround a number; the four separators may not.
* `isFieldBlank`: space, full-width space and tab, which have no meaning in a definition.
-/

namespace Combinatory.Text

/-- The blank characters beyond U+007F. -/
def isWideBlank (c : Char) : Bool :=
  c.val = 0x85 || c.val = 0xA0 || c.val = 0x1680 || (0x2000 ≤ c.val && c.val ≤ 0x200A) ||
    c.val = 0x2028 || c.val = 0x2029 || c.val = 0x202F || c.val = 0x205F || c.val = 0x3000

/-- The blank characters that surround a line and separate its words. -/
def isBlank (c : Char) : Bool :=
  (0x09 ≤ c.val && c.val ≤ 0x0D) || (0x1C ≤ c.val && c.val ≤ 0x20) || isWideBlank c

/-- The blank characters that may surround a number. -/
def isNumberBlank (c : Char) : Bool :=
  (0x09 ≤ c.val && c.val ≤ 0x0D) || c.val = 0x20 || isWideBlank c

def isFieldBlank (c : Char) : Bool := c = ' ' || c = '\u3000' || c = '\t'

def trim (t : Text) : Text := trimBoth isBlank t

def trimLeft (t : Text) : Text := t.dropWhile isBlank

def withoutBlanks (t : Text) : Text := t.filter fun c => !isBlank c

/-- A definition without space, full-width space and tab. -/
def withoutFieldBlanks (t : Text) : Text := t.filter fun c => !isFieldBlank c

/-- The first word of a line, and the rest of the line from its second word on; blanks at the end of
the rest are kept. `none` for a line without words. -/
def firstWord? (t : Text) : Option (Text × Text) :=
  match trimLeft t with
  | [] => none
  | c :: cs =>
    let isLetter := fun c => !isBlank c
    some ((c :: cs).takeWhile isLetter, trimLeft ((c :: cs).dropWhile isLetter))

end Combinatory.Text
