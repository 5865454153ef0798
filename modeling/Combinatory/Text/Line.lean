import Combinatory.Text.Basic

/-!
# Lines

Two ways to see the lines of a text.

* `lines` ends a line at every line break of the Unicode standard and at the separators U+001C to
  U+001E; a carriage return and a line feed after it are one break. A break at the end starts no
  further line.
* `unifyBreaks` is what reading a file does: it writes every line break that is a carriage return, a
  line feed or both as one line feed, and leaves the others alone.
-/

namespace Combinatory.Text

/-- The characters that end a line. -/
def isBreak (c : Char) : Bool :=
  (0x0A ≤ c.val && c.val ≤ 0x0D) || (0x1C ≤ c.val && c.val ≤ 0x1E) || c.val = 0x85 ||
    c.val = 0x2028 || c.val = 0x2029

/-- The lines of a text, without their breaks. -/
def lines : Text → List Text
  | [] => []
  | '\r' :: '\n' :: cs => [] :: lines cs
  | c :: cs =>
    if isBreak c then [] :: lines cs
    else
      match lines cs with
      | [] => [[c]]
      | line :: rest => (c :: line) :: rest

/-- The text with a line feed for every carriage return, line feed, and both in a row. -/
def unifyBreaks : Text → Text
  | [] => []
  | '\r' :: '\n' :: cs => '\n' :: unifyBreaks cs
  | '\r' :: cs => '\n' :: unifyBreaks cs
  | c :: cs => c :: unifyBreaks cs

end Combinatory.Text
