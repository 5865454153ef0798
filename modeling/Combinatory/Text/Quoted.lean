import Combinatory.Text.Printable

/-!
# Quoted texts

A quoted text stands between two single quotes, or between two double quotes when it holds a single
one and no double one. Inside it a backslash and the quote that surrounds it follow a backslash; tab,
line feed and carriage return are written with a letter, and every other character that is not
printable with its code point in hexadecimal.
-/

namespace Combinatory.Text

/-- A number in lower-case hexadecimal digits, at least `width` of them. -/
def hex (width n : Nat) : Text := (Nat.toDigits 16 n).leftpad width '0'

/-- A character as it stands in a text between two marks `quote`. -/
def escape (quote c : Char) : Text :=
  if c = '\\' || c = quote then ['\\', c]
  else if c = '\t' then ['\\', 't']
  else if c = '\n' then ['\\', 'n']
  else if c = '\r' then ['\\', 'r']
  else if isPrintable c then [c]
  else if c.toNat < 0x100 then '\\' :: 'x' :: hex 2 c.toNat
  else if c.toNat < 0x10000 then '\\' :: 'u' :: hex 4 c.toNat
  else '\\' :: 'U' :: hex 8 c.toNat

/-- The mark that surrounds a quoted text. -/
def quoteOf (t : Text) : Char := if t.contains '\x27' && !t.contains '"' then '"' else '\x27'

def quoted (t : Text) : Text :=
  quoteOf t :: t.flatMap (escape (quoteOf t)) ++ [quoteOf t]

end Combinatory.Text
