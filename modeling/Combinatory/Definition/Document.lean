import Combinatory.Definition.Record
import Combinatory.Text.Line

/-!
# Definition documents

A document holds one definition a line: the fields of a record with commas between them. Space,
full-width space and tab have no meaning, and a line that is empty without them or starts with `#` is
passed over.

`Document.read` gives the combinators of a document, or the first line at fault.
-/

namespace Combinatory

/-- Why a document cannot be read: the number of the first line at fault, and its fault. -/
structure DocumentError where
  line : Nat
  reason : DefinitionError

def DocumentError.message (e : DocumentError) : Text :=
  "line ".toList ++ Text.ofNat e.line ++ ": ".toList ++ e.reason.message

namespace Document

/-- The record of a line; `none` for a blank or comment line. -/
def record? (line : Text) : Except DefinitionError (Option Record) :=
  let ending := fun c => c = '\r' || c = '\n'
  match Text.withoutFieldBlanks (line.reverse.dropWhile ending).reverse with
  | [] | '#' :: _ => .ok none
  | fields => (Record.ofFields ((Text.split ',' fields).map .text)).map some

/-- The combinator of a line; `none` for a blank or comment line. -/
def combinator? (line : Text) : Except DefinitionError (Option Combinator) :=
  record? line >>= fun
    | none => .ok none
    | some r => (Combinator.ofRecord r).map some

/-- The combinators of lines of which the first has number `n`. -/
def readLines (n : Nat) : List Text → Except DocumentError (List Combinator)
  | [] => .ok []
  | line :: rest =>
    match combinator? line with
    | .error e => .error ⟨n, e⟩
    | .ok d => (readLines (n + 1) rest).map (d.toList ++ ·)

def read (t : Text) : Except DocumentError (List Combinator) := readLines 1 (Text.lines t)

end Document

end Combinatory
