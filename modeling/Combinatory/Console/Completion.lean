import Combinatory.Console.Repl
import Combinatory.File.Pattern

/-!
# Completion

What a word may be completed to, given the line it stands in: a setting after `:trace`, a path after
`:load`, a command after a colon, and else a name of the basis with more than one character. Only a path
can fail to be completed.
-/

namespace Combinatory.Completion

/-- The commands, in the order in which they are offered. -/
def commands : List Text :=
  [":help", ":quit", ":exit", ":q", ":load", ":defs", ":define", ":reset", ":trace", ":max"].map
    String.toList

def settings : List Text := ["on".toList, "off".toList]

/-- Whether a text comes before another one or equals it, character by character. -/
def inOrder : Text → Text → Bool
  | [], _ => true
  | _ :: _, [] => false
  | a :: as, b :: bs => a < b || (a = b && inOrder as bs)

/-- The paths that start with a text, in order; a slash follows a directory. -/
def paths (fs : FileSystem) (text : Text) : Except ReadError (List Text) :=
  let start := if text = [] then "./".toList else text
  let mark := fun path => (fs.isDirectory (.parse path)).map (if · then path ++ ['/'] else path)
  (fs.glob (start ++ ['*']) >>= List.mapM mark).map (·.mergeSort inOrder)

/-- The completions of a text in a line. -/
def matching (fs : FileSystem) (R : Basis) (text line : Text) : Except ReadError (List Text) :=
  let line := Text.trimLeft line
  if ":trace ".toList.isPrefixOf line then
    .ok (settings.filter (text.isPrefixOf ·))
  else if ":load ".toList.isPrefixOf line then paths fs text
  else if [':'].isPrefixOf text ∨ ([':'].isPrefixOf line ∧ ' ' ∉ line) then
    .ok (commands.filter (text.isPrefixOf ·))
  else
    .ok (R.names.filter fun name => 1 < name.length && text.isPrefixOf name && text ≠ [])

end Combinatory.Completion
