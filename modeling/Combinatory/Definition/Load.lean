import Combinatory.Basis
import Combinatory.File.System

/-!
# Loading definitions

A definition document is loaded from a file whole: nothing is appended to a basis if the file cannot be
read or one of its lines is at fault.
-/

namespace Combinatory

/-- Why a document cannot be loaded from a file. -/
inductive LoadError where
  | unreadable (error : ReadError)
  | malformed (error : DocumentError)

def LoadError.message : LoadError → Text
  | .unreadable e => e.message
  | .malformed e => e.message

namespace Document

def load (fs : FileSystem) (p : Path) : Except LoadError (List Combinator) :=
  match fs.readText p with
  | .error e => .error (.unreadable e)
  | .ok t =>
    match read t with
    | .error e => .error (.malformed e)
    | .ok ds => .ok ds

end Document

namespace Basis

def extendFile (R : Basis) (fs : FileSystem) (p : Path) : Except LoadError Basis :=
  (Document.load fs p).map R.extend

end Basis

end Combinatory
