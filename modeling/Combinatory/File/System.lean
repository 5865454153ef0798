import Combinatory.File.Path
import Combinatory.Text.Line
import Combinatory.Text.Quoted
import Combinatory.Text.Utf8

/-!
# Files

A file system answers for a path what stands there: a file with its bytes or a directory with the
names in it. A file is read as UTF-8, with its line breaks unified.

`FileSystem.readText` fails for one of two kinds of reason: the system does not give the bytes
(`ReadError.system`), or they cannot be asked for or are no text.
-/

namespace Combinatory

/-- What stands at a path. -/
inductive Found where
  | file (bytes : List UInt8)
  | directory (names : List Text)

/-- Why nothing is found at a path. -/
inductive Absence where
  | missing
  /-- Something on the way is no directory. -/
  | notDirectory
  | nameTooLong
  /-- Something may stand there, but it may not be looked at. -/
  | denied
  deriving DecidableEq, Repr

/-- The greatest length of a path, in bytes. -/
def maxPath : Nat := 4095

structure FileSystem where
  find : Path → Except Absence Found

/-- Why the system does not give the bytes of a file. -/
inductive SystemError where
  | absent (reason : Absence)
  | isDirectory
  deriving DecidableEq, Repr

/-- Why a text cannot be read. -/
inductive ReadError where
  | system (reason : SystemError) (path : Path)
  /-- No file has a null character in its path. -/
  | nullInPath
  | notText (error : Utf8.DecodingError)
  deriving DecidableEq

def SystemError.message : SystemError → Text
  | .absent .missing => "[Errno 2] No such file or directory".toList
  | .absent .notDirectory => "[Errno 20] Not a directory".toList
  | .absent .nameTooLong => "[Errno 36] File name too long".toList
  | .absent .denied => "[Errno 13] Permission denied".toList
  | .isDirectory => "[Errno 21] Is a directory".toList

def Utf8.Defect.message : Utf8.Defect → Text
  | .start => "invalid start byte".toList
  | .continuation => "invalid continuation byte".toList
  | .cut => "unexpected end of data".toList

def Utf8.DecodingError.message (e : Utf8.DecodingError) : Text :=
  let place :=
    if e.first = e.last then
      "byte 0x".toList ++ Text.hex 2 e.byte.toNat ++ " in position ".toList ++ Text.ofNat e.first
    else "bytes in position ".toList ++ Text.ofNat e.first ++ ['-'] ++ Text.ofNat e.last
  Text.quoted "utf-8".toList ++ " codec can\x27t decode ".toList ++ place ++ ": ".toList ++
    e.defect.message

def ReadError.message : ReadError → Text
  | .system reason path => reason.message ++ ": ".toList ++ Text.quoted path.text
  | .nullInPath => "embedded null byte".toList
  | .notText error => error.message

namespace FileSystem

/-- The file system that holds nothing but what is found at given paths. -/
def ofList (found : List (Path × Except Absence Found)) : FileSystem :=
  ⟨fun p => (found.lookup p).getD (.error .missing)⟩

def readBytes (fs : FileSystem) (p : Path) : Except SystemError (List UInt8) :=
  match fs.find p with
  | .error reason => .error (.absent reason)
  | .ok (.directory _) => .error .isDirectory
  | .ok (.file bytes) => .ok bytes

def readText (fs : FileSystem) (p : Path) : Except ReadError Text :=
  if p.parts.any fun part => part.contains '\x00' then .error .nullInPath
  else
    match fs.readBytes p with
    | .error reason => .error (.system reason p)
    | .ok bytes =>
      match Utf8.decode bytes with
      | .error e => .error (.notText e)
      | .ok t => .ok (Text.unifyBreaks t)

/-- Whether there is a directory at a path. It is an error if that cannot be told. -/
def isDirectory (fs : FileSystem) (p : Path) : Except ReadError Bool :=
  match fs.find p with
  | .ok (.directory _) => .ok true
  | .ok (.file _) | .error .missing | .error .notDirectory => .ok false
  | .error reason => .error (.system (.absent reason) p)

/-! ## Paths as they are written -/

/-- What stands at a path as it is written; its length counts before it is brought to its normal
form. -/
def lookUp (fs : FileSystem) (path : Text) : Except Absence Found :=
  if maxPath < (Utf8.encode path).length then .error .nameTooLong else fs.find (.parse path)

def holds (fs : FileSystem) (path : Text) : Bool := (fs.lookUp path).toBool

/-- The names in the directory at a path; none if there is no directory. -/
def names? (fs : FileSystem) (path : Text) : Option (List Text) :=
  match fs.lookUp path with
  | .ok (.directory names) => some names
  | _ => none

end FileSystem

end Combinatory
