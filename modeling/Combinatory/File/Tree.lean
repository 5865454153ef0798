import Combinatory.File.System

/-!
# File trees

A file tree is a file system given by its content: the files and directories under the working
directory. Outside of that directory nothing is known, and only the way up is open.
-/

namespace Combinatory

/-- What stands at a place of a file tree. -/
inductive TreeEntry where
  | file (bytes : List UInt8)
  | directory

/-- Files and directories with their paths from the working directory; the first entry for a path
counts. -/
structure FileTree where
  entries : List (List Text × TreeEntry)

namespace FileTree

def empty : FileTree := ⟨[]⟩

def at? (tree : FileTree) (place : List Text) : Option TreeEntry :=
  if place = [] then some .directory else tree.entries.lookup place

/-- The tree with the directory `place ++ parts` and those on the way from `place` to it. -/
def makeDirectories (tree : FileTree) (place : List Text) : List Text → FileTree
  | [] => tree
  | part :: parts =>
    let place := place ++ [part]
    let tree := match tree.at? place with
      | some _ => tree
      | none => ⟨(place, .directory) :: tree.entries⟩
    tree.makeDirectories place parts

/-- The tree with a file at a path, and the directories on the way to it. -/
def writeFile (tree : FileTree) (path : Text) (bytes : List UInt8) : FileTree :=
  let parts := (Path.parse path).parts
  let tree := tree.makeDirectories [] parts.dropLast
  ⟨(parts, .file bytes) :: tree.entries⟩

/-- The tree with a directory at a path, and those on the way to it. -/
def makeDirectory (tree : FileTree) (path : Text) : FileTree :=
  tree.makeDirectories [] (Path.parse path).parts

/-- The names of what stands directly inside a directory. -/
def namesIn (tree : FileTree) (place : List Text) : List Text :=
  (tree.entries.filterMap fun (path, _) =>
    match path.getLast? with
    | some name => if path.dropLast = place then some name else none
    | none => none).eraseDups

/-- The greatest length of a name, in bytes. -/
def maxName : Nat := 255

/-- Follows the parts of a path from a directory inside the tree, or from outside of it. -/
def follow (tree : FileTree) : Option (List Text) → List Text → Except Absence Found
  | none, [] => .ok (.directory [])
  | some place, [] => .ok (.directory (tree.namesIn place))
  | place, part :: parts =>
    if maxName < (Utf8.encode part).length then .error .nameTooLong
    else if part = ['.', '.'] then
      match place with
      | none | some [] => tree.follow none parts
      | some (name :: names) => tree.follow (some (name :: names).dropLast) parts
    else
      match place with
      | none => .error .missing
      | some place =>
        match tree.at? (place ++ [part]), parts with
        | none, _ => .error .missing
        | some .directory, parts => tree.follow (some (place ++ [part])) parts
        | some (.file bytes), [] => .ok (.file bytes)
        | some (.file _), _ :: _ => .error .notDirectory

def system (tree : FileTree) : FileSystem :=
  ⟨fun p =>
    if maxPath < (Utf8.encode p.text).length then .error .nameTooLong
    else tree.follow (if p.root = [] then some [] else none) p.parts⟩

end FileTree

end Combinatory
