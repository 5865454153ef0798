import Combinatory.File.System

/-!
# File name patterns

In a pattern `*` stands for any characters, `?` for one, and `[...]` for one character of a class: of
single characters and of ranges, or, after `!`, for one outside of the class. A bracket that does not
close stands for itself. Every other character stands for itself.

A name is matched piece by piece from the end of the pattern, with all ends of the name at once
(`Pattern.matchedEnds`), so that several `*` cost no more than the product of the two lengths.

`FileSystem.glob` gives the paths that a pattern with slashes matches, part by part. A name that starts
with a dot is only matched by a part that starts with one.
-/

namespace Combinatory

inductive PatternPiece where
  /-- Any characters, or none. -/
  | many
  /-- A character that lies in one of the ranges, or outside of all if `inverted`. -/
  | oneOf (inverted : Bool) (ranges : List (Char × Char))
  deriving DecidableEq

namespace PatternPiece

def single (c : Char) : PatternPiece := .oneOf false [(c, c)]

def anyone : PatternPiece := .oneOf true []

/-- The ranges of a class; a character alone is a range of one. -/
def ranges : Text → List (Char × Char)
  | lo :: '-' :: hi :: cs => (lo, hi) :: ranges cs
  | c :: cs => (c, c) :: ranges cs
  | [] => []

/-- A class without the ranges at its start that hold no character. -/
def dropEmptyRanges : Text → Text
  | lo :: '-' :: hi :: cs => if hi < lo then dropEmptyRanges cs else lo :: '-' :: hi :: cs
  | cs => cs

/-- The piece that a class stands for. Empty ranges before a `!` do not keep it from inverting the
class, even if a range starts with it: the two other characters of that range then stand for
themselves. -/
def ofClass : Text → PatternPiece
  | '!' :: cs => .oneOf true (ranges cs)
  | cs =>
    match dropEmptyRanges cs with
    | '!' :: '-' :: hi :: cs => .oneOf true (('-', '-') :: (hi, hi) :: ranges cs)
    | '!' :: cs => .oneOf true (ranges cs)
    | cs => .oneOf false (ranges cs)

/-- Cuts off the characters that cannot close a class: a leading `!`, and a closing bracket at the start
or after it. -/
def cutClassStart : Text → Text × Text
  | '!' :: ']' :: cs => (['!', ']'], cs)
  | '!' :: cs => (['!'], cs)
  | ']' :: cs => ([']'], cs)
  | cs => ([], cs)

/-- Cuts the text after an opening bracket at the bracket that closes the class. -/
def cutClass? (t : Text) : Option (Text × Text) :=
  match (cutClassStart t).2.dropWhile (· ≠ ']') with
  | [] => none
  | _ :: after =>
    some ((cutClassStart t).1 ++ (cutClassStart t).2.takeWhile (· ≠ ']'), after)

theorem length_cutClassStart (t : Text) : (cutClassStart t).2.length ≤ t.length := by
  unfold cutClassStart
  split <;> simp
  omega

theorem length_of_cutClass? {t cls after : Text} (h : cutClass? t = some (cls, after)) :
    after.length < t.length := by
  have hstart := length_cutClassStart t
  have hdrop := (List.dropWhile_suffix (fun x => decide (x ≠ ']'))
    (l := (cutClassStart t).2)).length_le
  unfold cutClass? at h
  split at h
  · simp at h
  · next c cs hd =>
    rw [hd] at hdrop
    simp only [Option.some.injEq, Prod.mk.injEq] at h
    simp only [List.length_cons] at hdrop
    rw [← h.2]
    omega

end PatternPiece

/-- A pattern for the name of a file. -/
abbrev Pattern := List PatternPiece

namespace Pattern

def parse : Text → Pattern
  | [] => []
  | c :: cs =>
    if c = '*' then .many :: parse cs
    else if c = '?' then .anyone :: parse cs
    else if c = '[' then
      match _h : PatternPiece.cutClass? cs with
      | none => .single c :: parse cs
      | some (cls, after) => .ofClass cls :: parse after
    else .single c :: parse cs
termination_by t => t.length
decreasing_by
  all_goals simp only [List.length_cons]
  all_goals first
    | omega
    | exact Nat.lt_succ_of_lt (PatternPiece.length_of_cutClass? _h)

/-- Whether the pattern that begins with `.many` matches the ends of a name, from the whole name to the
empty end, when it is known which of them the rest of the pattern matches. -/
def manyBefore : List Bool → List Bool
  | [] => []
  | b :: bs =>
    let rest := manyBefore bs
    (b || rest.headD false) :: rest

/-- The same for the pattern that begins with a piece for one character. -/
def oneBefore (p : Char → Bool) : Text → List Bool → List Bool
  | c :: cs, _ :: bs => (p c && bs.headD false) :: oneBefore p cs bs
  | _, _ => [false]

/-- Which ends of a name a pattern matches, from the whole name to the empty end. -/
def matchedEnds (name : Text) : Pattern → List Bool
  | [] => name.map (fun _ => false) ++ [true]
  | .many :: pieces => manyBefore (matchedEnds name pieces)
  | .oneOf inverted ranges :: pieces =>
    oneBefore (fun c => (ranges.any fun r => r.1 ≤ c && c ≤ r.2) != inverted) name
      (matchedEnds name pieces)

def matchesName (pattern : Pattern) (name : Text) : Bool := (matchedEnds name pattern).headD false

/-- Whether a character begins a piece that is no single character. -/
def isSpecial (c : Char) : Bool := c = '*' || c = '?' || c = '['

/-- Whether a text has a piece that is no single character. -/
def isPattern (t : Text) : Bool := t.any isSpecial

/-- The parts of a path before the first one that is a pattern. -/
def literalStart (t : Text) : Text :=
  ((t.takeWhile fun c => !isSpecial c).reverse.dropWhile (· ≠ '/')).reverse

end Pattern

namespace FileSystem

/-- A path inside a directory; the working directory is left out. -/
def under (directory name : Text) : Text :=
  match directory.getLast? with
  | none | some '/' => directory ++ name
  | some _ => directory ++ '/' :: name

def isHidden (name : Text) : Bool := name.head? = some '.'

/-- The names in a directory that one part of a pattern matches. -/
def globPart (fs : FileSystem) (directoriesOnly : Bool) (directory part : Text) : List Text :=
  if Pattern.isPattern part then
    ((fs.names? directory).getD []).filter fun name =>
      (isHidden part || !isHidden name) && Pattern.matchesName (.parse part) name &&
        (!directoriesOnly || (fs.names? (under directory name)).isSome)
  else if fs.holds (under directory part) then [part]
  else []

/-- Cuts a reversed path at its last slash: the last part, and what stands before it, without slashes
at its end unless it has nothing else. -/
def cutLast (reversed : Text) : Text × Text :=
  let before := reversed.dropWhile (· ≠ '/')
  let trimmed := before.dropWhile (· = '/')
  ((reversed.takeWhile (· ≠ '/')).reverse, if trimmed = [] then before else trimmed)

/-- The paths that a reversed pattern matches; `fuel` bounds the number of its parts. -/
def globReversed (fs : FileSystem) (directoriesOnly : Bool) : Nat → Text → List Text
  | 0, _ => []
  | fuel + 1, reversed =>
    let (part, before) := cutLast reversed
    let directories :=
      if Pattern.isPattern before then fs.globReversed true fuel before else [before.reverse]
    directories.flatMap fun directory =>
      (fs.globPart directoriesOnly directory part).map (under directory)

/-- The paths that a pattern matches. No directory can be listed that has a null character in its path,
so the part of the pattern that names the first directory to be listed must have none. -/
def glob (fs : FileSystem) (pattern : Text) : Except ReadError (List Text) :=
  if (Pattern.literalStart pattern).contains '\x00' then .error .nullInPath
  else .ok (fs.globReversed false (pattern.length + 1) pattern.reverse)

end FileSystem

end Combinatory
