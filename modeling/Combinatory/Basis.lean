import Combinatory.Definition.Document

/-!
# Bases

A basis is the ordered list of combinators that a reduction may use. The first of them whose name
stands at the head of a buffer is the one that is meant, so an earlier combinator keeps precedence over
a later one with the same name.

* `Basis.names_extend`, `Basis.findPrefix?_extend`: what appending does.
* `Basis.name_of_lookup?`: a combinator that is looked up has the name it was looked up by.
-/

namespace Combinatory

/-- An ordered list of combinators. -/
structure Basis where
  combinators : List Combinator
  deriving DecidableEq

namespace Basis

def empty : Basis := ⟨[]⟩

/-- The basis S, K, I, B, C. -/
def standard : Basis := ⟨[.s, .k, .i, .b, .c]⟩

def initial (builtins : Bool) : Basis := if builtins then standard else empty

def extend (R : Basis) (ds : List Combinator) : Basis := ⟨R.combinators ++ ds⟩

def append (R : Basis) (d : Combinator) : Basis := R.extend [d]

def size (R : Basis) : Nat := R.combinators.length

def names (R : Basis) : List Text := R.combinators.map Combinator.name

def records (R : Basis) : List Record := R.combinators.map Combinator.record

/-- The first combinator whose name stands at the head of the buffer. -/
def findPrefix? (R : Basis) (buffer : Text) : Option Combinator :=
  R.combinators.find? fun d => d.Heads buffer

/-- The first combinator with the given name. -/
def lookup? (R : Basis) (name : Text) : Option Combinator :=
  R.combinators.find? fun d => d.name = name

/-- The basis as a definition document, with an optional title in a comment. -/
def document (R : Basis) (title : Option Text) : Text :=
  let heading := match title with
    | none | some [] => []
    | some t => ["# ".toList ++ t]
  ['\n'].intercalate (heading ++ R.combinators.map Combinator.line)

def describe (R : Basis) : Text :=
  "CombinatorRegistry(".toList ++ Text.ofNat R.size ++ " combinators)".toList

/-! ## From definitions -/

/-- The combinators that values define, or the first error among them. -/
def define (values : List Field) : Except DefinitionError (List Combinator) :=
  values.mapM Combinator.ofField

/-- The basis with the combinators of all values at its end; nothing is appended if one of them defines
none. -/
def extendFields (R : Basis) (values : List Field) : Except DefinitionError Basis :=
  (define values).map R.extend

def extendDocument (R : Basis) (t : Text) : Except DocumentError Basis :=
  (Document.read t).map R.extend

/-! ## Lemmas -/

@[simp] theorem combinators_extend (R : Basis) (ds : List Combinator) :
    (R.extend ds).combinators = R.combinators ++ ds := rfl

@[simp] theorem names_extend (R : Basis) (ds : List Combinator) :
    (R.extend ds).names = R.names ++ ds.map Combinator.name := by
  simp [names]

theorem findPrefix?_extend (R : Basis) (ds : List Combinator) (buffer : Text) :
    (R.extend ds).findPrefix? buffer =
      (R.findPrefix? buffer).or (ds.find? fun d => d.Heads buffer) := by
  simp [findPrefix?, List.find?_append]

theorem mem_of_findPrefix? {R : Basis} {buffer : Text} {d : Combinator}
    (h : R.findPrefix? buffer = some d) : d ∈ R.combinators :=
  List.mem_of_find?_eq_some h

theorem isPrefix_of_findPrefix? {R : Basis} {buffer : Text} {d : Combinator}
    (h : R.findPrefix? buffer = some d) : d.name <+: buffer := by
  have hd := List.find?_some h
  exact of_decide_eq_true hd

theorem mem_of_lookup? {R : Basis} {name : Text} {d : Combinator}
    (h : R.lookup? name = some d) : d ∈ R.combinators :=
  List.mem_of_find?_eq_some h

theorem name_of_lookup? {R : Basis} {name : Text} {d : Combinator}
    (h : R.lookup? name = some d) : d.name = name := by
  have hd := List.find?_some h
  exact of_decide_eq_true hd

end Basis

end Combinatory
