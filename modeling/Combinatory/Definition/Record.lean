import Combinatory.Combinator
import Combinatory.Text.Number

/-!
# Definition records

A combinator is defined by a record of two or three fields: its name, its arity unless it is a
constant, and its template. Fields come from a line of text or from outside as values of several
kinds.

`Combinator.ofRecord` makes a combinator of a record. It refuses an arity that is no number, an empty
name and a negative arity, in this order.
-/

namespace Combinatory

/-- A value given as a field, or as a whole record. -/
inductive Field where
  | text (t : Text)
  | number (n : Int)
  | flag (value : Bool)
  | absent
  | list (items : List Field)
  deriving Inhabited

namespace Field

mutual

/-- A field as it is shown in a message. -/
def written : Field → Text
  | .text t => Text.quoted t
  | .number n => Text.ofInt n
  | .flag true => "True".toList
  | .flag false => "False".toList
  | .absent => "None".toList
  | .list items => '[' :: listed items ++ [']']

/-- Fields as they are shown in a message, with commas between them. -/
def listed : List Field → Text
  | [] => []
  | [f] => written f
  | f :: g :: fs => written f ++ ", ".toList ++ listed (g :: fs)

end

/-- A record as it is shown in a message; a single field is followed by a comma. -/
def tuple : List Field → Text
  | [f] => '(' :: written f ++ ",)".toList
  | fs => '(' :: listed fs ++ [')']

/-- The text that a field gives. -/
def plain : Field → Text
  | .text t => t
  | f => f.written

/-- The records of a batch; a text is a batch of its characters. -/
def batch : Field → List Field
  | .list items => items
  | .text t => t.map fun c => .text [c]
  | f => [f]

/-- Whether a field is a text, a number or a flag. -/
def isAtom : Field → Bool
  | .text _ | .number _ | .flag _ => true
  | .absent | .list _ => false

end Field

/-- Why a record defines no combinator. -/
inductive DefinitionError where
  | emptyName
  | negativeArity (name : Text) (arity : Int)
  | arityNotNumber (name arity : Text)
  /-- A text was given where a record should be. -/
  | notFields (value : Field)
  | fieldCount (fields : List Field)

def DefinitionError.message : DefinitionError → Text
  | .emptyName => "combinator name must not be empty".toList
  | .negativeArity name arity =>
    "arity of ".toList ++ Text.quoted name ++ " must not be negative: ".toList ++ Text.ofInt arity
  | .arityNotNumber name arity =>
    "arity of ".toList ++ Text.quoted name ++ " is not a number: ".toList ++ Text.quoted arity
  | .notFields value =>
    "expected a sequence of fields, got a string: ".toList ++ value.written
  | .fieldCount fields =>
    "expected 2 or 3 fields, got ".toList ++ Text.ofNat fields.length ++ ": ".toList ++
      Field.tuple fields

/-- A definition in three texts. -/
structure Record where
  name : Text
  arity : Text
  template : Text
  deriving DecidableEq

namespace Record

/-- The record of two or three fields; the arity of a constant is left out. -/
def ofFields : List Field → Except DefinitionError Record
  | [name, template] => .ok ⟨name.plain, ['0'], template.plain⟩
  | [name, arity, template] => .ok ⟨name.plain, arity.plain, template.plain⟩
  | fields => .error (.fieldCount fields)

def ofField : Field → Except DefinitionError Record
  | .list fields => ofFields fields
  | value => .error (.notFields value)

end Record

namespace Combinator

def make (name : Text) (arity : Int) (template : Text) : Except DefinitionError Combinator :=
  if h : name = [] then .error .emptyName
  else if arity < 0 then .error (.negativeArity name arity)
  else .ok ⟨name, arity.toNat, template, h⟩

def ofRecord (r : Record) : Except DefinitionError Combinator :=
  match Text.toInt? r.arity with
  | none => .error (.arityNotNumber r.name r.arity)
  | some arity => make r.name arity r.template

def ofField (value : Field) : Except DefinitionError Combinator :=
  Record.ofField value >>= ofRecord

/-- The record that defines a combinator. -/
def record (d : Combinator) : Record := ⟨d.name, Text.ofNat d.arity, d.template⟩

end Combinator

end Combinatory
