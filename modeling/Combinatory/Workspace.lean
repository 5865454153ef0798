import Combinatory.Definition.Load
import Combinatory.Reduction.Run

/-!
# Workspaces

A workspace holds bases and reductions under names. Several names may stand for one basis, and several
reductions may use it: what is appended under one name shows under all of them.

`Workspace.perform` carries out a command. When the command fails, no basis has changed, and a
reduction stands where its last step left it.
-/

namespace Combinatory

/-! ## Starting a reduction -/

/-- Definitions that a reduction is started with. -/
inductive ExtraDefinitions where
  | combinator (d : Combinator)
  /-- One record, or a batch of them. -/
  | given (value : Field)

/-- The combinators of extra definitions. A list of texts, numbers and flags is one record; any other
value is a batch. -/
def ExtraDefinitions.combinators : ExtraDefinitions → Except DefinitionError (List Combinator)
  | .combinator d => .ok [d]
  | .given value =>
    match value with
    | .list (f :: fs) =>
      if (f :: fs).all Field.isAtom then Basis.define [value] else Basis.define (f :: fs)
    | value => Basis.define value.batch

inductive StartError where
  | definition (error : DefinitionError)
  /-- Definitions go with a new basis, not with a shared one. -/
  | sharedBasis

def StartError.message : StartError → Text
  | .definition e => e.message
  | .sharedBasis => "Pass either definitions or a registry, not both".toList

/-- The new basis of a reduction that shares none: the standard one with the extra definitions. -/
def Basis.withExtra (extra : Option ExtraDefinitions) : Except StartError Basis :=
  match extra with
  | none => .ok .standard
  | some extra =>
    match extra.combinators with
    | .error e => .error (.definition e)
    | .ok ds => .ok (Basis.standard.extend ds)

/-- The basis of a reduction: the shared one if there is one, or else a new one. -/
def Basis.forReduction (shared : Option Basis) (extra : Option ExtraDefinitions) :
    Except StartError Basis :=
  match shared, extra with
  | none, extra => Basis.withExtra extra
  | some R, none => .ok R
  | some _, some _ => .error .sharedBasis

/-! ## Commands -/

/-- Where a new basis comes from. -/
inductive BasisSource where
  | standard
  | empty
  | fields (values : List Field) (builtins : Bool)
  | document (text : Text) (builtins : Bool)
  | file (path : Text) (builtins : Bool)
  /-- A basis of its own with the same combinators. -/
  | copyOf (name : Text)

/-- What is asked of a basis. -/
inductive BasisQuery where
  | findPrefix (buffer : Text)
  | lookup (name : Text)
  | get (name : Text)
  | contains (name : Text)
  | names
  | records
  | document (title : Option Text)
  | lines
  | size
  | describe

/-- What is done to a basis. -/
inductive BasisChange where
  | append (value : Field)
  | extend (values : List Field)
  | set (values : List Field)
  | loadText (text : Text)
  | loadFile (path : Text)
  | extendFrom (name : Text)

/-- What is done to a reduction, or asked of it. -/
inductive ReductionAction where
  | step
  /-- So many steps, whether or not they progress. -/
  | steps (n : Nat)
  | feed (text : Text)
  | run (maxSteps : Int)
  | info

/-- A command to a workspace. -/
inductive WorkspaceCommand where
  | makeBasis (name : Text) (source : BasisSource)
  /-- Gives a further name to the basis of a reduction. -/
  | shareBasis (name reduction : Text)
  | changeBasis (name : Text) (change : BasisChange)
  | askBasis (name : Text) (query : BasisQuery)
  | makeReduction (name buffer : Text) (shared : Option Text) (extra : Option ExtraDefinitions)
      (limit : Option Int)
  | act (name : Text) (action : ReductionAction)

/-- What is told about a reduction. -/
structure ReductionInfo where
  balanced : Bool
  terms : Nat
  describe : Text
  names : List Text

inductive WorkspaceAnswer where
  | done
  | text (t : Text)
  | texts (ts : List Text)
  | found (d : Option Combinator)
  | decision (holds : Bool)
  | records (rs : List Record)
  | count (n : Nat)
  | step (s : Step)
  | trace (buffer : Text) (t : Trace)
  | info (i : ReductionInfo)

inductive WorkspaceError where
  | definition (error : DefinitionError)
  | document (error : DocumentError)
  | load (error : LoadError)
  | start (error : StartError)
  | fault (fault : Fault)
  | noCombinator (name : Text)
  /-- The workspace holds nothing under this name. -/
  | unknownName (name : Text)

def WorkspaceError.message : WorkspaceError → Text
  | .definition e => e.message
  | .document e => e.message
  | .load e => e.message
  | .start e => e.message
  | .fault f => f.message
  | .noCombinator name => "No combinator named \x27".toList ++ name ++ ['\x27']
  | .unknownName name => "Nothing is named \x27".toList ++ name ++ ['\x27']

/-! ## Workspaces -/

/-- Binds a name, in the place of its earlier binding if there is one. -/
def assign {α : Type} (name : Text) (value : α) : List (Text × α) → List (Text × α)
  | [] => [(name, value)]
  | (other, old) :: rest =>
    if other = name then (name, value) :: rest else (other, old) :: assign name value rest

/-- Bases and reductions under names. -/
structure Workspace where
  /-- All bases ever made, in order; names refer to them by position. -/
  bases : List Basis
  basisNames : List (Text × Nat)
  /-- The reductions, each with the position of its basis. -/
  reductions : List (Text × Nat × Reduction)
  /-- The room of the reductions that are started. -/
  room : Room := {}

namespace Workspace

def empty (room : Room := {}) : Workspace := ⟨[], [], [], room⟩

/-- The basis with the given name, and its position. -/
def basis? (w : Workspace) (name : Text) : Option (Nat × Basis) := do
  let place ← w.basisNames.lookup name
  return (place, ← w.bases[place]?)

/-- The reduction with the given name, and its basis with its position. -/
def reduction? (w : Workspace) (name : Text) : Option (Nat × Basis × Reduction) := do
  let (place, r) ← w.reductions.lookup name
  return (place, ← w.bases[place]?, r)

/-- Gives a name to the basis at a position. -/
def nameBasis (w : Workspace) (name : Text) (place : Nat) : Workspace :=
  { w with basisNames := assign name place w.basisNames }

/-- Adds a basis without name; its position is the number of the bases before. -/
def addBasis (w : Workspace) (R : Basis) : Workspace := { w with bases := w.bases ++ [R] }

def setBasis (w : Workspace) (place : Nat) (R : Basis) : Workspace :=
  { w with bases := w.bases.set place R }

def setReduction (w : Workspace) (name : Text) (place : Nat) (r : Reduction) : Workspace :=
  { w with reductions := assign name (place, r) w.reductions }

def newBasis (w : Workspace) (fs : FileSystem) : BasisSource → Except WorkspaceError Basis
  | .standard => .ok .standard
  | .empty => .ok .empty
  | .fields values builtins =>
    ((Basis.initial builtins).extendFields values).mapError .definition
  | .document text builtins => ((Basis.initial builtins).extendDocument text).mapError .document
  | .file path builtins => ((Basis.initial builtins).extendFile fs (.parse path)).mapError .load
  | .copyOf name =>
    match w.basis? name with
    | some (_, R) => .ok R
    | none => .error (.unknownName name)

def changed (w : Workspace) (fs : FileSystem) (R : Basis) :
    BasisChange → Except WorkspaceError Basis
  | .append value => ((Combinator.ofField value).map R.append).mapError .definition
  | .extend values => (R.extendFields values).mapError .definition
  | .set values => ((Basis.define values).map Basis.mk).mapError .definition
  | .loadText text => (R.extendDocument text).mapError .document
  | .loadFile path => (R.extendFile fs (.parse path)).mapError .load
  | .extendFrom name =>
    match w.basis? name with
    | some (_, other) => .ok (R.extend other.combinators)
    | none => .error (.unknownName name)

def ask (R : Basis) : BasisQuery → Except WorkspaceError WorkspaceAnswer
  | .findPrefix buffer => .ok (.found (R.findPrefix? buffer))
  | .lookup name => .ok (.found (R.lookup? name))
  | .get name =>
    match R.lookup? name with
    | some d => .ok (.found (some d))
    | none => .error (.noCombinator name)
  | .contains name => .ok (.decision (R.lookup? name).isSome)
  | .names => .ok (.texts R.names)
  | .records => .ok (.records R.records)
  | .document title => .ok (.text (R.document title))
  | .lines => .ok (.texts (R.combinators.map Combinator.line))
  | .size => .ok (.count R.size)
  | .describe => .ok (.text R.describe)

/-- The position of the basis of a new reduction: of the shared one, or of a new one. -/
def placeFor (w : Workspace) (shared : Option Text) (extra : Option ExtraDefinitions) :
    Except WorkspaceError (Workspace × Nat) :=
  match shared with
  | none => ((Basis.withExtra extra).mapError .start).map fun R => (w.addBasis R, w.bases.length)
  | some name =>
    match w.basis? name, extra with
    | none, _ => .error (.unknownName name)
    | some (place, _), none => .ok (w, place)
    | some _, some _ => .error (.start .sharedBasis)

/-- Makes `n` steps, whether or not they progress, and gives their labels. -/
def makeSteps (R : Basis) : Nat → Reduction → Reduction × Except Fault (List Text)
  | 0, r => (r, .ok [])
  | n + 1, r =>
    match r.step R with
    | (r, .error f) => (r, .error f)
    | (r, .ok s) =>
      let (last, labels) := makeSteps R n r
      (last, labels.map (s.label :: ·))

/-- The reduction after an action, and the answer. -/
def act (R : Basis) (r : Reduction) :
    ReductionAction → Reduction × Except WorkspaceError WorkspaceAnswer
  | .step =>
    let (r, s) := r.step R
    (r, (s.mapError .fault).map .step)
  | .steps n =>
    let (r, labels) := makeSteps R n r
    (r, (labels.mapError .fault).map .texts)
  | .feed text => (r.feed text, .ok .done)
  | .run maxSteps =>
    let (r, t) := r.run R maxSteps
    (r, (t.mapError .fault).map fun t => .trace r.buffer t)
  | .info =>
    (r, .ok (.info ⟨Balanced r.buffer, R.termCount r.buffer, r.describe, R.names⟩))

def perform (w : Workspace) (fs : FileSystem) :
    WorkspaceCommand → Workspace × Except WorkspaceError WorkspaceAnswer
  | .makeBasis name source =>
    match w.newBasis fs source with
    | .error e => (w, .error e)
    | .ok R => ((w.addBasis R).nameBasis name w.bases.length, .ok (.text R.describe))
  | .shareBasis name reduction =>
    match w.reduction? reduction with
    | none => (w, .error (.unknownName reduction))
    | some (place, R, _) => (w.nameBasis name place, .ok (.text R.describe))
  | .changeBasis name change =>
    match w.basis? name with
    | none => (w, .error (.unknownName name))
    | some (place, R) =>
      match w.changed fs R change with
      | .error e => (w, .error e)
      | .ok R => (w.setBasis place R, .ok .done)
  | .askBasis name query =>
    match w.basis? name with
    | none => (w, .error (.unknownName name))
    | some (_, R) => (w, ask R query)
  | .makeReduction name buffer shared extra limit =>
    match w.placeFor shared extra with
    | .error e => (w, .error e)
    | .ok (w, place) =>
      let r : Reduction := { buffer, bounds := { toRoom := w.room, limit } }
      (w.setReduction name place r, .ok (.text r.describe))
  | .act name action =>
    match w.reduction? name with
    | none => (w, .error (.unknownName name))
    | some (place, R, r) =>
      let (r, answer) := act R r action
      (w.setReduction name place r, answer)

end Workspace

end Combinatory
