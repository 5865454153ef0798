import Combinatory.Term
import Combinatory.Reduction.Template

/-!
# Steps

A step reduces the head of a buffer once. What it does is decided by the term at the head
(`Basis.plan`):

* a combinator takes its arguments and is replaced by its filled template, or is stuck for want of
  arguments;
* a compound is reduced on its own to a text that no step changes, and gives up its brackets;
* anything else cannot be reduced.

A step that reduces nothing puts the pieces of the buffer together again; that this is the buffer as it
was is proved from the cutting (`Basis.Cut.putBack_eq`).

`Basis.stepAt_of_enter` says that a step enters brackets by reducing their inside as
`Basis.reduceCompound` does.
-/

namespace Combinatory

inductive StepKind where
  /-- A combinator was applied. -/
  | rule
  /-- A compound was reduced inside. -/
  | compound
  /-- A combinator lacks arguments. -/
  | stuck
  /-- The head is never reduced. -/
  | irreducible
  /-- There is no head. -/
  | empty
  /-- Any other word, in a trace that was not made by a run. -/
  | other (word : Text)
  deriving DecidableEq, Repr

def StepKind.label : StepKind → Text
  | .rule => "rule".toList
  | .compound => "compound".toList
  | .stuck => "stuck".toList
  | .irreducible => "irreducible".toList
  | .empty => "empty".toList
  | .other word => word

def StepKind.ofLabel (word : Text) : StepKind :=
  ([.rule, .compound, .stuck, .irreducible, .empty].find? (·.label = word)).getD (.other word)

/-- What one step did to a buffer. -/
structure Step where
  kind : StepKind
  /-- The term at the head. -/
  term : Option Term
  before : Text
  after : Text
  /-- Whether something was reduced. -/
  progressed : Bool
  /-- The combinator at the head. -/
  combinator : Option Combinator
  deriving DecidableEq

namespace Step

/-- The step that leaves the buffer as it was. -/
def stay (kind : StepKind) (term : Option Term) (combinator : Option Combinator) (buffer : Text) :
    Step :=
  ⟨kind, term, buffer, buffer, false, combinator⟩

/-- The step that puts the head back in front of what was cut off behind it. -/
def putBack (kind : StepKind) (head : Term) (combinator : Option Combinator) (buffer rest : Text) :
    Step :=
  ⟨kind, some head, buffer, head.text ++ rest, false, combinator⟩

/-- The name of the combinator at the head, or else what kind of step it was. -/
def label (s : Step) : Text :=
  match s.combinator, s.kind with
  | some d, _ => d.name
  | none, .compound => "(...)".toList
  | none, kind => kind.label

def describe (s : Step) : Text := s.label ++ ": ".toList ++ s.before ++ " → ".toList ++ s.after

end Step

namespace Basis

/-- The texts of the first `n` terms of a buffer, or of all when there are fewer, and the rest of the
buffer. -/
def collect (R : Basis) : Nat → Text → List Text × Text
  | 0, buffer => ([], buffer)
  | n + 1, buffer =>
    match R.takeTerm? buffer with
    | none => ([], buffer)
    | some (t, rest) =>
      let (args, rest) := R.collect n rest
      (t.text :: args, rest)

/-- The step that applies a combinator: `head` and `rest` are the parts of the buffer. -/
def apply (R : Basis) (d : Combinator) (head : Term) (buffer rest : Text) : Except Fault Step :=
  if d.isConstant then
    .ok ⟨.rule, some head, buffer, d.template ++ rest, true, some d⟩
  else
    let (args, rest) := R.collect d.arity rest
    if args.length < d.arity then
      .ok (.putBack .stuck head (some d) buffer (args.flatten ++ rest))
    else
      match substitute d.template args with
      | .error f => .error f
      | .ok result => .ok ⟨.rule, some head, buffer, result ++ rest, true, some d⟩

/-- How a step begins: it is finished at once, or the inside of a compound is reduced first. -/
inductive Plan where
  | finished (outcome : Except Fault Step)
  | enter (head : Term) (rest : Text)

/-- How a step on a buffer begins. -/
def plan (R : Basis) (buffer : Text) : Plan :=
  match R.takeTerm? buffer with
  | none => .finished (.ok (.stay .empty none none buffer))
  | some (head, rest) =>
    match R.lookup? head.text with
    | some d => .finished (R.apply d head buffer rest)
    | none =>
      if head.kind = .compound then .enter head rest
      else .finished (.ok (.putBack .irreducible head none buffer rest))

end Basis

/-- The step on a compound whose inside was reduced to `result`. -/
def Step.leave (head : Term) (buffer rest result : Text) : Step :=
  if result = [] then .putBack .compound head none buffer rest
  else ⟨.compound, some head, buffer, result ++ rest, true, none⟩

/-! ## Reduction inside brackets -/

/-- What the machine admits, whatever is asked of it. The values are those of a usual machine; nothing
but a run of the program depends on them. -/
structure Room where
  /-- How many compounds may be entered inside one another. -/
  depth : Nat := 300
  /-- After how many steps a compound without limit is given up. -/
  patience : Nat := 1000000000
  deriving DecidableEq

/-- What one step may spend inside brackets. -/
structure Bounds extends Room where
  /-- How many steps every compound may take; `none` sets no limit. -/
  limit : Option Int := none
  deriving DecidableEq

namespace Bounds

/-- How many steps a compound is given. -/
def fuel (B : Bounds) : Nat :=
  match B.limit with
  | some n => n.toNat
  | none => B.patience

/-- The fault of an expression that has spent its steps. -/
def exhausted (B : Bounds) (expression : Text) : Fault :=
  match B.limit with
  | some n => .stepLimit expression n
  | none => .unsettled expression

theorem fuel_of_limit {B : Bounds} {n : Int} (h : B.limit = some n) : B.fuel = n.toNat := by
  unfold fuel
  rw [h]

theorem exhausted_of_limit {B : Bounds} {n : Int} (h : B.limit = some n) (expression : Text) :
    B.exhausted expression = .stepLimit expression n := by
  unfold exhausted
  rw [h]

end Bounds

/-- Makes at most `n` steps, until one does not progress; with the last buffer comes whether that
happened. -/
def advance (step : Text → Except Fault Step) : Nat → Text → Except Fault (Text × Bool)
  | 0, buffer => .ok (buffer, false)
  | n + 1, buffer =>
    match step buffer with
    | .error f => .error f
    | .ok s => if s.progressed then advance step n s.after else .ok (s.after, true)

/-- A loop goes on behind a step that progresses. -/
theorem advance_of_progressed {step : Text → Except Fault Step} {buffer : Text} {s : Step}
    (h : step buffer = .ok s) (hp : s.progressed = true) (n : Nat) :
    advance step (n + 1) buffer = advance step n s.after := by
  rw [advance, h]
  exact if_pos hp

/-- A loop ends at a step that does not progress. -/
theorem advance_of_stay {step : Text → Except Fault Step} {buffer : Text} {s : Step}
    (h : step buffer = .ok s) (hp : s.progressed = false) (n : Nat) :
    advance step (n + 1) buffer = .ok (s.after, true) := by
  unfold advance
  rw [h]
  dsimp only
  rw [hp, if_neg Bool.false_ne_true]

/-- The result of reducing an expression, of which the last buffer is known. -/
def Bounds.settled (B : Bounds) (expression : Text) :
    Except Fault (Text × Bool) → Except Fault Text
  | .error f => .error f
  | .ok (result, true) => .ok result
  | .ok (_, false) => .error (B.exhausted expression)

/-- Reduces an expression until a step does not progress. -/
def settle (B : Bounds) (step : Text → Except Fault Step) (expression : Text) : Except Fault Text :=
  B.settled expression (advance step B.fuel expression)

namespace Basis

/-- One step on a buffer, with `depth` compounds that may be entered inside one another. -/
def stepAt (R : Basis) (B : Bounds) (depth : Nat) (buffer : Text) : Except Fault Step :=
  match R.plan buffer with
  | .finished outcome => outcome
  | .enter head rest =>
    match depth with
    | 0 => .error .tooDeep
    | d + 1 => (settle B (R.stepAt B d) head.interior).map (Step.leave head buffer rest)

def step (R : Basis) (B : Bounds) (buffer : Text) : Except Fault Step := R.stepAt B B.depth buffer

/-- Reduces an expression that stands inside brackets, where `depth` compounds may be entered, that of
the expression included. -/
def settleAt (R : Basis) (B : Bounds) : Nat → Text → Except Fault Text
  | 0, _ => .error .tooDeep
  | d + 1, expression => settle B (R.stepAt B d) expression

/-- Reduces the inside of a compound; the result stands without brackets. -/
def reduceCompound (R : Basis) (B : Bounds) (t : Term) : Except Fault Text :=
  match t.interior? with
  | none => .error (.notCompound t.text)
  | some expression => R.settleAt B B.depth expression

theorem reduceCompound_of_compound {t : Term} (ht : t.kind = .compound) (R : Basis) (B : Bounds) :
    R.reduceCompound B t = R.settleAt B B.depth t.interior := by
  unfold reduceCompound Term.interior?
  rw [if_pos ht]

theorem stepAt_of_finished {R : Basis} {buffer : Text} {outcome : Except Fault Step}
    (h : R.plan buffer = .finished outcome) (B : Bounds) (depth : Nat) :
    R.stepAt B depth buffer = outcome := by
  unfold stepAt
  rw [h]

theorem stepAt_of_enter {R : Basis} {buffer rest : Text} {head : Term}
    (h : R.plan buffer = .enter head rest) (B : Bounds) (depth : Nat) :
    R.stepAt B depth buffer =
      (R.settleAt B depth head.interior).map (Step.leave head buffer rest) := by
  unfold stepAt
  rw [h]
  cases depth <;> rfl

end Basis

end Combinatory
