import Combinatory.File.Path
import Combinatory.Reduction.Run

/-!
# Narration

What happens during a step or a run, told event by event: every step made, also inside brackets and
also one that does not progress, and before a step that is stuck the arguments it found. A step that
fails is not told, but those that led up to it are.

`Basis.narrateStep` makes the very step that `Basis.stepAt` makes
(`Basis.narrateStep_result`).
-/

namespace Combinatory

inductive Event where
  | stepped (s : Step)
  | stuck (d : Combinator) (collected : Nat)
  /-- A definition that cannot be applied was appended to a basis. -/
  | unusable (d : Combinator)
  | read (count : Nat) (p : Path)
  | loaded (count : Nat) (p : Path)

def Event.line : Event → Text
  | .stepped s => "clstep.engine: ".toList ++ s.describe
  | .stuck d collected =>
    "clstep.engine: ".toList ++ d.name ++ " stuck with ".toList ++ Text.ofNat collected ++
      " of ".toList ++ Text.ofNat d.arity ++ " arguments".toList
  | .unusable d =>
    "clstep.registry: Definition ".toList ++ d.describe ++
      " refers to arguments it never collects".toList
  | .read count p =>
    "clstep.registry: Read ".toList ++ Text.ofNat count ++ " definitions from ".toList ++ p.text
  | .loaded count p =>
    "clstep.registry: Loaded ".toList ++ Text.ofNat count ++ " combinators from ".toList ++ p.text

/-- The events of a step that is finished without entering brackets. -/
def Basis.ownEvents (R : Basis) : Except Fault Step → List Event
  | .error _ => []
  | .ok s =>
    match s.kind, s.combinator with
    | .stuck, some d => [.stuck d (R.termCount s.before - 1), .stepped s]
    | _, _ => [.stepped s]

/-- Makes at most `n` steps, until one does not progress, and tells them after the events in `told`,
the last of which comes first. -/
def narrateAdvance (step : Text → List Event × Except Fault Step) :
    Nat → List Event → Text → List Event × Except Fault (Text × Bool)
  | 0, told, buffer => (told, .ok (buffer, false))
  | n + 1, told, buffer =>
    match step buffer with
    | (events, .error f) => (events.reverse ++ told, .error f)
    | (events, .ok s) =>
      if s.progressed then narrateAdvance step n (events.reverse ++ told) s.after
      else (events.reverse ++ told, .ok (s.after, true))

/-- One step on a buffer with its events. -/
def Basis.narrateStep (R : Basis) (B : Bounds) (depth : Nat) (buffer : Text) :
    List Event × Except Fault Step :=
  match R.plan buffer with
  | .finished outcome => (R.ownEvents outcome, outcome)
  | .enter head rest =>
    match depth with
    | 0 => ([], .error .tooDeep)
    | d + 1 =>
      let (told, last) := narrateAdvance (R.narrateStep B d) B.fuel [] head.interior
      let outcome := (B.settled head.interior last).map (Step.leave head buffer rest)
      (told.reverse ++ R.ownEvents outcome, outcome)

/-- The events of a run of at most `n` steps. -/
def Basis.narrateRun (R : Basis) (B : Bounds) (n : Nat) (buffer : Text) : List Event :=
  (narrateAdvance (R.narrateStep B B.depth) n [] buffer).1.reverse

theorem Basis.narrateStep_of_finished {R : Basis} {buffer : Text} {outcome : Except Fault Step}
    (h : R.plan buffer = .finished outcome) (B : Bounds) (depth : Nat) :
    R.narrateStep B depth buffer = (R.ownEvents outcome, outcome) := by
  unfold narrateStep
  rw [h]

theorem Basis.narrateStep_of_enter {R : Basis} {buffer rest : Text} {head : Term}
    (h : R.plan buffer = .enter head rest) (B : Bounds) (d : Nat) :
    (R.narrateStep B (d + 1) buffer).1 =
      (narrateAdvance (R.narrateStep B d) B.fuel [] head.interior).1.reverse ++
        R.ownEvents (R.narrateStep B (d + 1) buffer).2 := by
  unfold narrateStep
  rw [h]

theorem narrateAdvance_result {step : Text → List Event × Except Fault Step} (n : Nat)
    (told : List Event) (buffer : Text) :
    (narrateAdvance step n told buffer).2 = advance (fun b => (step b).2) n buffer := by
  induction n generalizing told buffer with
  | zero => rfl
  | succ n ih =>
    unfold narrateAdvance advance
    rcases step buffer with ⟨events, f | s⟩
    · rfl
    · dsimp only
      split
      · exact ih _ _
      · rfl

theorem Basis.narrateStep_result (R : Basis) (B : Bounds) (depth : Nat) (buffer : Text) :
    (R.narrateStep B depth buffer).2 = R.stepAt B depth buffer := by
  induction depth generalizing buffer with
  | zero => unfold narrateStep stepAt; cases R.plan buffer <;> rfl
  | succ d ih =>
    have hstep : (fun b => (R.narrateStep B d b).2) = R.stepAt B d := funext ih
    unfold narrateStep stepAt
    cases R.plan buffer with
    | finished outcome => rfl
    | enter head rest => simp only [settle, ← hstep, narrateAdvance_result]

end Combinatory
