import Combinatory.Reduction.Trace

/-!
# Reductions

A reduction is a buffer under way, with the flag that says whether a step may still find something to
reduce. Its basis is given with every operation, as several reductions may share one.

An operation that fails gives back the reduction as well: after a step that fails it is as before, and
after a run that fails it is as after the last step that did not.
-/

namespace Combinatory

/-- A buffer under way. -/
structure Reduction where
  buffer : Text
  /-- What a step may spend inside brackets. -/
  bounds : Bounds
  /-- False once a step has found nothing to reduce. -/
  canStep : Bool := true
  deriving DecidableEq

namespace Reduction

def step (R : Basis) (r : Reduction) : Reduction × Except Fault Step :=
  match R.step r.bounds r.buffer with
  | .error f => (r, .error f)
  | .ok s => ({ r with buffer := s.after, canStep := s.progressed }, .ok s)

/-- Adds text at the end of the buffer; a stuck head may now find its arguments. -/
def feed (r : Reduction) (text : Text) : Reduction :=
  { r with buffer := r.buffer ++ text, canStep := true }

/-- Makes at most `n` steps, until one does not progress. The steps that progressed are put before
those in `done`, the last of them first. -/
def walk (R : Basis) : Nat → List Step → Reduction → Reduction × Except Fault (List Step)
  | 0, done, r => (r, .ok done)
  | n + 1, done, r =>
    if r.canStep then
      match r.step R with
      | (r, .error f) => (r, .error f)
      | (r, .ok s) => walk R n (if s.progressed then s :: done else done) r
    else (r, .ok done)

/-- Makes at most `maxSteps` steps, until one does not progress. -/
def run (R : Basis) (maxSteps : Int) (r : Reduction) : Reduction × Except Fault Trace :=
  match r.walk R maxSteps.toNat [] with
  | (last, .error f) => (last, .error f)
  | (last, .ok done) => (last, .ok ⟨r.buffer, done.reverse, last.buffer, !last.canStep⟩)

def describe (r : Reduction) : Text :=
  "ReductionEngine(".toList ++ Text.quoted r.buffer ++ ", can_step=".toList ++
    (Field.flag r.canStep).written ++ ")".toList

end Reduction

end Combinatory
