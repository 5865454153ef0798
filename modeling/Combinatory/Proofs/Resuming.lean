import Combinatory.Proofs.Walk
import Mathlib.Algebra.Group.Nat.Defs

/-!
# Runs that are resumed

A run that has spent its number of steps may be resumed by another one. The number of steps may be
divided between the two as one likes, even where the run would have stopped before or where a step
fails; together they are one run.

1. What a walk has recorded before does not change what it does (`Reduction.walk_done`).
2. A walk of `m + n` steps is a walk of `m` steps and then one of `n`, unless the first one fails
   (`Reduction.walk_add`). If the first one stops before it has spent its number, the step at which it
   stopped has cleared the flag, and the second one makes no step.
3. So is a run (`Reduction.run_add`), and the account of it is put together from the two
   (`Trace.resumed`).

`Reduction.run_resumed` says both for runs that do not fail and for those that do.
-/

namespace Combinatory

/-- The account of a run that was resumed, from the accounts of its two parts. -/
def Trace.resumed (a b : Trace) : Trace := ⟨a.initial, a.steps ++ b.steps, b.final, b.settled⟩

namespace Reduction

variable {R : Basis} {r : Reduction}

theorem walk_done (R : Basis) (n : Nat) (done : List Step) (r : Reduction) :
    r.walk R n done = ((r.walk R n []).1, (r.walk R n []).2.map (· ++ done)) := by
  induction n generalizing done r with
  | zero => rfl
  | succ n ih =>
    by_cases hr : r.canStep = true
    · rcases h : r.step R with ⟨q, f | s⟩
      · rw [walk_succ_of_error hr h, walk_succ_of_error hr h]
        rfl
      · rw [walk_succ_of_ok hr h, walk_succ_of_ok hr h, ih (if s.progressed then s :: done else done),
          ih (if s.progressed then [s] else [])]
        rcases q.walk R n [] with ⟨last, f | steps⟩
        · rfl
        · cases s.progressed <;> simp [Except.map]
    · rw [Bool.not_eq_true] at hr
      rw [walk_of_not_canStep hr, walk_of_not_canStep hr]
      rfl

/-- **A walk goes on where it has come to**, unless it has failed. -/
theorem walk_add (R : Basis) (m n : Nat) (done : List Step) (r : Reduction) :
    r.walk R (m + n) done =
      match r.walk R m done with
      | (mid, .error f) => (mid, .error f)
      | (mid, .ok done') => mid.walk R n done' := by
  induction m generalizing done r with
  | zero =>
    rw [Nat.zero_add]
    rfl
  | succ m ih =>
    rw [Nat.succ_add]
    by_cases hr : r.canStep = true
    · rcases h : r.step R with ⟨q, f | s⟩
      · rw [walk_succ_of_error hr h, walk_succ_of_error hr h]
      · rw [walk_succ_of_ok hr h, walk_succ_of_ok hr h]
        exact ih _ q
    · rw [Bool.not_eq_true] at hr
      rw [walk_of_not_canStep hr, walk_of_not_canStep hr]
      exact (walk_of_not_canStep hr n done).symm

theorem run_natCast (R : Basis) (n : Nat) (r : Reduction) :
    r.run R n =
      ((r.walk R n []).1, (r.walk R n []).2.map fun done =>
        ⟨r.buffer, done.reverse, (r.walk R n []).1.buffer, !(r.walk R n []).1.canStep⟩) := by
  unfold run
  rw [Int.toNat_natCast]
  rcases r.walk R n [] with ⟨last, f | done⟩ <;> rfl

/-- **A run goes on where it has come to**, unless it has failed. -/
theorem run_add (R : Basis) (m n : Nat) (r : Reduction) :
    r.run R (m + n) =
      match r.run R m with
      | (mid, .error f) => (mid, .error f)
      | (mid, .ok a) => ((mid.run R n).1, (mid.run R n).2.map a.resumed) := by
  rw [← Int.natCast_add, run_natCast, run_natCast, walk_add]
  rcases r.walk R m [] with ⟨mid, f | done⟩
  · rfl
  · dsimp only [Except.map]
    rw [run_natCast, walk_done R n done mid]
    rcases mid.walk R n [] with ⟨last, f | steps⟩
    · rfl
    · simp [Except.map, Trace.resumed]

/-- **Running is additive.** From any reduction, with its flag set or cleared, a run of at most `m + n`
steps ends well exactly if a run of at most `m` steps does and one of at most `n` steps that resumes it.
Then the two leave the buffer and the flag that the one run leaves, the steps recorded in the one are
those recorded in the first and then those recorded in the second, and it is settled exactly if the
second is. The one run fails exactly if the first of the two fails, or the first does not and the
second does; the fault is the same, and so is the reduction that is left. -/
theorem run_resumed (R : Basis) (m n : Nat) (r : Reduction) :
    (∀ last t, r.run R (m + n) = (last, .ok t) ↔
      ∃ mid a b, r.run R m = (mid, .ok a) ∧ mid.run R n = (last, .ok b) ∧
        t = ⟨a.initial, a.steps ++ b.steps, b.final, b.settled⟩) ∧
    ∀ last f, r.run R (m + n) = (last, .error f) ↔
      r.run R m = (last, .error f) ∨
        ∃ mid a, r.run R m = (mid, .ok a) ∧ mid.run R n = (last, .error f) := by
  rw [run_add]
  rcases r.run R m with ⟨mid, f | a⟩
  · simp
  · dsimp only
    rcases hsecond : mid.run R n with ⟨q, g | b⟩
    · simp [Except.map, hsecond]
    · simp [Except.map, hsecond, Trace.resumed, eq_comm]

end Reduction

end Combinatory
