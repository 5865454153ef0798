import Combinatory.Proofs.Limits

/-!
# Inside brackets and on its own

The reduction of an expression inside brackets is compared with a reduction of the same expression that
stands on its own.

1. An expression that is named for having spent its steps has spent them, however deep inside brackets
   it stood (`Basis.exists_spent_of_stepAt`). On its own it makes as many steps, which all progress, and
   none of them fails (`Reduction.culprit_of_stepLimit`).
2. So a run never fails with its own expression named for having spent its steps
   (`Reduction.run_ne_stepLimit`): when a compound fails so, that fault is its own.
3. The loop inside brackets looks at the number of its steps and then at the flag, and a run on its own
   the other way round; they end alike (`Basis.reduceCompound_eq_run`).

`Reduction.agrees_reduceCompound` puts the last two together.
-/

namespace Combinatory

variable {R : Basis} {B : Bounds} {x : Text} {n m : Int}

/-! ## Where steps are spent -/

theorem Bounds.exhausted_eq_stepLimit_iff {e : Text} :
    B.exhausted e = .stepLimit x m ↔ B.limit = some m ∧ e = x := by
  unfold exhausted
  cases B.limit <;> simp [and_comm]

/-- **What is named for having spent its steps has spent them**, with less nesting left to it. -/
theorem Basis.exists_spent_of_stepAt {D : Nat} {b : Text}
    (h : R.stepAt B D b = .error (.stepLimit x m)) :
    B.limit = some m ∧ ∃ d < D, ∃ v, advance (R.stepAt B d) B.fuel x = .ok (v, false) := by
  generalize hf : Fault.stepLimit x m = f at h
  revert hf
  refine fault_induction (P := fun f => Fault.stepLimit x m = f → _) ?_ (by simp) ?_ h
  · rintro b _ hp rfl
    obtain ⟨_, _, _, _, hown⟩ := exists_of_plan_error hp
    simp at hown
  · rintro d e v hd hspent hf
    obtain ⟨hlimit, rfl⟩ := Bounds.exhausted_eq_stepLimit_iff.1 hf.symm
    exact ⟨hlimit, d, hd, v, hspent⟩

/-- Inside brackets an expression is reduced as a run reduces it that may nest one level less. -/
theorem Basis.reduceCompound_eq_run {t : Term} (ht : t.kind = .compound) (hn : B.limit = some n) :
    R.reduceCompound { B with depth := B.depth + 1 } t =
      B.settled t.interior
        ((({ buffer := t.interior, bounds := B } : Reduction).run R n).2.map
          fun tr => (tr.final, tr.settled)) := by
  have hloop : R.reduceCompound { B with depth := B.depth + 1 } t =
      B.settled t.interior (advance (R.stepAt B B.depth) B.fuel t.interior) := by
    rw [reduceCompound_of_compound ht, R.settleAt_setDepth]
    rfl
  rw [hloop, Bounds.fuel_of_limit hn]
  exact congrArg _ (Reduction.advance_eq_run (r := { buffer := t.interior, bounds := B }) rfl n)

theorem Basis.reduceCompound_cutShort {t : Term} (ht : t.kind = .compound) (R : Basis) (B : Bounds) :
    CutShort (· = .tooDeep) (R.reduceCompound B t)
      (R.reduceCompound { B with depth := B.depth + 1 } t) := by
  rw [reduceCompound_of_compound ht, reduceCompound_of_compound ht,
    R.settleAt_setDepth B (B.depth + 1)]
  exact settleAt_cutShort_of_depth_le (Nat.le_succ B.depth) t.interior

namespace Reduction

variable {r q : Reduction}

theorem exists_run_of_spent {d : Nat} {v : Text} (hn : B.limit = some n) (hd : d ≤ B.depth)
    (h : advance (R.stepAt B d) B.fuel x = .ok (v, false)) :
    ∃ last tr, ({ buffer := x, bounds := B } : Reduction).run R n = (last, .ok tr) ∧
      tr.settled = false := by
  have hloop := Basis.advance_of_depth_le h hd
  rw [Bounds.fuel_of_limit hn] at hloop
  obtain ⟨last, tr, hrun, -, hsettled⟩ := run_of_advance (r := { buffer := x, bounds := B }) rfl hloop
  exact ⟨last, tr, hrun, hsettled⟩

/-- **The expression that is named for having spent its steps is to blame.** If a step fails for a limit
to the steps, then the limit that is named is the one that was set. A new reduction of the expression
that is named, under the same bounds, has a run of as many steps that does not fail: it makes them all,
each of them progresses, and it may still make another. -/
theorem culprit_of_stepLimit (h : r.step R = (q, .error (.stepLimit x m))) :
    r.bounds.limit = some m ∧
      ∃ last tr, ({ buffer := x, bounds := r.bounds } : Reduction).run R m = (last, .ok tr) ∧
        last.canStep = true ∧
        ({ buffer := x, bounds := r.bounds } : Reduction).Makes R tr.steps last ∧
        tr.steps.length = m.toNat := by
  obtain ⟨herror, -⟩ := step_eq_error_iff.1 h
  obtain ⟨hlimit, d, hd, v, hspent⟩ := Basis.exists_spent_of_stepAt herror
  obtain ⟨last, tr, hrun, hsettled⟩ := exists_run_of_spent hlimit hd.le hspent
  have hflag : last.canStep = true := by
    rw [settled_of_run hrun] at hsettled
    simpa using hsettled
  obtain ⟨p, hmakes, hend⟩ := cases_of_run rfl hrun
  rcases hend with ⟨hlen, rfl⟩ | ⟨-, s, hs, hp⟩
  · exact ⟨hlimit, last, tr, hrun, hflag, hmakes, hlen⟩
  · rw [eq_of_step_of_not_progressed hs hp] at hflag
    simp at hflag

/-- The inside of the compound becomes `((SII)(SII))` in three steps. What fails in the fourth is not
the inside but what it has come to hold in brackets, a text that the buffer does not have. -/
theorem culprit_of_stepLimit_nested :
    ({ buffer := "(CB(SII)I(SII))".toList, bounds := { limit := some 4 } } : Reduction).step .standard =
        ({ buffer := "(CB(SII)I(SII))".toList, bounds := { limit := some 4 } },
          .error (.stepLimit "(SII)(SII)".toList 4)) ∧
      ∃ last tr, ({ buffer := "(SII)(SII)".toList, bounds := { limit := some 4 } } : Reduction).run
          .standard 4 = (last, .ok tr) ∧ last.canStep = true ∧ tr.steps.length = 4 := by
  have hstep : ({ buffer := "(CB(SII)I(SII))".toList, bounds := { limit := some 4 } } : Reduction).step
      .standard = ({ buffer := "(CB(SII)I(SII))".toList, bounds := { limit := some 4 } },
        .error (.stepLimit "(SII)(SII)".toList 4)) := rfl
  obtain ⟨-, last, tr, hrun, hflag, -, hlen⟩ := culprit_of_stepLimit hstep
  exact ⟨hstep, last, tr, hrun, hflag, hlen⟩

/-! ## The loop inside brackets and the run -/

theorem run_ne_stepLimit (hn : B.limit = some n) (last : Reduction) :
    ({ buffer := x, bounds := B } : Reduction).run R n ≠ (last, .error (.stepLimit x n)) := by
  intro hrun
  obtain ⟨steps, hmakes, -, hlast⟩ := exists_makes_of_walk_error (walk_of_run_error hrun)
  have hbounds : last.bounds = B := hmakes.bounds_eq
  obtain ⟨herror, -⟩ := step_eq_error_iff.1 hlast
  rw [hbounds] at herror
  -- What spent its steps inside the run would be cut short, and not fail, in the run itself.
  obtain ⟨-, d, hd, v, hspent⟩ := Basis.exists_spent_of_stepAt herror
  obtain ⟨_, _, hrun', -⟩ := exists_run_of_spent hn hd.le hspent
  rw [hrun] at hrun'
  simp at hrun'

/-- The outcome `x` of a compound is that of a run of `n` steps on `r`, the reduction of its inside: a
run that settles gives the result, one that is cut short the fault of the limit, and one that fails
its own fault, which is never that one. -/
structure Agrees (R : Basis) (n : Int) (r : Reduction) (x : Except Fault Text) : Prop where
  ok_iff : ∀ v, x = .ok v ↔
    ∃ last tr, r.run R n = (last, .ok tr) ∧ tr.final = v ∧ tr.settled = true
  stepLimit_iff : x = .error (.stepLimit r.buffer n) ↔
    ∃ last tr, r.run R n = (last, .ok tr) ∧ tr.settled = false
  fault_iff : ∀ f, f ≠ .stepLimit r.buffer n →
    (x = .error f ↔ ∃ last, r.run R n = (last, .error f))
  run_ne : ∀ last, r.run R n ≠ (last, .error (.stepLimit r.buffer n))

theorem agrees_settled (hn : r.bounds.limit = some n)
    (hne : ∀ last, r.run R n ≠ (last, .error (.stepLimit r.buffer n))) :
    r.Agrees R n
      (r.bounds.settled r.buffer ((r.run R n).2.map fun tr => (tr.final, tr.settled))) := by
  rcases hrun : r.run R n with ⟨last, f | ⟨initial, steps, final, settled⟩⟩
  · have hf : f ≠ .stepLimit r.buffer n := by
      rintro rfl
      exact hne last hrun
    show r.Agrees R n (.error f)
    refine ⟨?_, ?_, ?_, hne⟩ <;> simp [hrun, hf]
  · cases settled with
    | true =>
      show r.Agrees R n (.ok final)
      refine ⟨?_, ?_, ?_, hne⟩ <;> simp [hrun]
    | false =>
      show r.Agrees R n (.error (r.bounds.exhausted r.buffer))
      rw [Bounds.exhausted_of_limit hn]
      refine ⟨fun v => ?_, ?_, fun f hf => ?_, hne⟩
      · simp [hrun]
      · simp [hrun]
      · simp [hrun, hf.symm]

/-- **The loop inside brackets and the run of the same expression agree**, the depth of brackets set
aside: whatever the depth is in which the run is made, it has the outcome of the compound where one
level more may be nested, for the brackets of the compound; and where the compound is not too deep, it
has the same outcome in a run at the depth of the compound. -/
theorem agrees_reduceCompound {t : Term} (ht : t.kind = .compound) (hn : B.limit = some n) :
    ({ buffer := t.interior, bounds := B } : Reduction).Agrees R n
        (R.reduceCompound { B with depth := B.depth + 1 } t) ∧
      (R.reduceCompound B t ≠ .error .tooDeep →
        ({ buffer := t.interior, bounds := B } : Reduction).Agrees R n (R.reduceCompound B t)) := by
  have hagrees : ({ buffer := t.interior, bounds := B } : Reduction).Agrees R n
      (R.reduceCompound { B with depth := B.depth + 1 } t) := by
    rw [Basis.reduceCompound_eq_run ht hn]
    exact agrees_settled hn (run_ne_stepLimit hn)
  refine ⟨hagrees, fun hdeep => ?_⟩
  rcases (R.reduceCompound_cutShort ht B).eq_or_cut with heq | ⟨_, rfl, htoo⟩
  · rwa [heq]
  · exact absurd htoo hdeep

/-- Of `(IK)` the second step is the last, and it does not progress: two steps are enough for the run
and for the compound, and one is not. Below zero no step is made at all. -/
theorem agrees_reduceCompound_boundary :
    (Basis.standard.reduceCompound { limit := some 2 } ⟨"(IK)".toList, .compound⟩ = .ok ['K'] ∧
      ∃ last tr, ({ buffer := "IK".toList, bounds := { limit := some 2 } } : Reduction).run .standard 2 =
        (last, .ok tr) ∧ tr.final = ['K'] ∧ tr.settled = true) ∧
    (Basis.standard.reduceCompound { limit := some 1 } ⟨"(IK)".toList, .compound⟩ =
        .error (.stepLimit "IK".toList 1) ∧
      ∃ last tr, ({ buffer := "IK".toList, bounds := { limit := some 1 } } : Reduction).run .standard 1 =
        (last, .ok tr) ∧ tr.settled = false) ∧
    Basis.standard.reduceCompound { limit := some (-1) } ⟨"(IK)".toList, .compound⟩ =
      .error (.stepLimit "IK".toList (-1)) := by
  have htwo : Basis.standard.reduceCompound { limit := some 2 } ⟨"(IK)".toList, .compound⟩ =
      .ok ['K'] := rfl
  have hone : Basis.standard.reduceCompound { limit := some 1 } ⟨"(IK)".toList, .compound⟩ =
      .error (.stepLimit "IK".toList 1) := rfl
  have hnone : ({ buffer := "IK".toList, bounds := { limit := some (-1), depth := 299 } } :
      Reduction).run .standard (-1) =
        ({ buffer := "IK".toList, bounds := { limit := some (-1), depth := 299 } },
          .ok ⟨"IK".toList, [], "IK".toList, false⟩) := rfl
  have hbelow := (agrees_reduceCompound (R := .standard) (B := { limit := some (-1), depth := 299 })
    (t := ⟨"(IK)".toList, .compound⟩) rfl rfl).1
  have hagrees (n : Int) (hn : Basis.standard.reduceCompound { limit := some n }
      ⟨"(IK)".toList, .compound⟩ ≠ .error .tooDeep) :=
    (agrees_reduceCompound (B := { limit := some n }) rfl rfl).2 hn
  exact ⟨⟨htwo, ((hagrees 2 (by rw [htwo]; simp)).ok_iff ['K']).1 htwo⟩,
    ⟨hone, (hagrees 1 (by rw [hone]; simp)).stepLimit_iff.1 hone⟩,
    hbelow.stepLimit_iff.2 ⟨_, _, hnone, rfl⟩⟩

end Reduction

end Combinatory
