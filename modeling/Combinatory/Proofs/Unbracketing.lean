import Combinatory.Proofs.Feeding
import Combinatory.Proofs.Limits

/-!
# Brackets at the head

What is reduced inside the brackets of a compound at the head makes the steps that it would make
without the brackets.

1. The steps of a reduction are made where deeper nesting is allowed as well (`Reduction.Makes.deepen`),
   as it is outside of the brackets.
2. They are made before a detached text as well (`Reduction.Makes.extend`).

`Reduction.brackets_transparent` puts these together: brackets at the head may be dropped, and need not
be put back.
-/

namespace Combinatory

namespace Reduction

variable {R : Basis} {B : Bounds} {r q : Reduction} {e v w : Text}

/-- The reduction with another bound to the nesting. -/
def setDepth (r : Reduction) (D : Nat) : Reduction := { r with bounds := { r.bounds with depth := D } }

/-- The reduction of an expression inside brackets, which take one level of the nesting. -/
def within (B : Bounds) (e : Text) : Reduction :=
  { buffer := e, bounds := { B with depth := B.depth - 1 } }

theorem step_deepen {s : Step} {D : Nat} (h : r.step R = (q, .ok s)) (hD : r.bounds.depth ≤ D) :
    (r.setDepth D).step R = (q.setDepth D, .ok s) := by
  obtain ⟨hok, rfl⟩ := step_eq_ok_iff.1 h
  refine step_eq_ok_iff.2 ⟨?_, rfl⟩
  show R.step { r.bounds with depth := D } r.buffer = .ok s
  rw [R.step_setDepth]
  exact Basis.stepAt_of_depth_le hok hD

theorem Makes.deepen {steps : List Step} {D : Nat} (h : r.Makes R steps q)
    (hD : r.bounds.depth ≤ D) : (r.setDepth D).Makes R steps (q.setDepth D) := by
  induction h with
  | nil r => exact .nil _
  | cons hs hp _ ih =>
    obtain ⟨-, rfl⟩ := step_eq_ok_iff.1 hs
    exact .cons (step_deepen hs hD) hp (ih hD)

/-- What a compound is reduced to, its inside is reduced to by steps of its own, and no step changes
it. -/
theorem exists_makes_of_settleAt (h : R.settleAt B B.depth e = .ok v) :
    ∃ steps s, (within B e).Makes R steps (within B v) ∧
      (within B v).step R = ({ within B v with canStep := false }, .ok s) ∧
      s.progressed = false := by
  unfold within
  cases hD : B.depth with
  | zero => simp [hD, Basis.settleAt] at h
  | succ d =>
    rw [hD] at h
    have hadvance : advance (R.step { B with depth := d }) B.fuel e = .ok (v, true) := by
      rw [funext (R.step_setDepth B d)]
      exact settle_eq_ok_iff.1 h
    obtain ⟨steps, s, hmakes, -, hs, hp⟩ :=
      exists_makes_of_advance (r := { buffer := e, bounds := { B with depth := d } }) rfl hadvance
    exact ⟨steps, s, hmakes, hs, hp⟩

/-- **Brackets at the head are transparent.** Over balanced names and templates, let `e` be balanced
and no combinator be named `(e)`, and let `w` be a text that no variable and no name can run into. If
the compound `(e)` is reduced to `v`, which is not empty, then its inside makes some steps to `v`, where
no step progresses; one step leads from `(e)w` to `v ++ w`; and the steps that the inside made lead, with
`w` behind, from `e ++ w` to the very same reduction. -/
theorem brackets_transparent (hR : R.WellBracketed) (he : Balanced e) (hname : bracketed e ∉ R.names)
    (hw : R.Detached w) (h : R.reduceCompound B ⟨bracketed e, .compound⟩ = .ok v) (hv : v ≠ []) :
    ∃ steps,
      ((within B e).Makes R steps (within B v) ∧
        ∃ s, (within B v).step R = ({ within B v with canStep := false }, .ok s) ∧
          s.progressed = false) ∧
      ({ buffer := bracketed e ++ w, bounds := B } : Reduction).step R =
        ({ buffer := v ++ w, bounds := B },
          .ok ⟨.compound, some ⟨bracketed e, .compound⟩, bracketed e ++ w, v ++ w, true, none⟩) ∧
      ({ buffer := e ++ w, bounds := B } : Reduction).Makes R (steps.map (·.extend w))
        { buffer := v ++ w, bounds := B } := by
  rw [Basis.reduceCompound_of_compound rfl, Term.interior_bracketed he] at h
  obtain ⟨steps, s, hmakes, hstop, hp⟩ := exists_makes_of_settleAt h
  refine ⟨steps, ⟨hmakes, s, hstop, hp⟩, ?_, ?_⟩
  · have hlookup : R.lookup? (bracketed e) = none := by
      refine List.find?_eq_none.2 ?_
      intro d hd hdname
      exact hname (List.mem_map.2 ⟨d, hd, of_decide_eq_true hdname⟩)
    have hinside : R.settleAt B B.depth (⟨bracketed e, .compound⟩ : Term).interior = .ok v := by
      rw [Term.interior_bracketed he, h]
    have hred : R.Reduces B B.depth (bracketed e ++ w) _ :=
      .opened (R.cut_bracketed he w) hlookup rfl hinside hv
    exact step_eq_ok_iff.2 ⟨hred.stepAt_eq, rfl⟩
  · have hdeep := hmakes.deepen (D := B.depth) (Nat.sub_le B.depth 1)
    exact hdeep.extend hR he hw

/-- Two pairs of brackets are opened in turn, and `K` waits for the text behind them. -/
theorem brackets_transparent_nested :
    ({ buffer := "((IK)a)bc".toList, bounds := {} } : Reduction).step .standard =
      ({ buffer := "Kabc".toList, bounds := {} },
        .ok ⟨.compound, some ⟨"((IK)a)".toList, .compound⟩, "((IK)a)bc".toList, "Kabc".toList, true,
          none⟩) ∧
    ∃ steps, ({ buffer := "(IK)abc".toList, bounds := {} } : Reduction).Makes .standard steps
      { buffer := "Kabc".toList, bounds := {} } := by
  obtain ⟨steps, -, hstep, hflat⟩ := brackets_transparent (B := {}) (e := "(IK)a".toList)
    (v := "Ka".toList) (w := "bc".toList) Basis.wellBracketed_standard (by decide) (by decide)
    (by decide) rfl (by decide)
  exact ⟨hstep, _, hflat⟩

end Reduction

end Combinatory
