import Combinatory.Proofs.Unbracketing

/-!
# What brackets are reduced to

The loop inside brackets ends at the first text that a step leaves as it is. So the text is fixed: when
brackets are put around it once more, they are taken off again, and it has not changed.

1. A loop that ends has made at least one step, the one that did not progress
   (`Basis.fuel_pos_of_settleAt`).
2. The text at which the loop ends is one that a step leaves as it is
   (`Basis.exists_stay_of_settleAt`), and such a text is what it is reduced to itself
   (`Basis.settleAt_of_stay`).
3. Balance is kept by the whole loop (`Basis.balanced_of_settleAt`), so that the brackets put around
   the result are those that are taken off.

`Reduction.reduceCompound_idempotent` puts these together.
-/

namespace Combinatory

variable {R : Basis} {B : Bounds} {e v : Text}

namespace Basis

/-- Inside brackets at least one step must be allowed, for the last one does not progress. -/
theorem fuel_pos_of_settleAt {depth : Nat} (h : R.settleAt B depth e = .ok v) : 0 < B.fuel := by
  rw [Nat.pos_iff_ne_zero]
  intro hfuel
  cases depth with
  | zero => simp [settleAt] at h
  | succ d =>
    have hloop := settle_eq_ok_iff.1 h
    rw [hfuel] at hloop
    simp [advance] at hloop

/-- **What a step leaves as it is, is reduced to itself inside brackets.** -/
theorem settleAt_of_stay {d : Nat} {s : Step} (hfuel : 0 < B.fuel) (h : R.stepAt B d v = .ok s)
    (hp : s.progressed = false) : R.settleAt B (d + 1) v = .ok v := by
  obtain ⟨n, hn⟩ := Nat.exists_eq_add_one.2 hfuel
  refine settle_eq_ok_iff.2 ?_
  rw [hn, advance_of_stay h hp, (stepAt_eq_ok_iff.1 h).after_eq hp]

theorem exists_stay_of_settleAt (h : R.settleAt B B.depth e = .ok v) :
    ∃ d s, B.depth = d + 1 ∧ R.stepAt B d v = .ok s ∧ s.progressed = false := by
  cases hD : B.depth with
  | zero => simp [hD, settleAt] at h
  | succ d =>
    obtain ⟨-, s, -, hstop, hp⟩ := Reduction.exists_makes_of_settleAt h
    obtain ⟨hok, -⟩ := Reduction.step_eq_ok_iff.1 hstop
    refine ⟨d, s, rfl, ?_, hp⟩
    rw [← R.step_setDepth B d v]
    unfold Reduction.within at hok
    rw [hD] at hok
    exact hok

theorem balanced_of_settleAt (hR : R.WellBracketed) {depth : Nat} (he : Balanced e)
    (h : R.settleAt B depth e = .ok v) : Balanced v := by
  refine settleAt_invariant ?_ he h
  intro d _ b s hb hs
  exact balanced_of_stepAt hR hb hs

end Basis

namespace Reduction

/-- **What a compound is reduced to is fixed.** Over balanced names and templates, let the inside of a
closed compound be balanced, and let the compound be reduced to `v`. Then `v` is balanced; a step on `v`
under the same bounds does not progress, and leaves `v`; and with brackets around it, `v` is reduced
to `v` again. Of the limit nothing has to be assumed: where it allows no step, no compound is reduced
to anything. -/
theorem reduceCompound_idempotent (hR : R.WellBracketed) (he : Balanced e)
    (h : R.reduceCompound B ⟨bracketed e, .compound⟩ = .ok v) :
    Balanced v ∧
      (∃ s, ({ buffer := v, bounds := B } : Reduction).step R =
          ({ buffer := v, bounds := B, canStep := false }, .ok s) ∧
        s.progressed = false ∧ s.after = v) ∧
      R.reduceCompound B ⟨bracketed v, .compound⟩ = .ok v := by
  rw [Basis.reduceCompound_of_compound rfl, Term.interior_bracketed he] at h
  have hv : Balanced v := Basis.balanced_of_settleAt hR he h
  have hfuel : 0 < B.fuel := Basis.fuel_pos_of_settleAt h
  obtain ⟨d, s, hD, hs, hp⟩ := Basis.exists_stay_of_settleAt h
  have hafter : s.after = v := (Basis.stepAt_eq_ok_iff.1 hs).after_eq hp
  refine ⟨hv, ⟨s, ?_, hp, hafter⟩, ?_⟩
  · -- Outside of the brackets one level more may be nested.
    have hstep : R.step B v = .ok s := Basis.stepAt_of_depth_le hs (by omega)
    refine step_eq_ok_iff.2 ⟨hstep, ?_⟩
    rw [hafter, hp]
  · rw [Basis.reduceCompound_of_compound rfl, Term.interior_bracketed hv, hD]
    exact Basis.settleAt_of_stay hfuel hs hp

/-- What `I` leaves begins with brackets that hold nothing, which are put back. -/
theorem reduceCompound_idempotent_hollow :
    Basis.standard.reduceCompound { limit := some 2 } ⟨bracketed "I()(Ka)".toList, .compound⟩ =
        .ok "()(Ka)".toList ∧
      (∃ s, ({ buffer := "()(Ka)".toList, bounds := { limit := some 2 } } : Reduction).step .standard =
          ({ buffer := "()(Ka)".toList, bounds := { limit := some 2 }, canStep := false }, .ok s) ∧
        s.progressed = false ∧ s.after = "()(Ka)".toList) ∧
      Basis.standard.reduceCompound { limit := some 2 } ⟨bracketed "()(Ka)".toList, .compound⟩ =
        .ok "()(Ka)".toList := by
  have hsettles : Basis.standard.reduceCompound { limit := some 2 }
      ⟨bracketed "I()(Ka)".toList, .compound⟩ = .ok "()(Ka)".toList := rfl
  obtain ⟨-, hstays, hagain⟩ :=
    reduceCompound_idempotent Basis.wellBracketed_standard (by decide) hsettles
  exact ⟨hsettles, hstays, hagain⟩

end Reduction

end Combinatory
