import Combinatory.Proofs.Walk

/-!
# A step, told from the terms

A step cuts terms off the buffer one by one, as far as it needs them, and joins what is left with what
it made. `Basis.termStep` is told all terms beforehand and cuts nothing off the buffer itself.
`Reduction.step_eq_termStep` says that the two are the same, on every buffer, whether it is balanced or
not.
-/

namespace Combinatory

namespace Basis

/-- The step on a buffer of which the terms are known. -/
def termStep (R : Basis) (B : Bounds) : List Term → Except Fault Step
  | [] => .ok (.stay .empty none none [])
  | head :: others =>
    let buffer := Term.join (head :: others)
    match R.lookup? head.text with
    | some d =>
      if d.arity = 0 then
        .ok ⟨.rule, some head, buffer, d.template ++ Term.join others, true, some d⟩
      else if d.arity ≤ others.length then
        (substitute d.template ((others.take d.arity).map Term.text)).map fun filled =>
          ⟨.rule, some head, buffer, filled ++ Term.join (others.drop d.arity), true, some d⟩
      else .ok (.stay .stuck (some head) (some d) buffer)
    | none =>
      if head.kind = .compound then
        (R.reduceCompound B head).map fun inside =>
          if inside = [] then .stay .compound (some head) none buffer
          else ⟨.compound, some head, buffer, inside ++ Term.join others, true, none⟩
      else .ok (.stay .irreducible (some head) none buffer)

variable {R : Basis} {B : Bounds} {b rest : Text} {t : Term} {d : Combinator}

theorem Cut.apply_eq (h : R.Cut b t rest) (d : Combinator) :
    R.apply d t b rest =
      if d.arity = 0 then .ok ⟨.rule, some t, b, d.template ++ rest, true, some d⟩
      else if d.arity ≤ (R.splitTerms rest).length then
        (substitute d.template (((R.splitTerms rest).take d.arity).map Term.text)).map fun filled =>
          ⟨.rule, some t, b, filled ++ Term.join ((R.splitTerms rest).drop d.arity), true, some d⟩
      else .ok (.stay .stuck (some t) (some d) b) := by
  by_cases h0 : d.arity = 0
  · rw [if_pos h0, apply_of_constant h0]
  · rw [if_neg h0]
    by_cases hle : d.arity ≤ (R.splitTerms rest).length
    · rw [if_pos hle, apply_of_le h0 hle]
    · rw [if_neg hle, h.apply_of_lt (by omega)]

theorem step_eq_termStep_splitTerms (R : Basis) (B : Bounds) (b : Text) :
    R.step B b = R.termStep B (R.splitTerms b) := by
  show R.stepAt B B.depth b = _
  by_cases hb : b = []
  · subst hb
    rw [stepAt_of_finished (plan_nil R), splitTerms_nil]
    rfl
  obtain ⟨t, rest, hcut⟩ := R.exists_cut hb
  have hjoin : Term.join (t :: R.splitTerms rest) = b := by
    rw [← hcut.splitTerms_eq, join_splitTerms]
  rw [hcut.splitTerms_eq]
  unfold termStep
  dsimp only
  rw [hjoin, join_splitTerms]
  cases hd : R.lookup? t.text with
  | some d => rw [stepAt_of_finished (hcut.plan_of_lookup? hd), hcut.apply_eq]
  | none =>
    dsimp only
    by_cases hk : t.kind = .compound
    · rw [if_pos hk, stepAt_of_enter (hcut.plan_of_compound hd hk), reduceCompound_of_compound hk,
        funext hcut.leave_eq]
    · rw [if_neg hk, stepAt_of_finished (hcut.plan_of_irreducible hd hk)]

end Basis

namespace Reduction

/-- **A step is read off the terms of the buffer.** Over any basis and on any buffer, the first
combinator with the name of the first term takes the terms behind it in order and leaves those that it
does not take; it is stuck when there are too few of them, and fails exactly when its template cannot
be filled with them. Where no combinator has that name, a compound gives way to what is made of its
inside, unless that is nothing. In all other cases the buffer stays. -/
theorem step_eq_termStep (R : Basis) (r : Reduction) :
    r.step R = match R.termStep r.bounds (R.splitTerms r.buffer) with
      | .error f => (r, .error f)
      | .ok s => ({ r with buffer := s.after, canStep := s.progressed }, .ok s) := by
  have h := R.step_eq_termStep_splitTerms r.bounds r.buffer
  unfold step
  cases hs : R.step r.bounds r.buffer with
  | error f => rw [← h, hs]
  | ok s => rw [← h, hs]

end Reduction

end Combinatory
