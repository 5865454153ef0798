import Combinatory.Proofs.Faults

/-!
# Templates that fit their arguments

Whether the digits of a template fit the arity of its combinator is asked when the combinator is
defined (`Combinator.Usable`). Whether they fit the arguments that were collected comes to light when
the template is filled. Both are the same, because a combinator that is applied has collected as many
arguments as its arity says.

1. A template is filled, or it fails at its first digit without argument (`fill_eq_error_iff`); so an
   unusable combinator with terms enough behind it fails at the first digit that is not below its arity
   (`Basis.Cut.apply_of_excess`).
2. Where all combinators are usable, no step fails for a template, at whatever nesting
   (`Basis.ne_noArgument_of_usable`, by `Basis.fault_induction`).

`Reduction.usable_decides_templates` puts these together.
-/

namespace Combinatory

/-! ## The digit at fault -/

/-- A template fails at its first digit without argument. -/
theorem fill_eq_error_iff {args : List Text} {template : Text} {i : Nat} :
    fill args template = .error i ↔
      (template.filterMap placeholder?).find? (fun j => args.length ≤ j) = some i := by
  induction template with
  | nil => simp [fill]
  | cons c cs ih =>
    unfold fill
    cases hc : placeholder? c with
    | none =>
      rw [List.filterMap_cons_none hc]
      exact map_eq_error_iff.trans ih
    | some j =>
      rw [List.filterMap_cons_some hc]
      dsimp only
      by_cases hj : args.length ≤ j
      · rw [List.getElem?_eq_none hj, List.find?_cons, decide_eq_true hj]
        simp
      · rw [List.getElem?_eq_getElem (by omega), List.find?_cons, decide_eq_false hj]
        exact map_eq_error_iff.trans ih

namespace Combinator

/-- The first digit of the template that is not below the arity. -/
def excess? (d : Combinator) : Option Nat := d.placeholders.find? fun i => d.arity ≤ i

theorem not_usable_iff {d : Combinator} : ¬ d.Usable ↔ d.arity ≠ 0 ∧ ∃ i, d.excess? = some i := by
  have hexcess : (∃ i, d.excess? = some i) ↔ ¬ ∀ i ∈ d.placeholders, i < d.arity := by
    rw [← Option.isSome_iff_exists, excess?, List.find?_isSome]
    simp
  unfold Usable
  rw [not_or, hexcess]

end Combinator

namespace Basis

variable {R : Basis} {B : Bounds} {b rest : Text} {t : Term} {d : Combinator} {i : Nat}

theorem Cut.apply_of_excess (h0 : d.arity ≠ 0) (hi : d.excess? = some i)
    (hd : d.arity ≤ (R.splitTerms rest).length) :
    R.apply d t b rest = .error (.noArgument d.template i d.arity) := by
  have hlen : (((R.splitTerms rest).take d.arity).map Term.text).length = d.arity :=
    (List.length_map Term.text).trans (List.length_take_of_le hd)
  have hfill : fill (((R.splitTerms rest).take d.arity).map Term.text) d.template = .error i := by
    rw [fill_eq_error_iff, hlen]
    exact hi
  rw [apply_of_le h0 hd, map_eq_error_iff]
  unfold substitute
  rw [hfill, hlen]

/-- **Over usable combinators no step fails for a template.** -/
theorem ne_noArgument_of_usable (hR : ∀ d ∈ R.combinators, d.Usable) {depth : Nat} {f : Fault}
    (h : R.stepAt B depth b = .error f) (template : Text) (i n : Nat) :
    f ≠ .noArgument template i n := by
  refine fault_induction (P := fun f => f ≠ .noArgument template i n) ?_ (by simp) ?_ h
  · intro b f hp
    obtain ⟨d, hd, hnot, -⟩ := exists_of_plan_error hp
    exact absurd (hR d hd) hnot
  · intro _ e _ _ _
    unfold Bounds.exhausted
    split <;> simp

end Basis

namespace Reduction

/-- **Being usable decides on templates.** When all combinators of the basis are usable, no step that is
made while the reduction is under way fails for a template, inside brackets at any nesting included,
and no run of any length does. And a combinator that is not usable, where a step finds it at the head
with terms enough behind it, makes the step fail at the first digit of its template that is not below
its arity, and the reduction is left as it was. -/
theorem usable_decides_templates (R : Basis) (r : Reduction) :
    ((∀ d ∈ R.combinators, d.Usable) →
      (∀ q, r.Active R q → ∀ template i n, (q.step R).2 ≠ .error (.noArgument template i n)) ∧
      ∀ m template i n, (r.run R m).2 ≠ .error (.noArgument template i n)) ∧
    ∀ t rest d, R.takeTerm? r.buffer = some (t, rest) → R.lookup? t.text = some d → ¬ d.Usable →
      d.arity ≤ (R.splitTerms rest).length →
      ∃ i, d.placeholders.find? (fun j => d.arity ≤ j) = some i ∧
        r.step R = (r, .error (.noArgument d.template i d.arity)) := by
  constructor
  · intro hR
    have hstep : ∀ (q : Reduction) template i n,
        (q.step R).2 ≠ .error (.noArgument template i n) := by
      intro q template i n h
      rw [step_snd] at h
      exact Basis.ne_noArgument_of_usable hR h template i n rfl
    refine ⟨fun q _ => hstep q, ?_⟩
    intro m template i n h
    -- A run that fails has failed at a step.
    obtain ⟨_, -, -, hlast⟩ := exists_makes_of_walk_error (walk_of_run_error (Prod.ext rfl h))
    exact hstep _ template i n (congrArg Prod.snd hlast)
  · intro t rest d hcut hd hnot hle
    obtain ⟨h0, i, hi⟩ := Combinator.not_usable_iff.1 hnot
    refine ⟨i, hi, step_eq_error_iff.2 ⟨?_, rfl⟩⟩
    have hplan := (Basis.cut_iff.1 hcut).plan_of_lookup? hd
    rw [Basis.Cut.apply_of_excess h0 hi hle] at hplan
    exact Basis.stepAt_of_finished hplan _ _

/-- A combinator that takes two arguments, and asks for the fourth and for the last of ten. -/
def greedy : Combinator := ⟨['D'], 2, "0(319)".toList, by decide⟩

/-- Inside brackets a standard combinator does not fail for its template; the greedy one fails for the
fourth argument, which it asks for first. -/
theorem usable_decides_templates_greedy :
    ((({ buffer := "(KI)ab".toList, bounds := {} } : Reduction).child
        ⟨"(KI)".toList, .compound⟩).step .standard).2 ≠ .error (.noArgument ['0'] 0 0) ∧
      ({ buffer := "Da(bc)".toList, bounds := {} } : Reduction).step (Basis.standard.append greedy) =
        ({ buffer := "Da(bc)".toList, bounds := {} },
          .error (.noArgument "0(319)".toList 3 2)) := by
  constructor
  · have h := usable_decides_templates .standard { buffer := "(KI)ab".toList, bounds := {} }
    have hplan : Basis.standard.plan "(KI)ab".toList =
        .enter ⟨"(KI)".toList, .compound⟩ "ab".toList := rfl
    exact (h.1 (by decide)).1 _ (Active.self.child hplan (by decide)) _ _ _
  · have h := usable_decides_templates (Basis.standard.append greedy)
      { buffer := "Da(bc)".toList, bounds := {} }
    have harg : (Basis.standard.append greedy).Cut "a(bc)".toList ⟨['a'], .var⟩ "(bc)".toList :=
      Basis.cut_iff.1 rfl
    have hlast : (Basis.standard.append greedy).Cut "(bc)".toList ⟨"(bc)".toList, .compound⟩ [] :=
      Basis.cut_iff.1 rfl
    have hle : greedy.arity ≤ ((Basis.standard.append greedy).splitTerms "a(bc)".toList).length := by
      rw [harg.splitTerms_eq, hlast.splitTerms_eq]
      simp [greedy]
    obtain ⟨i, hi, hstep⟩ := h.2 ⟨['D'], .name⟩ "a(bc)".toList greedy rfl rfl (by decide) hle
    obtain rfl : 3 = i := Option.some.inj hi
    exact hstep

end Reduction

end Combinatory
