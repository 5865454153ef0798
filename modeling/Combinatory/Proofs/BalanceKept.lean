import Combinatory.Proofs.Active
import Combinatory.Proofs.Boundary

/-!
# Balance is kept

Over a basis whose names and templates are balanced, a step makes a balanced buffer of a balanced one
(`Basis.balanced_of_stepAt`), at every nesting.

`balanced_while_active`: all that is at work during a run on a balanced buffer holds balanced
buffers, so that every compound that is cut off is closed.
-/

namespace Combinatory

/-! ## Templates -/

theorem not_bracket_of_placeholder? {c : Char} {i : Nat} (h : placeholder? c = some i) :
    c ≠ '(' ∧ c ≠ ')' := by
  constructor <;> rintro rfl <;> simp [placeholder?] at h

theorem openAfter_fill {args : List Text} (hargs : ∀ a ∈ args, Balanced a) {template v : Text}
    (h : fill args template = .ok v) (n : Nat) : openAfter n v = openAfter n template := by
  replace h := fill_eq_ok_iff.1 h
  induction h generalizing n with
  | nil => rfl
  | @letter c cs u hc _ ih => exact openAfter_cons_congr ih c n
  | argument hc ha _ ih =>
    have harg := hargs _ (List.mem_of_getElem? ha)
    have hn := not_bracket_of_placeholder? hc
    rw [openAfter_append, harg.openAfter, Option.bind_some, ih, openAfter_other hn.1 hn.2]

theorem balanced_of_substitute {template v : Text} {args : List Text} (ht : Balanced template)
    (hargs : ∀ a ∈ args, Balanced a) (h : substitute template args = .ok v) : Balanced v := by
  unfold Balanced
  rw [openAfter_fill hargs (substitute_eq_ok_iff.1 h)]
  exact ht

namespace Basis

variable {R : Basis} {B : Bounds}

theorem balanced_join (hR : R.BalancedNames) {b : Text} (hb : Balanced b) {ts : List Term}
    (hts : ∀ t ∈ ts, t ∈ R.splitTerms b) : Balanced (Term.join ts) := by
  refine balanced_flatten fun x hx => ?_
  obtain ⟨t, ht, rfl⟩ := List.mem_map.1 hx
  exact (forall_mem_splitTerms hR hb t (hts t ht)).1

theorem balanced_of_substitute_terms (hR : R.WellBracketed) {b v : Text} (hb : Balanced b)
    {d : Combinator} (hd : d ∈ R.combinators) {args others : List Term}
    (hsplit : R.splitTerms b = args ++ others)
    (hv : substitute d.template (args.map Term.text) = .ok v) : Balanced v := by
  refine balanced_of_substitute (hR d hd).2 (fun x hx => ?_) hv
  obtain ⟨a, ha, rfl⟩ := List.mem_map.1 hx
  exact (forall_mem_splitTerms hR.names hb a (hsplit ▸ List.mem_append_left others ha)).1

/-- **A step keeps balance.** -/
theorem balanced_of_stepAt (hR : R.WellBracketed) {depth : Nat} {b : Text} {s : Step}
    (hb : Balanced b) (h : R.stepAt B depth b = .ok s) : Balanced s.after := by
  induction depth using Nat.strong_induction_on generalizing b s with
  | _ depth ih =>
    cases stepAt_eq_ok_iff.1 h with
    | empty | stuck | irreducible | hollow => exact hb
    | constant hcut hd h0 =>
      exact (hR _ (mem_of_lookup? hd)).2.append (hcut.balanced hR.names hb).2.1
    | @rule t rest v d args others hcut hd h0 hsplit hargs hv =>
      have hrest := (hcut.balanced hR.names hb).2.1
      exact (balanced_of_substitute_terms hR hrest (mem_of_lookup? hd) hsplit hv).append
        (balanced_join hR.names hrest fun a ha => hsplit ▸ List.mem_append_right args ha)
    | opened hcut hd hk hv hne =>
      obtain ⟨-, hrest, hclosed⟩ := hcut.balanced hR.names hb
      exact (settleAt_invariant ih (hclosed hk).2 hv).append hrest

end Basis

namespace Reduction

variable {R : Basis} {r q : Reduction}

theorem balanced_step (hR : R.WellBracketed) (hr : Balanced r.buffer) :
    Balanced (r.step R).1.buffer := by
  unfold step
  cases h : R.step r.bounds r.buffer with
  | error f => exact hr
  | ok s => exact Basis.balanced_of_stepAt hR hr h

theorem Active.balanced (h : r.Active R q) (hR : R.WellBracketed) (hr : Balanced r.buffer) :
    Balanced q.buffer := by
  induction h with
  | self => exact hr
  | step _ ih => exact balanced_step hR ih
  | child _ hp _ ih =>
    obtain ⟨hcut, -, hk⟩ := Basis.cut_of_plan_enter hp
    exact ((hcut.balanced hR.names ih).2.2 hk).2

/-- **Balance is kept throughout.** Over balanced names and templates, every reduction that is at work
while a reduction of a balanced buffer is under way holds a balanced buffer, and every compound cut
off it is closed around a balanced inside. A run of any length ends at a balanced buffer, also when it
fails, and every step that it tells of, at whatever nesting, leads from a balanced buffer to one. -/
theorem balanced_while_active (hR : R.WellBracketed) (hr : Balanced r.buffer) :
    (∀ q, r.Active R q →
      Balanced q.buffer ∧ ∀ t ∈ R.splitTerms q.buffer, t.kind = .compound → t.Closed) ∧
    (∀ n, Balanced (r.run R n).1.buffer) ∧
    ∀ n s, Event.stepped s ∈ R.narrateRun r.bounds n r.buffer →
      Balanced s.before ∧ Balanced s.after := by
  refine ⟨fun q hq => ?_, fun n => (active_run n r).balanced hR hr, fun n s hs => ?_⟩
  · have hb := hq.balanced hR hr
    exact ⟨hb, fun t ht => (Basis.forall_mem_splitTerms hR.names hb t ht).2⟩
  · obtain ⟨q, hq, hqs⟩ := exists_active_of_told hs
    have hb := hq.balanced hR hr
    rw [step_snd] at hqs
    have hbefore := (Basis.stepAt_eq_ok_iff.1 hqs).before_eq
    exact ⟨hbefore ▸ hb, Basis.balanced_of_stepAt hR hb hqs⟩

/-- The steps that are told of include the one inside the inner brackets. -/
theorem balanced_while_active_nested :
    Balanced (({ buffer := "(S(IK)b)cd".toList, bounds := {} } : Reduction).run .standard 5).1.buffer ∧
      Balanced "IK".toList ∧ Balanced "K".toList := by
  have h := balanced_while_active (r := { buffer := "(S(IK)b)cd".toList, bounds := {} })
    Basis.wellBracketed_standard (by decide)
  have htold : Event.stepped ⟨.rule, some ⟨['I'], .name⟩, "IK".toList, ['K'], true, some .i⟩ ∈
      Basis.standard.narrateRun {} 5 "(S(IK)b)cd".toList :=
    List.mem_of_getElem? (i := 4) rfl
  exact ⟨h.2.1 5, h.2.2 5 _ htold⟩

end Reduction

end Combinatory
