import Combinatory.Proofs.Active
import Combinatory.Proofs.Reading

/-!
# Stepping is head reduction

Over the standard combinators, a step on a legible buffer is head reduction of the expression that
the buffer stands for.

1. A filled template stands for what the redex is contracted to (`Basis.contracts_of_substitute`), so
   a rule contracts the head redex (`Basis.Reduces.headContracts`).
2. A step into brackets contracts at the head as often as it does inside. When that is not at all, the
   buffer has lost its brackets (`Basis.Reduces.descends`, by induction on the nesting).
3. Where a step does not progress there is no head redex (`Basis.Reduces.headNormal`).

`Reduction.step_headReduces` puts these together.
-/

namespace Combinatory

open Combinatory.Expr Relation

namespace Basis

variable {b rest u v w : Text} {t : Term} {d : Combinator} {B : Bounds} {depth : Nat} {s : Step}

/-! ## The standard combinators -/

theorem arity_standard : ∀ d ∈ standard.combinators, d.arity ≠ 0 := by decide

theorem head_name_standard : ∀ d ∈ standard.combinators, d.name.head? ≠ some '(' := by decide

theorem Cut.meaning_of_lookup? (h : standard.Cut b t rest) (hd : standard.lookup? t.text = some d) :
    standard.meaning t = .atom d.name := by
  have hk : t.kind ≠ .compound := by
    intro hk
    have hhead := head_name_standard d (mem_of_lookup? hd)
    rw [name_of_lookup? hd] at hhead
    cases h with
    | compound hb => exact hhead rfl
    | var | name | symbol => simp at hk
  rw [meaning_of_ne_compound hk, name_of_lookup? hd]

/-! ## Filled templates -/

theorem substitute_s (x y z : Text) :
    substitute Combinator.s.template [x, y, z] = .ok (x ++ (z ++ bracketed (y ++ z))) := by
  rw [bracketed, List.cons_append, List.append_assoc]
  rfl

theorem substitute_k (x y : Text) : substitute Combinator.k.template [x, y] = .ok x := by
  conv_rhs => rw [← List.append_nil x]
  rfl

theorem substitute_i (x : Text) : substitute Combinator.i.template [x] = .ok x := by
  conv_rhs => rw [← List.append_nil x]
  rfl

theorem substitute_b (x y z : Text) :
    substitute Combinator.b.template [x, y, z] = .ok (x ++ bracketed (y ++ z)) := by
  rw [bracketed, List.cons_append, List.append_assoc]
  rfl

theorem substitute_c (x y z : Text) :
    substitute Combinator.c.template [x, y, z] = .ok (x ++ (z ++ y)) := by
  conv_rhs => rw [← List.append_nil y]
  rfl

/-- **A filled template stands for what the redex is contracted to.** -/
theorem contracts_of_substitute (hd : d ∈ standard.combinators) {args : List Term}
    (hargs : ∀ a ∈ args, Reads a.text [standard.meaning a]) (hlen : args.length = d.arity)
    (hv : substitute d.template (args.map Term.text) = .ok v) :
    ∃ x xs, Reads v (x :: xs) ∧
      Contracts ((atom d.name).apply (args.map standard.meaning)) (x.apply xs) := by
  have hd : d = .s ∨ d = .k ∨ d = .i ∨ d = .b ∨ d = .c := by simpa [standard] using hd
  rcases hd with rfl | rfl | rfl | rfl | rfl
  · obtain ⟨x, y, z, rfl⟩ := List.length_eq_three.1 hlen
    obtain rfl := Except.ok.inj ((substitute_s x.text y.text z.text).symm.trans hv)
    have hx := hargs x (by simp)
    have hy := hargs y (by simp)
    have hz := hargs z (by simp)
    exact ⟨_, _, hx.append (hz.append (hy.append hz).bracketed), .s _ _ _⟩
  · obtain ⟨x, y, rfl⟩ := List.length_eq_two.1 hlen
    obtain rfl := Except.ok.inj ((substitute_k x.text y.text).symm.trans hv)
    exact ⟨_, _, hargs x (by simp), .k _ _⟩
  · obtain ⟨x, rfl⟩ := List.length_eq_one_iff.1 hlen
    obtain rfl := Except.ok.inj ((substitute_i x.text).symm.trans hv)
    exact ⟨_, _, hargs x (by simp), .i _⟩
  · obtain ⟨x, y, z, rfl⟩ := List.length_eq_three.1 hlen
    obtain rfl := Except.ok.inj ((substitute_b x.text y.text z.text).symm.trans hv)
    have hx := hargs x (by simp)
    have hy := hargs y (by simp)
    have hz := hargs z (by simp)
    exact ⟨_, _, hx.append (hy.append hz).bracketed, .b _ _ _⟩
  · obtain ⟨x, y, z, rfl⟩ := List.length_eq_three.1 hlen
    obtain rfl := Except.ok.inj ((substitute_c x.text y.text z.text).symm.trans hv)
    have hx := hargs x (by simp)
    have hy := hargs y (by simp)
    have hz := hargs z (by simp)
    exact ⟨_, _, hx.append (hz.append hy), .c _ _ _⟩

/-- **A rule contracts the head redex.** -/
theorem Reduces.headContracts (h : standard.Reduces B depth b s) (hb : Legible b)
    (hk : s.kind = .rule) :
    s.after ≠ [] ∧ Legible s.after ∧ HeadContracts (standard.expr b) (standard.expr s.after) := by
  cases h with
  | empty | stuck | irreducible | hollow | opened => simp [Step.stay] at hk
  | constant hcut hd h0 => exact absurd h0 (arity_standard _ (mem_of_lookup? hd))
  | @rule _ rest v d args others hcut hd h0 hsplit hargs hv =>
    have hrest := (hcut.legible hb).2
    have hothers := Reads.of_splitTerms_eq hrest hsplit
    have hreads : ∀ a ∈ args, Reads a.text [standard.meaning a] := fun a ha =>
      .of_mem_splitTerms hrest (hsplit ▸ List.mem_append_left others ha)
    obtain ⟨x, xs, hx, hcontracts⟩ := contracts_of_substitute (mem_of_lookup? hd) hreads hargs hv
    have hafter := hx.append hothers
    refine ⟨hafter.ne_nil, hafter.legible, ?_⟩
    rw [hcut.expr_eq, hcut.meaning_of_lookup? hd, operands, hsplit, List.map_append, apply_append,
      hafter.expr_eq, List.cons_append, applyAll, apply_append]
    exact (HeadContracts.root hcontracts).apply _

/-! ## Descending -/

/-- The second buffer stands for a later expression of the head reduction, or for the same one with
fewer characters. -/
def Descends (u w : Text) : Prop :=
  TransGen HeadContracts (standard.expr u) (standard.expr w) ∨
    standard.expr u = standard.expr w ∧ w.length < u.length

theorem Descends.reflTransGen (h : Descends u w) :
    ReflTransGen HeadContracts (standard.expr u) (standard.expr w) := by
  rcases h with h | ⟨h, -⟩
  · exact h.to_reflTransGen
  · rw [h]

theorem cases_of_descends (h : ReflTransGen Descends u w) :
    TransGen HeadContracts (standard.expr u) (standard.expr w) ∨
      standard.expr u = standard.expr w ∧ w.length ≤ u.length := by
  induction h with
  | refl => exact .inr ⟨rfl, le_refl _⟩
  | tail _ h ih =>
    rcases ih with ih | ⟨heq, hle⟩
    · exact .inl (ih.trans_left h.reflTransGen)
    · rcases h with h | ⟨heq', hlt⟩
      · exact .inl (heq ▸ h)
      · exact .inr ⟨heq.trans heq', by omega⟩

theorem eq_nil_of_settleAt_nil {R : Basis} (h : R.settleAt B depth [] = .ok v) : v = [] := by
  refine settleAt_invariant (P := fun c => c = []) (fun d _ c s hc hs => ?_) rfl h
  subst hc
  rw [stepAt_of_finished (plan_nil R)] at hs
  rw [← Except.ok.inj hs]
  rfl

theorem Cut.descends (h : standard.Cut b t rest) (hb : Legible b) (hk : t.kind = .compound)
    (hi : t.interior ≠ []) (hne : v ≠ []) (hv : Legible v) (hd : ReflTransGen Descends t.interior v) :
    Legible (v ++ rest) ∧ Descends b (v ++ rest) := by
  have hrest := (h.legible hb).2
  refine ⟨hv.append hrest, ?_⟩
  unfold Descends
  rw [h.expr_eq, meaning_of_compound hk hi, expr_append hne hv hrest]
  rcases cases_of_descends hd with hd | ⟨heq, hle⟩
  · exact .inl (transGen_apply hd _)
  · refine .inr ⟨by rw [heq], ?_⟩
    have htext := ((h.balanced wellBracketed_standard.names hb.balanced).2.2 hk).1
    rw [← h.append_eq, htext, List.length_append, List.length_append, length_bracketed]
    omega

theorem descends_of_settleAt_of_forall
    (ih : ∀ d < depth, ∀ {b s}, b ≠ [] → Legible b → standard.Reduces B d b s →
      s.progressed = true → s.after ≠ [] ∧ Legible s.after ∧ Descends b s.after)
    (hne : u ≠ []) (hu : Legible u) (h : standard.settleAt B depth u = .ok v) :
    v ≠ [] ∧ Legible v ∧ ReflTransGen Descends u v := by
  refine settleAt_invariant (P := fun c => c ≠ [] ∧ Legible c ∧ ReflTransGen Descends u c) ?_
    ⟨hne, hu, .refl⟩ h
  rintro d hd c s ⟨hcne, hc, hdesc⟩ hs
  have hred := stepAt_eq_ok_iff.1 hs
  cases hp : s.progressed with
  | false =>
    rw [hred.after_eq hp]
    exact ⟨hcne, hc, hdesc⟩
  | true =>
    obtain ⟨hane, ha, hstep⟩ := ih d hd hcne hc hred hp
    exact ⟨hane, ha, hdesc.tail hstep⟩

/-- **A step that progresses descends.** -/
theorem Reduces.descends (h : standard.Reduces B depth b s) (hne : b ≠ []) (hb : Legible b)
    (hp : s.progressed = true) : s.after ≠ [] ∧ Legible s.after ∧ Descends b s.after := by
  induction depth using Nat.strong_induction_on generalizing b s with
  | _ depth ih =>
    by_cases hrule : s.kind = .rule
    · obtain ⟨hane, ha, hcontracts⟩ := h.headContracts hb hrule
      exact ⟨hane, ha, .inl (.single hcontracts)⟩
    · cases h with
      | empty | stuck | irreducible | hollow => simp [Step.stay] at hp
      | constant | rule => exact absurd rfl hrule
      | opened hcut hd hk hv hvne =>
        have hi := hcut.legible_interior hb hk
        have hine : Term.interior _ ≠ [] := fun hnil => hvne (eq_nil_of_settleAt_nil (hnil ▸ hv))
        obtain ⟨-, hvl, hdesc⟩ :=
          descends_of_settleAt_of_forall (fun d hd _ _ hne hb h hp => ih d hd h hne hb hp) hine hi hv
        obtain ⟨ha, hstep⟩ := hcut.descends hb hk hine hvne hvl hdesc
        exact ⟨List.append_ne_nil_of_left_ne_nil hvne _, ha, hstep⟩

theorem descends_of_settleAt (hne : u ≠ []) (hu : Legible u)
    (h : standard.settleAt B depth u = .ok v) : v ≠ [] ∧ Legible v ∧ ReflTransGen Descends u v :=
  descends_of_settleAt_of_forall (fun _ _ _ _ hne hb h hp => h.descends hne hb hp) hne hu h

/-! ## Where a step does not progress -/

theorem Cut.headNormal_of_atom (h : standard.Cut b t rest) (hd : standard.lookup? t.text = none)
    (ht : standard.meaning t = .atom t.text) : HeadNormal (standard.expr b) := by
  rw [h.expr_eq, ht]
  refine headNormal_of_forall fun d hmem hname => ?_
  rw [head_apply] at hname
  exact absurd (decide_eq_true hname.symm) (List.find?_eq_none.1 hd d hmem)

/-- **Where a step does not progress there is no head redex.** -/
theorem Reduces.headNormal (h : standard.Reduces B depth b s) (hne : b ≠ []) (hb : Legible b)
    (hp : s.progressed = false) : HeadNormal (standard.expr b) := by
  cases h with
  | empty hnil => exact absurd hnil hne
  | constant | rule | opened => simp at hp
  | stuck hcut hd hargs =>
    rw [hcut.expr_eq, hcut.meaning_of_lookup? hd]
    refine headNormal_of_forall fun e he hname => ?_
    rw [head_apply] at hname
    obtain rfl := eq_of_name_eq _ (mem_of_lookup? hd) e he hname
    rw [argCount_apply, argCount, Nat.zero_add, operands, List.length_map]
    exact hargs
  | irreducible hcut hd hk => exact hcut.headNormal_of_atom hd (meaning_of_ne_compound hk)
  | hollow hcut hd hk hv =>
    refine hcut.headNormal_of_atom hd (meaning_of_interior_eq_nil ?_)
    by_contra hine
    exact (descends_of_settleAt hine (hcut.legible_interior hb hk) hv).1 rfl

end Basis

namespace Reduction

/-- **Stepping is head reduction.** A step on a legible buffer over the standard combinators leaves a
legible buffer. A rule contracts the head redex of the expression that the buffer stands for, and a
step into brackets contracts head redexes, any number of them, one after the other. A step that does
not progress leaves the buffer as it was, and there is no head redex. -/
theorem step_headReduces {r q : Reduction} {s : Step} (hne : r.buffer ≠ []) (hr : Legible r.buffer)
    (h : r.step .standard = (q, .ok s)) :
    (q.buffer ≠ [] ∧ Legible q.buffer) ∧
    (s.kind = .rule → ∀ t, HeadContracts (Basis.standard.expr r.buffer) t ↔
      t = Basis.standard.expr q.buffer) ∧
    (s.kind = .compound → s.progressed = true →
      ReflTransGen HeadContracts (Basis.standard.expr r.buffer) (Basis.standard.expr q.buffer)) ∧
    (s.progressed = false →
      q.buffer = r.buffer ∧ HeadNormal (Basis.standard.expr r.buffer)) := by
  obtain ⟨hok, rfl⟩ := step_eq_ok_iff.1 h
  have hred := Basis.stepAt_eq_ok_iff.1 hok
  refine ⟨?_, fun hk t => ?_, fun _ hp => ?_, fun hp => ?_⟩
  · cases hp : s.progressed with
    | false =>
      rw [hred.after_eq hp]
      exact ⟨hne, hr⟩
    | true =>
      obtain ⟨hane, ha, -⟩ := hred.descends hne hr hp
      exact ⟨hane, ha⟩
  · obtain ⟨-, -, hcontracts⟩ := hred.headContracts hr hk
    refine ⟨fun ht => ht.unique hcontracts, ?_⟩
    rintro rfl
    exact hcontracts
  · exact (hred.descends hne hr hp).2.2.reflTransGen
  · exact ⟨hred.after_eq hp, hred.headNormal hne hr hp⟩

/-- `S` hands its last argument on to the other two, of which the first stands in brackets. -/
theorem step_headReduces_s :
    HeadContracts (Basis.standard.expr "S(Ia)b1c".toList)
      (Basis.standard.expr "(Ia)c(b1c)".toList) :=
  ((step_headReduces (r := { buffer := "S(Ia)b1c".toList, bounds := {} })
    (q := { buffer := "(Ia)c(b1c)".toList, bounds := {} }) (by decide) (by decide) rfl).2.1 rfl _).2
    rfl

end Reduction

end Combinatory
