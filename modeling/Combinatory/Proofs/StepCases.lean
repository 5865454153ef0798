import Combinatory.Proofs.Cut
import Combinatory.Reduction.Step

/-!
# What a step does

A step is read off the terms of the buffer: `Basis.Reduces` has one case for each thing that a step
can do, with all that it depends on, and a step that does not fail is one of these cases
(`Basis.stepAt_eq_ok_iff`). Later proofs go by these cases and open neither `plan` nor `apply`.
-/

namespace Combinatory

/-! ## Outcomes -/

theorem exists_of_map_ok {α β ε : Type} {x : Except ε α} {g : α → β} {v : β}
    (h : x.map g = .ok v) : ∃ a, x = .ok a ∧ g a = v := by
  cases x with
  | error f => simp [Except.map] at h
  | ok a => exact ⟨a, rfl, Except.ok.inj h⟩

theorem error_of_map_error {α β ε : Type} {x : Except ε α} {g : α → β} {f : ε}
    (h : x.map g = .error f) : x = .error f := by
  cases x with
  | error f' => exact congrArg Except.error (Except.error.inj h)
  | ok a => simp [Except.map] at h

theorem map_eq_error_iff {α β ε : Type} {x : Except ε α} {g : α → β} {f : ε} :
    x.map g = .error f ↔ x = .error f :=
  ⟨error_of_map_error, fun h => by rw [h]; rfl⟩

/-! ## Filling templates -/

theorem substitute_eq_ok_iff {template v : Text} {args : List Text} :
    substitute template args = .ok v ↔ fill args template = .ok v := by
  unfold substitute
  cases fill args template <;> simp

/-- A filled template is made up of the letters that stand for themselves and of arguments. -/
inductive Fills (args : List Text) : Text → Text → Prop
  | nil : Fills args [] []
  | letter {c : Char} {cs u : Text} (hc : placeholder? c = none) (h : Fills args cs u) :
      Fills args (c :: cs) (c :: u)
  | argument {c : Char} {cs u arg : Text} {i : Nat} (hc : placeholder? c = some i)
      (ha : args[i]? = some arg) (h : Fills args cs u) : Fills args (c :: cs) (arg ++ u)

theorem fill_eq_ok_iff {args : List Text} {template v : Text} :
    fill args template = .ok v ↔ Fills args template v := by
  constructor
  · intro h
    induction template generalizing v with
    | nil =>
      obtain rfl : [] = v := Except.ok.inj h
      exact .nil
    | cons c cs ih =>
      unfold fill at h
      cases hc : placeholder? c with
      | none =>
        rw [hc] at h
        obtain ⟨u, hu, rfl⟩ := exists_of_map_ok h
        exact .letter hc (ih hu)
      | some i =>
        rw [hc] at h
        dsimp only at h
        cases ha : args[i]? with
        | none => simp [ha] at h
        | some arg =>
          rw [ha] at h
          obtain ⟨u, hu, rfl⟩ := exists_of_map_ok h
          exact .argument hc ha (ih hu)
  · intro h
    induction h with
    | nil => rfl
    | letter hc _ ih =>
      unfold fill
      rw [hc, ih]
      rfl
    | argument hc ha _ ih =>
      unfold fill
      rw [hc]
      dsimp only
      rw [ha, ih]
      rfl

theorem exists_fill {template : Text} {args : List Text}
    (h : ∀ i ∈ template.filterMap placeholder?, i < args.length) :
    ∃ v, fill args template = .ok v := by
  induction template with
  | nil => exact ⟨[], rfl⟩
  | cons c cs ih =>
    unfold fill
    cases hc : placeholder? c with
    | none =>
      rw [List.filterMap_cons_none hc] at h
      obtain ⟨v, hv⟩ := ih h
      exact ⟨c :: v, by rw [hv]; rfl⟩
    | some i =>
      rw [List.filterMap_cons_some hc] at h
      obtain ⟨v, hv⟩ := ih fun j hj => h j (List.mem_cons_of_mem i hj)
      have hi : i < args.length := h i List.mem_cons_self
      refine ⟨args[i] ++ v, ?_⟩
      dsimp only
      rw [List.getElem?_eq_getElem hi, hv]
      rfl

theorem Combinator.Usable.exists_substitute {d : Combinator} (h : d.Usable) (h0 : d.arity ≠ 0)
    {args : List Text} (hargs : args.length = d.arity) :
    ∃ v, substitute d.template args = .ok v := by
  obtain ⟨v, hv⟩ := exists_fill fun i hi => hargs ▸ h.resolve_left h0 i hi
  exact ⟨v, substitute_eq_ok_iff.2 hv⟩

namespace Basis

variable {R : Basis} {b rest : Text} {t : Term} {d : Combinator}

/-! ## Collecting arguments -/

theorem collect_eq (R : Basis) (n : Nat) (b : Text) :
    R.collect n b =
      (((R.splitTerms b).take n).map Term.text, Term.join ((R.splitTerms b).drop n)) := by
  induction n generalizing b with
  | zero => simp [collect, join_splitTerms]
  | succ n ih =>
    by_cases hb : b = []
    · subst hb
      simp [collect, takeTerm?]
    · obtain ⟨t, rest, hcut⟩ := R.exists_cut hb
      unfold collect
      rw [hcut.takeTerm?_eq, hcut.splitTerms_eq]
      dsimp only
      rw [ih, List.take_succ_cons, List.drop_succ_cons, List.map_cons]

theorem flatten_collect (R : Basis) (n : Nat) (b : Text) :
    (R.collect n b).1.flatten ++ (R.collect n b).2 = b := by
  rw [collect_eq]
  show Term.join ((R.splitTerms b).take n) ++ Term.join ((R.splitTerms b).drop n) = b
  rw [← Term.join_append, List.take_append_drop, join_splitTerms]

theorem apply_of_constant (hd : d.arity = 0) (R : Basis) (t : Term) (b rest : Text) :
    R.apply d t b rest = .ok ⟨.rule, some t, b, d.template ++ rest, true, some d⟩ := by
  unfold apply
  rw [if_pos (by simp [Combinator.isConstant, hd])]

theorem Cut.putBack_eq (h : R.Cut b t rest) (k : StepKind) (c : Option Combinator) :
    Step.putBack k t c b rest = .stay k (some t) c b := by
  unfold Step.putBack Step.stay
  rw [h.append_eq]

theorem Cut.leave_eq (h : R.Cut b t rest) (inside : Text) :
    Step.leave t b rest inside =
      if inside = [] then .stay .compound (some t) none b
      else ⟨.compound, some t, b, inside ++ rest, true, none⟩ := by
  unfold Step.leave
  rw [h.putBack_eq]

theorem Cut.apply_of_lt (h : R.Cut b t rest) (hd : (R.splitTerms rest).length < d.arity) :
    R.apply d t b rest = .ok (.stay .stuck (some t) (some d) b) := by
  have hpos : ¬ d.isConstant = true := by
    simp only [Combinator.isConstant, decide_eq_true_eq]
    omega
  unfold apply
  rw [if_neg hpos]
  have hflat := flatten_collect R d.arity rest
  rw [collect_eq] at hflat ⊢
  dsimp only at hflat ⊢
  rw [if_pos (by simpa using hd), hflat, h.putBack_eq]

theorem apply_of_le (h0 : d.arity ≠ 0) (hd : d.arity ≤ (R.splitTerms rest).length) (t : Term)
    (b : Text) :
    R.apply d t b rest =
      (substitute d.template (((R.splitTerms rest).take d.arity).map Term.text)).map fun v =>
        ⟨.rule, some t, b, v ++ Term.join ((R.splitTerms rest).drop d.arity), true, some d⟩ := by
  have hpos : ¬ d.isConstant = true := by simpa [Combinator.isConstant] using h0
  unfold apply
  rw [if_neg hpos, collect_eq]
  dsimp only
  rw [if_neg (by simpa using hd)]
  cases substitute d.template (((R.splitTerms rest).take d.arity).map Term.text) <;> rfl

/-! ## How a step begins -/

theorem plan_nil (R : Basis) : R.plan [] = .finished (.ok (.stay .empty none none [])) := rfl

theorem Cut.plan_of_lookup? (h : R.Cut b t rest) (hd : R.lookup? t.text = some d) :
    R.plan b = .finished (R.apply d t b rest) := by
  unfold plan
  rw [h.takeTerm?_eq]
  dsimp only
  rw [hd]

theorem Cut.plan_of_compound (h : R.Cut b t rest) (hd : R.lookup? t.text = none)
    (hk : t.kind = .compound) : R.plan b = .enter t rest := by
  unfold plan
  rw [h.takeTerm?_eq]
  dsimp only
  rw [hd]
  exact if_pos hk

theorem Cut.plan_of_irreducible (h : R.Cut b t rest) (hd : R.lookup? t.text = none)
    (hk : t.kind ≠ .compound) :
    R.plan b = .finished (.ok (.stay .irreducible (some t) none b)) := by
  unfold plan
  rw [h.takeTerm?_eq]
  dsimp only
  rw [hd, ← h.putBack_eq]
  exact if_neg hk

theorem cut_of_plan_enter (h : R.plan b = .enter t rest) :
    R.Cut b t rest ∧ R.lookup? t.text = none ∧ t.kind = .compound := by
  by_cases hb : b = []
  · subst hb
    simp [plan_nil] at h
  · obtain ⟨t', rest', hcut⟩ := R.exists_cut hb
    cases hd : R.lookup? t'.text with
    | some d => simp [hcut.plan_of_lookup? hd] at h
    | none =>
      by_cases hk : t'.kind = .compound
      · rw [hcut.plan_of_compound hd hk] at h
        obtain ⟨rfl, rfl⟩ := Plan.enter.inj h
        exact ⟨hcut, hd, hk⟩
      · simp [hcut.plan_of_irreducible hd hk] at h

/-! ## The cases of a step -/

/-- What one step does to the buffer `b`, when it does not fail. -/
inductive Reduces (R : Basis) (B : Bounds) (depth : Nat) (b : Text) : Step → Prop
  /-- There is no head. -/
  | empty (hb : b = []) : Reduces R B depth b (.stay .empty none none b)
  /-- A combinator without arguments gives way to its template. -/
  | constant {t : Term} {rest : Text} {d : Combinator} (hcut : R.Cut b t rest)
      (hd : R.lookup? t.text = some d) (h0 : d.arity = 0) :
      Reduces R B depth b ⟨.rule, some t, b, d.template ++ rest, true, some d⟩
  /-- A combinator and its arguments give way to the filled template. -/
  | rule {t : Term} {rest v : Text} {d : Combinator} {args others : List Term}
      (hcut : R.Cut b t rest) (hd : R.lookup? t.text = some d) (h0 : d.arity ≠ 0)
      (hsplit : R.splitTerms rest = args ++ others) (hargs : args.length = d.arity)
      (hv : substitute d.template (args.map Term.text) = .ok v) :
      Reduces R B depth b ⟨.rule, some t, b, v ++ Term.join others, true, some d⟩
  /-- A combinator has too few terms behind it. -/
  | stuck {t : Term} {rest : Text} {d : Combinator} (hcut : R.Cut b t rest)
      (hd : R.lookup? t.text = some d) (hargs : (R.splitTerms rest).length < d.arity) :
      Reduces R B depth b (.stay .stuck (some t) (some d) b)
  /-- The head is neither a combinator nor a compound. -/
  | irreducible {t : Term} {rest : Text} (hcut : R.Cut b t rest) (hd : R.lookup? t.text = none)
      (hk : t.kind ≠ .compound) : Reduces R B depth b (.stay .irreducible (some t) none b)
  /-- The inside of a compound is reduced to nothing. -/
  | hollow {t : Term} {rest : Text} (hcut : R.Cut b t rest) (hd : R.lookup? t.text = none)
      (hk : t.kind = .compound) (hv : R.settleAt B depth t.interior = .ok []) :
      Reduces R B depth b (.stay .compound (some t) none b)
  /-- The inside of a compound is reduced, and the brackets are dropped. -/
  | opened {t : Term} {rest v : Text} (hcut : R.Cut b t rest) (hd : R.lookup? t.text = none)
      (hk : t.kind = .compound) (hv : R.settleAt B depth t.interior = .ok v) (hne : v ≠ []) :
      Reduces R B depth b ⟨.compound, some t, b, v ++ rest, true, none⟩

variable {B : Bounds} {depth : Nat} {s : Step}

theorem Reduces.before_eq (h : R.Reduces B depth b s) : s.before = b := by
  cases h <;> rfl

theorem Reduces.after_eq (h : R.Reduces B depth b s) (hs : s.progressed = false) : s.after = b := by
  cases h with
  | empty | stuck | irreducible | hollow => rfl
  | constant | rule | opened => simp at hs

theorem Reduces.stepAt_eq (h : R.Reduces B depth b s) : R.stepAt B depth b = .ok s := by
  cases h with
  | empty hb =>
    subst hb
    rw [stepAt_of_finished (plan_nil R)]
  | constant hcut hd h0 => rw [stepAt_of_finished (hcut.plan_of_lookup? hd), apply_of_constant h0]
  | @rule _ rest _ d _ _ hcut hd h0 hsplit hargs hv =>
    have hle : d.arity ≤ (R.splitTerms rest).length := by
      rw [hsplit, List.length_append]
      omega
    rw [stepAt_of_finished (hcut.plan_of_lookup? hd), apply_of_le h0 hle, hsplit,
      List.take_left' hargs, List.drop_left' hargs, hv]
    rfl
  | stuck hcut hd hargs => rw [stepAt_of_finished (hcut.plan_of_lookup? hd), hcut.apply_of_lt hargs]
  | irreducible hcut hd hk => rw [stepAt_of_finished (hcut.plan_of_irreducible hd hk)]
  | hollow hcut hd hk hv =>
    rw [stepAt_of_enter (hcut.plan_of_compound hd hk), hv]
    show Except.ok (Step.leave _ _ _ _) = _
    rw [hcut.leave_eq, if_pos rfl]
  | opened hcut hd hk hv hne =>
    rw [stepAt_of_enter (hcut.plan_of_compound hd hk), hv]
    show Except.ok (Step.leave _ _ _ _) = _
    rw [hcut.leave_eq, if_neg hne]

theorem reduces_of_apply_eq (hcut : R.Cut b t rest) (hd : R.lookup? t.text = some d)
    (h : R.apply d t b rest = .ok s) : R.Reduces B depth b s := by
  by_cases h0 : d.arity = 0
  · rw [apply_of_constant h0] at h
    obtain rfl := Except.ok.inj h
    exact .constant hcut hd h0
  · by_cases hle : d.arity ≤ (R.splitTerms rest).length
    · rw [apply_of_le h0 hle] at h
      obtain ⟨v, hv, rfl⟩ := exists_of_map_ok h
      exact .rule hcut hd h0 (List.take_append_drop _ _).symm (List.length_take_of_le hle) hv
    · rw [hcut.apply_of_lt (by omega)] at h
      obtain rfl := Except.ok.inj h
      exact .stuck hcut hd (by omega)

/-- **A step that does not fail is one of the cases.** -/
theorem stepAt_eq_ok_iff : R.stepAt B depth b = .ok s ↔ R.Reduces B depth b s := by
  refine ⟨fun h => ?_, Reduces.stepAt_eq⟩
  by_cases hb : b = []
  · subst hb
    rw [stepAt_of_finished (plan_nil R)] at h
    obtain rfl := Except.ok.inj h
    exact .empty rfl
  obtain ⟨t, rest, hcut⟩ := R.exists_cut hb
  cases hd : R.lookup? t.text with
  | some d =>
    rw [stepAt_of_finished (hcut.plan_of_lookup? hd)] at h
    exact reduces_of_apply_eq hcut hd h
  | none =>
    by_cases hk : t.kind = .compound
    · rw [stepAt_of_enter (hcut.plan_of_compound hd hk)] at h
      obtain ⟨v, hv, rfl⟩ := exists_of_map_ok h
      rw [hcut.leave_eq]
      by_cases hne : v = []
      · subst hne
        rw [if_pos rfl]
        exact .hollow hcut hd hk hv
      · rw [if_neg hne]
        exact .opened hcut hd hk hv hne
    · rw [stepAt_of_finished (hcut.plan_of_irreducible hd hk)] at h
      obtain rfl := Except.ok.inj h
      exact .irreducible hcut hd hk

end Basis

end Combinatory
