import Combinatory.Proofs.BalanceKept

/-!
# How deeply brackets nest

`nesting t` is the greatest number of brackets that are open at once in `t`.

1. A piece of a text nests no deeper than the text (`nesting_le_append_left`,
   `nesting_le_append_right`), and the inside of a compound that is cut off a buffer nests less deeply
   than the buffer, whether the compound is closed or not (`Basis.Cut.nesting_interior_lt`).
2. A filled template nests no deeper than the template and its deepest argument together
   (`nesting_of_substitute_le`).
3. So a rule adds the nesting of its template at most (`Basis.Reduces.nesting_rule_le`), and over
   templates without brackets no step adds any (`Basis.nesting_stepAt_le`).
-/

namespace Combinatory

/-- The greatest number of brackets that are open at once in a text, when `n` are open before it. A
closing bracket without partner closes nothing. -/
def nestingFrom (n : Nat) : Text → Nat
  | [] => n
  | c :: cs =>
    if c = '(' then nestingFrom (n + 1) cs
    else if c = ')' then max n (nestingFrom (n - 1) cs)
    else nestingFrom n cs

/-- How deeply the brackets of a text nest. -/
def nesting (t : Text) : Nat := nestingFrom 0 t

section Counting

variable {n m k : Nat} {t u w : Text}

@[simp] theorem nestingFrom_nil (n : Nat) : nestingFrom n [] = n := rfl

@[simp] theorem nestingFrom_open (n : Nat) (t : Text) :
    nestingFrom n ('(' :: t) = nestingFrom (n + 1) t := rfl

@[simp] theorem nestingFrom_close (n : Nat) (t : Text) :
    nestingFrom n (')' :: t) = max n (nestingFrom (n - 1) t) := rfl

theorem nestingFrom_other {c : Char} (ho : c ≠ '(') (hc : c ≠ ')') (n : Nat) (t : Text) :
    nestingFrom n (c :: t) = nestingFrom n t := by
  simp [nestingFrom, ho, hc]

theorem nestingFrom_mono (h : n ≤ m) (t : Text) : nestingFrom n t ≤ nestingFrom m t := by
  induction t using bracket_induction generalizing n m with
  | nil => exact h
  | opening t ih => exact ih (Nat.add_le_add_right h 1)
  | closing t ih =>
    have hrest := ih (Nat.sub_le_sub_right h 1)
    rw [nestingFrom_close, nestingFrom_close]
    omega
  | other c t ho hc ih =>
    rw [nestingFrom_other ho hc, nestingFrom_other ho hc]
    exact ih h

theorem le_nestingFrom (n : Nat) (t : Text) : n ≤ nestingFrom n t := by
  induction t using bracket_induction generalizing n with
  | nil => exact le_refl n
  | opening t ih => exact (Nat.le_succ n).trans (ih (n + 1))
  | closing t ih => exact le_max_left n _
  | other c t ho hc ih =>
    rw [nestingFrom_other ho hc]
    exact ih n

theorem nestingFrom_le_append_left (n : Nat) (u w : Text) :
    nestingFrom n u ≤ nestingFrom n (u ++ w) := by
  induction u using bracket_induction generalizing n with
  | nil => exact le_nestingFrom n w
  | opening u ih => exact ih (n + 1)
  | closing u ih =>
    have hrest := ih (n - 1)
    rw [List.cons_append, nestingFrom_close, nestingFrom_close]
    omega
  | other c u ho hc ih =>
    rw [List.cons_append, nestingFrom_other ho hc, nestingFrom_other ho hc]
    exact ih n

theorem nesting_le_append_left (u w : Text) : nesting u ≤ nesting (u ++ w) :=
  nestingFrom_le_append_left 0 u w

theorem nesting_le_nestingFrom_append (n : Nat) (u w : Text) :
    nesting w ≤ nestingFrom n (u ++ w) := by
  induction u using bracket_induction generalizing n with
  | nil => exact nestingFrom_mono (Nat.zero_le n) w
  | opening u ih => exact ih (n + 1)
  | closing u ih => exact (ih (n - 1)).trans (le_max_right _ _)
  | other c u ho hc ih =>
    rw [List.cons_append, nestingFrom_other ho hc]
    exact ih n

theorem nesting_le_append_right (u w : Text) : nesting w ≤ nesting (u ++ w) :=
  nesting_le_nestingFrom_append 0 u w

theorem nestingFrom_add (h : openAfter n t = some m) (k : Nat) :
    nestingFrom (n + k) t = nestingFrom n t + k := by
  induction t using bracket_induction generalizing n with
  | nil => rfl
  | opening t ih =>
    rw [nestingFrom_open, nestingFrom_open, ← ih h]
    congr 1
    omega
  | closing t ih =>
    cases n with
    | zero => simp at h
    | succ n =>
      have hrest := ih h
      simp only [nestingFrom_close, Nat.add_sub_cancel]
      rw [show n + 1 + k - 1 = n + k by omega, hrest]
      omega
  | other c t ho hc ih =>
    rw [openAfter_other ho hc] at h
    rw [nestingFrom_other ho hc, nestingFrom_other ho hc]
    exact ih h

theorem Balanced.nestingFrom (h : Balanced t) (n : Nat) : nestingFrom n t = n + nesting t := by
  have := nestingFrom_add h n
  rw [Nat.zero_add] at this
  rw [this, Nat.add_comm]
  rfl

theorem nestingFrom_append (h : openAfter n u = some m) (w : Text) :
    nestingFrom n (u ++ w) = max (nestingFrom n u) (nestingFrom m w) := by
  induction u using bracket_induction generalizing n with
  | nil =>
    obtain rfl : n = m := Option.some.inj h
    exact (max_eq_right (le_nestingFrom n w)).symm
  | opening u ih => exact ih h
  | closing u ih =>
    cases n with
    | zero => simp at h
    | succ n =>
      have hrest := ih (n := n) h
      rw [List.cons_append, nestingFrom_close, nestingFrom_close, Nat.add_sub_cancel, hrest, max_assoc]
  | other c u ho hc ih =>
    rw [openAfter_other ho hc] at h
    rw [List.cons_append, nestingFrom_other ho hc, nestingFrom_other ho hc]
    exact ih h

theorem nesting_append (h : Balanced u) (w : Text) :
    nesting (u ++ w) = max (nesting u) (nesting w) := nestingFrom_append h w

theorem nesting_flatten_le {ts : List Text} (h : ∀ t ∈ ts, Balanced t ∧ nesting t ≤ n) :
    nesting ts.flatten ≤ n := by
  induction ts with
  | nil => exact Nat.zero_le n
  | cons t ts ih =>
    obtain ⟨hbal, ht⟩ := h t List.mem_cons_self
    rw [List.flatten_cons, nesting_append hbal]
    exact max_le ht (ih fun u hu => h u (List.mem_cons_of_mem t hu))

/-! ## The inside of a compound -/

theorem nesting_lt_of_open {w : Text} (h : openAfter 0 u = some m) :
    nesting u < nesting ('(' :: (u ++ w)) := by
  have hadd : nestingFrom (0 + 1) u = nesting u + 1 := nestingFrom_add h 1
  calc nesting u < nestingFrom (0 + 1) u := by omega
    _ ≤ nesting ('(' :: (u ++ w)) := nestingFrom_le_append_left (0 + 1) u w

end Counting

/-- **The inside of a compound nests less deeply than the buffer.** -/
theorem Basis.Cut.nesting_interior_lt {R : Basis} {b rest : Text} {t : Term} (h : R.Cut b t rest)
    (hk : t.kind = .compound) : nesting t.interior < nesting b := by
  rcases h.closed_or_open hk with ⟨u, hu, rfl, rfl⟩ | ⟨cs, m, hm, rfl, rfl, rfl⟩
  · rw [Term.interior_bracketed hu, bracketed, List.append_assoc]
    exact nesting_lt_of_open hu
  · rw [Term.interior_of_open hm]
    have := nesting_lt_of_open (w := []) hm
    rwa [List.append_nil] at this

/-! ## Templates -/

theorem nestingFrom_fill_le {args : List Text} {N : Nat}
    (hargs : ∀ a ∈ args, Balanced a ∧ nesting a ≤ N) {template v : Text}
    (h : fill args template = .ok v) (n : Nat) : nestingFrom n v ≤ nestingFrom n template + N := by
  replace h := fill_eq_ok_iff.1 h
  induction h generalizing n with
  | nil => exact Nat.le_add_right n N
  | @letter c cs u _ _ ih =>
    by_cases ho : c = '('
    · exact ho ▸ ih (n + 1)
    · by_cases hcl : c = ')'
      · subst hcl
        have hrest := ih (n - 1)
        rw [nestingFrom_close, nestingFrom_close]
        omega
      · rw [nestingFrom_other ho hcl, nestingFrom_other ho hcl]
        exact ih n
  | @argument c cs u arg i hc ha _ ih =>
    obtain ⟨hbal, hnest⟩ := hargs arg (List.mem_of_getElem? ha)
    have hb := not_bracket_of_placeholder? hc
    have hrest := ih n
    have hn := le_nestingFrom n cs
    rw [nestingFrom_append (hbal.openAfter n), hbal.nestingFrom, nestingFrom_other hb.1 hb.2]
    omega

theorem nesting_of_substitute_le {args : List Text} {N : Nat}
    (hargs : ∀ a ∈ args, Balanced a ∧ nesting a ≤ N) {template v : Text}
    (h : substitute template args = .ok v) : nesting v ≤ nesting template + N :=
  nestingFrom_fill_le hargs (substitute_eq_ok_iff.1 h) 0

namespace Basis

variable {R : Basis} {B : Bounds} {depth : Nat} {b : Text} {s : Step}

/-! ## Steps -/

theorem Cut.nesting_rest_le {rest : Text} {t : Term} (h : R.Cut b t rest) :
    nesting rest ≤ nesting b := by
  rw [← h.append_eq]
  exact nesting_le_append_right t.text rest

theorem nesting_le_of_mem_splitTerms {t : Term} (h : t ∈ R.splitTerms b) :
    nesting t.text ≤ nesting b := by
  obtain ⟨front, tail, rest, rfl, hcut⟩ := exists_cut_of_mem_splitTerms h
  rw [← hcut.append_eq]
  exact (nesting_le_append_left t.text rest).trans (nesting_le_append_right front _)

theorem nesting_join_le (hR : R.BalancedNames) (hb : Balanced b) {ts : List Term}
    (hts : ∀ t ∈ ts, t ∈ R.splitTerms b) : nesting (Term.join ts) ≤ nesting b := by
  refine nesting_flatten_le fun x hx => ?_
  obtain ⟨t, ht, rfl⟩ := List.mem_map.1 hx
  exact ⟨(forall_mem_splitTerms hR hb t (hts t ht)).1, nesting_le_of_mem_splitTerms (hts t ht)⟩

/-- **A rule adds the nesting of its template at most.** -/
theorem Reduces.nesting_rule_le (h : R.Reduces B depth b s) (hR : R.WellBracketed)
    (hb : Balanced b) (hk : s.kind = .rule) :
    ∃ d ∈ R.combinators, s.combinator = some d ∧ nesting s.after ≤ nesting d.template + nesting b := by
  cases h with
  | empty | stuck | irreducible | hollow | opened => simp [Step.stay] at hk
  | @constant t rest d hcut hd h0 =>
    have hmem := mem_of_lookup? hd
    have hrest := hcut.nesting_rest_le
    refine ⟨d, hmem, rfl, ?_⟩
    rw [nesting_append (hR d hmem).2]
    omega
  | @rule t rest v d args others hcut hd h0 hsplit hargs hv =>
    have hmem := mem_of_lookup? hd
    have hbal := (hcut.balanced hR.names hb).2.1
    have hrest := hcut.nesting_rest_le
    have hpieces : ∀ a ∈ args.map Term.text, Balanced a ∧ nesting a ≤ nesting b := by
      intro x hx
      obtain ⟨a, ha, rfl⟩ := List.mem_map.1 hx
      have ha : a ∈ R.splitTerms rest := hsplit ▸ List.mem_append_left others ha
      exact ⟨(forall_mem_splitTerms hR.names hbal a ha).1,
        (nesting_le_of_mem_splitTerms ha).trans hrest⟩
    have hfilled := nesting_of_substitute_le hpieces hv
    have hothers : nesting (Term.join others) ≤ nesting rest :=
      nesting_join_le hR.names hbal fun a ha => hsplit ▸ List.mem_append_right args ha
    have hvbal := balanced_of_substitute (hR d hmem).2 (fun a ha => (hpieces a ha).1) hv
    refine ⟨d, hmem, rfl, ?_⟩
    rw [nesting_append hvbal]
    omega

/-- **Over templates without brackets no step adds nesting**, at whatever depth. -/
theorem nesting_stepAt_le (hR : R.WellBracketed) (hflat : ∀ d ∈ R.combinators, nesting d.template = 0)
    (hb : Balanced b) (h : R.stepAt B depth b = .ok s) : nesting s.after ≤ nesting b := by
  induction depth using Nat.strong_induction_on generalizing b s with
  | _ depth ih =>
    have hrule := (stepAt_eq_ok_iff.1 h).nesting_rule_le hR hb
    cases stepAt_eq_ok_iff.1 h with
    | empty | stuck | irreducible | hollow => exact le_refl _
    | constant | rule =>
      obtain ⟨d, hd, -, hle⟩ := hrule rfl
      rwa [hflat d hd, Nat.zero_add] at hle
    | @opened t rest v hcut hd hk hv hne =>
      obtain ⟨-, -, hclosed⟩ := hcut.balanced hR.names hb
      -- What is reduced inside stays balanced, and keeps below the nesting of the buffer.
      have hinside : Balanced v ∧ nesting v ≤ nesting b :=
        settleAt_invariant (P := fun c => Balanced c ∧ nesting c ≤ nesting b)
          (fun d hd _ _ hc hs =>
            ⟨balanced_of_stepAt hR hc.1 hs, (ih d hd hc.1 hs).trans hc.2⟩)
          ⟨(hclosed hk).2, (hcut.nesting_interior_lt hk).le⟩ hv
      rw [nesting_append hinside.1]
      exact max_le hinside.2 hcut.nesting_rest_le

end Basis

end Combinatory
