import Combinatory.Proofs.BalanceKept
import Combinatory.Proofs.Reading

/-!
# The joint of a step

A step that progresses puts a text in place of the head and of the arguments that it takes, and lets the
rest of the buffer stand behind it (`Basis.Splices`). The buffer is flat: the joint is not marked, and
the two texts are read as one when they are read again.

1. What is put in is balanced (`Basis.Splices.balanced`), and what is left behind is made up of the last
   terms of the buffer (`Basis.Splices.exists_used`).
2. No standard name runs over the joint (`Basis.apart_standard`), so that all terms are as they were
   unless a variable runs into the rest (`Basis.splitTerms_append_iff`). It takes subscripts that
   were terms of their own (`Basis.splitTerms_of_subscripts`).

`Reduction.terms_of_step` puts these together. `Ka(b)1` is a step away from `a1`, which is one term.
-/

namespace Combinatory

namespace Basis

variable {R : Basis} {B : Bounds} {depth : Nat} {b u v w : Text}

/-- A step of the buffer `b` puts the first text in place of the head and of the arguments that it
takes, and leaves the second behind it. -/
inductive Splices (R : Basis) (B : Bounds) (depth : Nat) (b : Text) : Text → Text → Prop
  /-- The template stands in place of a combinator without arguments. -/
  | constant {t : Term} {rest : Text} {d : Combinator} (hcut : R.Cut b t rest)
      (hd : R.lookup? t.text = some d) (h0 : d.arity = 0) : Splices R B depth b d.template rest
  /-- The filled template stands in place of a combinator and its arguments. -/
  | rule {t : Term} {rest v : Text} {d : Combinator} {args others : List Term}
      (hcut : R.Cut b t rest) (hd : R.lookup? t.text = some d) (h0 : d.arity ≠ 0)
      (hsplit : R.splitTerms rest = args ++ others) (hargs : args.length = d.arity)
      (hv : substitute d.template (args.map Term.text) = .ok v) :
      Splices R B depth b v (Term.join others)
  /-- The reduced inside stands in place of a compound. -/
  | opened {t : Term} {rest v : Text} (hcut : R.Cut b t rest) (hd : R.lookup? t.text = none)
      (hk : t.kind = .compound) (hv : R.settleAt B depth t.interior = .ok v) (hne : v ≠ []) :
      Splices R B depth b v rest

theorem reduces_progressed_iff :
    (∃ s, R.Reduces B depth b s ∧ s.progressed = true ∧ s.after = u) ↔
      ∃ v w, R.Splices B depth b v w ∧ u = v ++ w := by
  constructor
  · rintro ⟨s, h, hs, rfl⟩
    cases h with
    | empty | stuck | irreducible | hollow => simp [Step.stay] at hs
    | constant hcut hd h0 => exact ⟨_, _, .constant hcut hd h0, rfl⟩
    | rule hcut hd h0 hsplit hargs hv => exact ⟨_, _, .rule hcut hd h0 hsplit hargs hv, rfl⟩
    | opened hcut hd hk hv hne => exact ⟨_, _, .opened hcut hd hk hv hne, rfl⟩
  · rintro ⟨v, w, h, rfl⟩
    cases h with
    | constant hcut hd h0 => exact ⟨_, .constant hcut hd h0, rfl, rfl⟩
    | rule hcut hd h0 hsplit hargs hv => exact ⟨_, .rule hcut hd h0 hsplit hargs hv, rfl, rfl⟩
    | opened hcut hd hk hv hne => exact ⟨_, .opened hcut hd hk hv hne, rfl, rfl⟩

/-- **What is left behind is made up of the last terms of the buffer.** -/
theorem Splices.exists_used (h : R.Splices B depth b v w) :
    ∃ used, R.splitTerms b = used ++ R.splitTerms w := by
  cases h with
  | constant hcut | opened hcut => exact ⟨[_], hcut.splitTerms_eq⟩
  | @rule t rest _ _ args others hcut _ _ hsplit =>
    refine ⟨t :: args, ?_⟩
    rw [hcut.splitTerms_eq, splitTerms_join hsplit, hsplit, List.cons_append]

/-- **What is put in is balanced** where the buffer is. -/
theorem Splices.balanced (h : R.Splices B depth b v w) (hR : R.WellBracketed) (hb : Balanced b) :
    Balanced v := by
  cases h with
  | constant hcut hd h0 => exact (hR _ (mem_of_lookup? hd)).2
  | rule hcut hd h0 hsplit hargs hv =>
    exact balanced_of_substitute_terms hR (hcut.balanced hR.names hb).2.1 (mem_of_lookup? hd)
      hsplit hv
  | opened hcut hd hk hv hne =>
    have hinside := ((hcut.balanced hR.names hb).2.2 hk).2
    exact settleAt_invariant (fun _ _ _ _ hb h => balanced_of_stepAt hR hb h) hinside hv

end Basis

namespace Reduction

variable {r q : Reduction} {s : Step} {v w : Text}

/-- The reduction puts the first text in place of the head of its buffer and of the arguments that it
takes, and leaves the second behind it. -/
def Splices (R : Basis) (r : Reduction) (v w : Text) : Prop :=
  R.Splices r.bounds r.bounds.depth r.buffer v w

theorem exists_splices_of_step {R : Basis} (h : r.step R = (q, .ok s)) (hs : s.progressed = true) :
    ∃ v w, r.Splices R v w ∧ q.buffer = v ++ w := by
  obtain ⟨hok, rfl⟩ := step_eq_ok_iff.1 h
  exact Basis.reduces_progressed_iff.1 ⟨s, Basis.stepAt_eq_ok_iff.1 hok, hs, rfl⟩

theorem Splices.exists_step {R : Basis} (h : r.Splices R v w) :
    ∃ q s, r.step R = (q, .ok s) ∧ s.progressed = true ∧ q.buffer = v ++ w := by
  obtain ⟨s, hred, hs, hafter⟩ := Basis.reduces_progressed_iff.2 ⟨v, w, h, rfl⟩
  exact ⟨_, s, step_eq_ok_iff.2 ⟨hred.stepAt_eq, rfl⟩, hs, hafter⟩

/-- **A step leaves the terms as they are, but for a variable at the joint.** A step over the standard
basis that progresses puts a text in place of the head and its arguments, and the rest of the buffer
behind it. Where the buffer is balanced:

* the terms of the rest are the last terms that the buffer had;
* the terms of the new buffer are those of the two texts, exactly if no variable at the end of the first
  runs into the second;
* the terms of the rest are the subscripts that it begins with, one each, and then those of what
  follows them;
* a variable at the end of the first takes these subscripts, and all other terms are as they were. -/
theorem terms_of_step (hr : Balanced r.buffer) :
    (∀ q s, r.step .standard = (q, .ok s) → s.progressed = true →
      ∃ v w, r.Splices .standard v w ∧ q.buffer = v ++ w) ∧
    ∀ v w, r.Splices .standard v w →
      (∃ q s, r.step .standard = (q, .ok s) ∧ s.progressed = true ∧ q.buffer = v ++ w) ∧
      (∃ used, Basis.standard.splitTerms r.buffer = used ++ Basis.standard.splitTerms w) ∧
      (Basis.standard.splitTerms (v ++ w) =
          Basis.standard.splitTerms v ++ Basis.standard.splitTerms w ↔
        ¬ Basis.standard.RunsInto v w) ∧
      Basis.standard.splitTerms w = (w.takeWhile isSubscript).map (fun c => ⟨[c], .symbol⟩) ++
        Basis.standard.splitTerms (w.dropWhile isSubscript) ∧
      ∀ front x, Basis.standard.splitTerms v = front ++ [⟨x, .var⟩] →
        Basis.standard.splitTerms (v ++ w) = front ++
          ⟨x ++ w.takeWhile isSubscript, .var⟩ ::
            Basis.standard.splitTerms (w.dropWhile isSubscript) := by
  refine ⟨fun q s => exists_splices_of_step, fun v w h => ?_⟩
  have hnames := Basis.wellBracketed_standard.names
  have hv := Basis.Splices.balanced h Basis.wellBracketed_standard hr
  have hw := Basis.apart_standard w
  exact ⟨h.exists_step, Basis.Splices.exists_used h, Basis.splitTerms_append_iff hnames hv hw,
    Basis.splitTerms_of_subscripts Basis.plainNames_standard w,
    fun front x hlast => Basis.splitTerms_append_of_var hnames hv hw hlast rfl⟩

theorem splices_discarding (w : Text) :
    ({ buffer := "Ka(b)".toList ++ w, bounds := {} } : Reduction).Splices .standard ['a'] w := by
  have hhead : Basis.standard.Cut ("Ka(b)".toList ++ w) ⟨['K'], .name⟩ ("a(b)".toList ++ w) :=
    Basis.cut_iff.1 rfl
  have hfirst : Basis.standard.Cut ("a(b)".toList ++ w) ⟨['a'], .var⟩ ("(b)".toList ++ w) :=
    Basis.cut_iff.1 rfl
  have hsecond : Basis.standard.Cut ("(b)".toList ++ w) ⟨"(b)".toList, .compound⟩ w :=
    Basis.cut_iff.1 rfl
  have hargs : Basis.standard.splitTerms ("a(b)".toList ++ w) =
      [⟨['a'], .var⟩, ⟨"(b)".toList, .compound⟩] ++ Basis.standard.splitTerms w := by
    rw [hfirst.splitTerms_eq, hsecond.splitTerms_eq]
    rfl
  have h : ({ buffer := "Ka(b)".toList ++ w, bounds := {} } : Reduction).Splices .standard ['a']
      (Term.join (Basis.standard.splitTerms w)) :=
    .rule (d := .k) hhead rfl (by decide) hargs rfl rfl
  rwa [Basis.join_splitTerms] at h

/-- The digit was a term of the buffer, and goes on a variable after the step. -/
theorem step_merges_digit :
    Balanced "Ka(b)1".toList ∧
    ({ buffer := "Ka(b)1".toList, bounds := {} } : Reduction).Splices .standard ['a'] ['1'] ∧
    ({ buffer := "Ka(b)1".toList, bounds := {} } : Reduction).step .standard =
      ({ buffer := ['a', '1'], bounds := {} },
        .ok ⟨.rule, some ⟨['K'], .name⟩, "Ka(b)1".toList, ['a', '1'], true, some .k⟩) ∧
    Basis.standard.splitTerms ['a', '1'] ≠
      Basis.standard.splitTerms ['a'] ++ Basis.standard.splitTerms ['1'] := by
  have hvar : Basis.standard.Cut ['a'] ⟨['a'], .var⟩ [] := Basis.cut_iff.1 rfl
  have hdigit : Basis.standard.Cut ['1'] ⟨['1'], .symbol⟩ [] := Basis.cut_iff.1 rfl
  have hmerged : Basis.standard.Cut ['a', '1'] ⟨['a', '1'], .var⟩ [] := Basis.cut_iff.1 rfl
  refine ⟨by decide, splices_discarding ['1'], rfl, ?_⟩
  rw [hmerged.splitTerms_eq, hvar.splitTerms_eq, hdigit.splitTerms_eq, Basis.splitTerms_nil]
  simp

/-- A variable behind the joint is no part of the one before it. -/
theorem terms_of_step_variable :
    Balanced "Ka(b)c1".toList ∧
    ({ buffer := "Ka(b)c1".toList, bounds := {} } : Reduction).Splices .standard
      ['a'] "c1".toList ∧
    Basis.standard.splitTerms "ac1".toList =
      Basis.standard.splitTerms ['a'] ++ Basis.standard.splitTerms "c1".toList := by
  have hbalanced : Balanced "Ka(b)c1".toList := by decide
  have hsplices := splices_discarding "c1".toList
  refine ⟨hbalanced, hsplices, ((terms_of_step hbalanced).2 _ _ hsplices).2.2.1.2 ?_⟩
  rintro ⟨-, c, hc, hs⟩
  obtain rfl := Option.some.inj hc
  exact absurd hs (by decide)

end Reduction

end Combinatory
