import Combinatory.Proofs.BalanceKept

/-!
# Feeding a reduction

A step that progresses reads a balanced buffer no further than its end, and so a detached text behind
the buffer stays where it is (`Basis.Reduces.extend`), through any number of steps (`Makes.extend`).

`makes_of_fed`: a reduction that is fed when its run has ended is where it would be, had the text been
there from the first.
-/

namespace Combinatory

/-- The same step with a further text behind the buffer: its kind, its head and its combinator are
kept. -/
def Step.extend (s : Step) (w : Text) : Step :=
  { s with before := s.before ++ w, after := s.after ++ w }

def Reduction.extend (r : Reduction) (w : Text) : Reduction := { r with buffer := r.buffer ++ w }

/-- **A step that progresses is the same step before a detached text.** -/
theorem Basis.Reduces.extend {R : Basis} {B : Bounds} {depth : Nat} {b w : Text} {s : Step}
    (h : R.Reduces B depth b s) (hp : s.progressed = true) (hR : R.BalancedNames) (hb : Balanced b)
    (hw : R.Detached w) : R.Reduces B depth (b ++ w) (s.extend w) := by
  unfold Step.extend
  rw [h.before_eq]
  cases h with
  | empty | stuck | irreducible | hollow => simp [Step.stay] at hp
  | constant hcut hd h0 =>
    rw [List.append_assoc]
    exact .constant (hcut.append hb hw) hd h0
  | rule hcut hd h0 hsplit hargs hv =>
    have hrest := splitTerms_append hR (hcut.balanced hR hb).2.1 hw
    rw [hsplit, List.append_assoc] at hrest
    have h : R.Reduces B depth _ _ := .rule (hcut.append hb hw) hd h0 hrest hargs hv
    rwa [Term.join_append, R.join_splitTerms, ← List.append_assoc] at h
  | opened hcut hd hk hv hne =>
    rw [List.append_assoc]
    exact .opened (hcut.append hb hw) hd hk hv hne

namespace Reduction

variable {R : Basis} {r q last : Reduction} {w : Text}

theorem step_extend {s : Step} (hR : R.BalancedNames) (hr : Balanced r.buffer) (hw : R.Detached w)
    (h : r.step R = (q, .ok s)) (hp : s.progressed = true) :
    (r.extend w).step R = (q.extend w, .ok (s.extend w)) := by
  obtain ⟨hok, rfl⟩ := step_eq_ok_iff.1 h
  have hred := Basis.stepAt_eq_ok_iff.1 hok
  exact step_eq_ok_iff.2 ⟨(hred.extend hp hR hr hw).stepAt_eq, rfl⟩

theorem Makes.extend {steps : List Step} (h : r.Makes R steps q) (hR : R.WellBracketed)
    (hr : Balanced r.buffer) (hw : R.Detached w) :
    (r.extend w).Makes R (steps.map (·.extend w)) (q.extend w) := by
  induction h with
  | nil r => exact .nil _
  | @cons r p last s steps hs hp _ ih =>
    have hp' := balanced_step hR hr
    rw [hs] at hp'
    exact .cons (step_extend hR.names hr hw hs hp) hp (ih hp')

/-- **Text may be fed bit by bit.** Over balanced names and templates, let `w` be a text that no
variable and no name can run into. The steps that progress on a balanced buffer `e` are, with the same
kinds and combinators, steps on `e ++ w`, and `w` stays behind the buffer. Hence a reduction of `e`
that is fed with `w` when its run has ended is what a reduction of `e ++ w` is after as many steps. -/
theorem makes_of_fed (hR : R.WellBracketed) {e : Text} (he : Balanced e) (hw : R.Detached w)
    (B : Bounds) :
    (∀ steps q, ({ buffer := e, bounds := B } : Reduction).Makes R steps q →
      ({ buffer := e ++ w, bounds := B } : Reduction).Makes R (steps.map (·.extend w))
        (q.extend w)) ∧
    ∀ n last tr, ({ buffer := e, bounds := B } : Reduction).run R n = (last, .ok tr) →
      last.canStep = false →
        ({ buffer := e ++ w, bounds := B } : Reduction).Makes R (tr.steps.map (·.extend w))
          (last.feed w) := by
  refine ⟨fun steps q h => h.extend hR he hw, fun n last tr h hstop => ?_⟩
  obtain ⟨q, hmakes, hend⟩ := cases_of_run rfl h
  have hq : q.canStep = true := hmakes.canStep rfl
  rcases hend with ⟨-, rfl⟩ | ⟨-, s, hs, hp⟩
  · simp [hq] at hstop
  · -- The last step changed nothing but the flag, which feeding sets again.
    have hfeed : last.feed w = q.extend w := by
      rw [eq_of_step_of_not_progressed hs hp]
      unfold feed Reduction.extend
      rw [hq]
    rw [hfeed]
    exact hmakes.extend hR he hw

/-- `IKa` is reduced to `Ka`, which waits for another argument. -/
theorem makes_of_fed_waiting :
    ({ buffer := "IKabc".toList, bounds := {} } : Reduction).Makes .standard
      [⟨.rule, some ⟨['I'], .name⟩, "IKabc".toList, "Kabc".toList, true, some .i⟩]
      { buffer := "Kabc".toList, bounds := {} } :=
  (makes_of_fed Basis.wellBracketed_standard (e := "IKa".toList) (w := "bc".toList) (by decide)
    (by decide) {}).2 5 { buffer := "Ka".toList, bounds := {}, canStep := false }
    ⟨"IKa".toList, [⟨.rule, some ⟨['I'], .name⟩, "IKa".toList, "Ka".toList, true, some .i⟩],
      "Ka".toList, true⟩ rfl rfl

end Reduction

end Combinatory
