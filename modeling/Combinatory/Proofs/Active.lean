import Combinatory.Proofs.Walk
import Combinatory.Reduction.Narration

/-!
# The reductions at work

While a reduction is under way, every compound that a step enters is reduced on its own, and so are
the compounds inside. `Reduction.Active` collects all reductions that are at work, with the buffers
that they come to hold; what a run tells of are steps of these (`Reduction.exists_active_of_told`).
-/

namespace Combinatory

/-! ## Loops -/

theorem advance_invariant {P : Text → Prop} {step : Text → Except Fault Step}
    (hstep : ∀ {b s}, P b → step b = .ok s → P s.after) {n : Nat} {b v : Text} {settled : Bool}
    (hb : P b) (h : advance step n b = .ok (v, settled)) : P v := by
  induction n generalizing b with
  | zero =>
    obtain ⟨rfl, -⟩ := Prod.mk.inj (Except.ok.inj h)
    exact hb
  | succ n ih =>
    unfold advance at h
    cases hs : step b with
    | error f => simp [hs] at h
    | ok s =>
      rw [hs] at h
      dsimp only at h
      split at h
      · exact ih (hstep hb hs) h
      · obtain ⟨rfl, -⟩ := Prod.mk.inj (Except.ok.inj h)
        exact hstep hb hs

theorem settle_eq_ok_iff {B : Bounds} {step : Text → Except Fault Step} {e v : Text} :
    settle B step e = .ok v ↔ advance step B.fuel e = .ok (v, true) := by
  unfold settle
  rcases advance step B.fuel e with f | ⟨u, settled⟩
  · simp [Bounds.settled]
  · cases settled <;> simp [Bounds.settled]

namespace Basis

variable {R : Basis} {B : Bounds}

/-- What every step inside brackets keeps, the reduction of the inside keeps. -/
theorem settleAt_invariant {P : Text → Prop} {depth : Nat} {e v : Text}
    (hstep : ∀ d < depth, ∀ {b s}, P b → R.stepAt B d b = .ok s → P s.after) (he : P e)
    (h : R.settleAt B depth e = .ok v) : P v := by
  cases depth with
  | zero => simp [settleAt] at h
  | succ d => exact advance_invariant (hstep d (Nat.lt_succ_self d)) he (settle_eq_ok_iff.1 h)

theorem stepAt_setDepth (R : Basis) (B : Bounds) (k d : Nat) :
    R.stepAt { B with depth := k } d = R.stepAt B d := by
  induction d using Nat.strong_induction_on with
  | _ d ih =>
    funext b
    cases hp : R.plan b with
    | finished outcome => rw [stepAt_of_finished hp, stepAt_of_finished hp]
    | enter head rest =>
      rw [stepAt_of_enter hp, stepAt_of_enter hp]
      cases d with
      | zero => rfl
      | succ d =>
        have hsettle : R.settleAt { B with depth := k } (d + 1) head.interior =
            settle B (R.stepAt { B with depth := k } d) head.interior := rfl
        rw [hsettle, ih d (Nat.lt_succ_self d)]
        rfl

theorem settleAt_setDepth (R : Basis) (B : Bounds) (k d : Nat) (e : Text) :
    R.settleAt { B with depth := k } d e = R.settleAt B d e := by
  cases d with
  | zero => rfl
  | succ d =>
    show settle B (R.stepAt { B with depth := k } d) e = settle B (R.stepAt B d) e
    rw [stepAt_setDepth]

end Basis

/-! ## Active reductions -/

namespace Reduction

variable {R : Basis} {r q p : Reduction}

/-- The reduction of the inside of a compound at the head of `r`, for which a step of `r` waits. -/
def child (r : Reduction) (head : Term) : Reduction :=
  { buffer := head.interior, bounds := { r.bounds with depth := r.bounds.depth - 1 } }

/-- `r.Active R q`: when `r` is under way, `q` is at work, which is `r` itself, or what a step makes of
a reduction at work, or the reduction of a compound that such a step enters. -/
inductive Active (R : Basis) (r : Reduction) : Reduction → Prop
  | self : Active R r r
  | step {q : Reduction} (h : Active R r q) : Active R r (q.step R).1
  | child {q : Reduction} {head : Term} {rest : Text} (h : Active R r q)
      (hp : R.plan q.buffer = .enter head rest) (hd : 0 < q.bounds.depth) :
      Active R r (q.child head)

theorem Active.trans (h : r.Active R q) (h' : q.Active R p) : r.Active R p := by
  induction h' with
  | self => exact h
  | step _ ih => exact ih.step
  | child _ hp hd ih => exact ih.child hp hd

theorem active_walk (n : Nat) (done : List Step) (r : Reduction) :
    r.Active R (r.walk R n done).1 := by
  induction n generalizing done r with
  | zero => exact .self
  | succ n ih =>
    unfold walk
    split
    · have hstep : r.Active R (r.step R).1 := .step .self
      split
      · next h => rwa [h] at hstep
      · next h =>
        rw [h] at hstep
        exact hstep.trans (ih _ _)
    · exact .self

theorem active_run (n : Int) (r : Reduction) : r.Active R (r.run R n).1 := by
  have h := active_walk (R := R) n.toNat [] r
  unfold run
  split <;> next hw => rwa [hw] at h

/-! ## What is told -/

theorem eq_ok_of_stepped_mem_ownEvents {outcome : Except Fault Step} {s : Step}
    (h : Event.stepped s ∈ R.ownEvents outcome) : outcome = .ok s := by
  unfold Basis.ownEvents at h
  split at h
  · simp at h
  · split at h <;> simp_all

section Told

variable {B : Bounds} {d : Nat} {s : Step}

theorem step_eq_narrateStep (hr : r.bounds = { B with depth := d }) :
    R.step r.bounds r.buffer = (R.narrateStep B d r.buffer).2 := by
  rw [R.narrateStep_result]
  unfold Basis.step
  rw [hr, R.stepAt_setDepth]

/-- What a loop tells of was told before it, or is a step of a reduction at work in it. -/
theorem exists_active_of_told_advance
    (hstep : ∀ r : Reduction, r.bounds = { B with depth := d } →
      .stepped s ∈ (R.narrateStep B d r.buffer).1 → ∃ q, r.Active R q ∧ (q.step R).2 = .ok s)
    {n : Nat} {told : List Event} {r : Reduction} (hr : r.bounds = { B with depth := d })
    (h : .stepped s ∈ (narrateAdvance (R.narrateStep B d) n told r.buffer).1) :
    .stepped s ∈ told ∨ ∃ q, r.Active R q ∧ (q.step R).2 = .ok s := by
  induction n generalizing told r with
  | zero => exact .inl h
  | succ n ih =>
    have hown : ∀ events, (R.narrateStep B d r.buffer).1 = events →
        .stepped s ∈ events.reverse ++ told →
          .stepped s ∈ told ∨ ∃ q, r.Active R q ∧ (q.step R).2 = .ok s := by
      intro events he hs
      rcases List.mem_append.1 hs with hs | hs
      · exact .inr (hstep r hr (he ▸ List.mem_reverse.1 hs))
      · exact .inl hs
    unfold narrateAdvance at h
    rcases hn : R.narrateStep B d r.buffer with ⟨events, f | st⟩
    · rw [hn] at h
      exact hown events (by rw [hn]) h
    · have hnext : r.step R = ({ r with buffer := st.after, canStep := st.progressed }, .ok st) :=
        step_of_ok (by rw [step_eq_narrateStep hr, hn])
      rw [hn] at h
      dsimp only at h
      split at h
      · have hact : r.Active R { r with buffer := st.after, canStep := st.progressed } := by
          have := Active.step (R := R) (Active.self (r := r))
          rwa [hnext] at this
        rcases ih (r := { r with buffer := st.after, canStep := st.progressed }) hr h with
          hs | ⟨q, hq, hqs⟩
        · exact hown events (by rw [hn]) hs
        · exact .inr ⟨q, hact.trans hq, hqs⟩
      · exact hown events (by rw [hn]) h

theorem exists_active_of_told_own (hr : r.bounds = { B with depth := d })
    (h : .stepped s ∈ R.ownEvents (R.narrateStep B d r.buffer).2) :
    ∃ q, r.Active R q ∧ (q.step R).2 = .ok s := by
  refine ⟨r, .self, ?_⟩
  rw [step_snd, step_eq_narrateStep hr]
  exact eq_ok_of_stepped_mem_ownEvents h

theorem exists_active_of_told_finished {outcome : Except Fault Step}
    (hp : R.plan r.buffer = .finished outcome) (hr : r.bounds = { B with depth := d })
    (h : .stepped s ∈ (R.narrateStep B d r.buffer).1) :
    ∃ q, r.Active R q ∧ (q.step R).2 = .ok s := by
  refine exists_active_of_told_own hr ?_
  rwa [Basis.narrateStep_of_finished hp] at h ⊢

theorem exists_active_of_told_step (hr : r.bounds = { B with depth := d })
    (h : .stepped s ∈ (R.narrateStep B d r.buffer).1) :
    ∃ q, r.Active R q ∧ (q.step R).2 = .ok s := by
  induction d generalizing r with
  | zero =>
    cases hp : R.plan r.buffer with
    | finished outcome => exact exists_active_of_told_finished hp hr h
    | enter head rest => simp [Basis.narrateStep, hp] at h
  | succ d ih =>
    cases hp : R.plan r.buffer with
    | finished outcome => exact exists_active_of_told_finished hp hr h
    | enter head rest =>
      rw [Basis.narrateStep_of_enter hp] at h
      rcases List.mem_append.1 h with h | h
      · have hdepth : 0 < r.bounds.depth := by
          rw [hr]
          exact Nat.succ_pos d
        have hchild : (r.child head).bounds = { B with depth := d } := by
          unfold child
          rw [hr]
          rfl
        rw [List.mem_reverse] at h
        rcases exists_active_of_told_advance (fun _ => ih) hchild h with h | ⟨q, hq, hqs⟩
        · simp at h
        · exact ⟨q, (Active.self.child hp hdepth).trans hq, hqs⟩
      · exact exists_active_of_told_own hr h

/-- **What a run tells of are steps of active reductions.** -/
theorem exists_active_of_told {n : Nat}
    (h : .stepped s ∈ R.narrateRun r.bounds n r.buffer) : ∃ q, r.Active R q ∧ (q.step R).2 = .ok s := by
  have h := List.mem_reverse.1 h
  rcases exists_active_of_told_advance (fun _ => exists_active_of_told_step) rfl h with h | h
  · simp at h
  · exact h

end Told

end Reduction

end Combinatory
