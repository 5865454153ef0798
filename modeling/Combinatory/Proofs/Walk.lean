import Combinatory.Proofs.StepCases
import Combinatory.Reduction.Run

/-!
# Runs as sequences of steps

`r.Makes R steps q` says that the given steps, all of which progress, lead from `r` to `q`. A run that
does not fail makes the steps of its trace, and then either has spent its number or makes one more
step that does not progress (`Reduction.cases_of_run`). When the same steps can be made in a loop, the
run does not fail, and ends as the loop does (`Reduction.run_of_advance`).
-/

namespace Combinatory

namespace Reduction

variable {R : Basis} {r q last : Reduction} {s : Step}

/-! ## Single steps -/

theorem step_of_ok (h : R.step r.bounds r.buffer = .ok s) :
    r.step R = ({ r with buffer := s.after, canStep := s.progressed }, .ok s) := by
  unfold step
  rw [h]

theorem step_snd (R : Basis) (r : Reduction) : (r.step R).2 = R.step r.bounds r.buffer := by
  unfold step
  cases R.step r.bounds r.buffer <;> rfl

theorem step_eq_ok_iff :
    r.step R = (q, .ok s) ↔
      R.step r.bounds r.buffer = .ok s ∧
        q = { r with buffer := s.after, canStep := s.progressed } := by
  unfold step
  cases R.step r.bounds r.buffer with
  | error f => simp
  | ok s' =>
    simp only [Prod.mk.injEq, Except.ok.injEq]
    constructor
    · rintro ⟨rfl, rfl⟩
      exact ⟨rfl, rfl⟩
    · rintro ⟨rfl, rfl⟩
      exact ⟨rfl, rfl⟩

theorem step_eq_error_iff {f : Fault} :
    r.step R = (q, .error f) ↔ R.step r.bounds r.buffer = .error f ∧ q = r := by
  unfold step
  cases R.step r.bounds r.buffer with
  | ok s => simp
  | error g =>
    simp only [Prod.mk.injEq, Except.error.injEq]
    constructor
    · rintro ⟨rfl, rfl⟩
      exact ⟨rfl, rfl⟩
    · rintro ⟨rfl, rfl⟩
      exact ⟨rfl, rfl⟩

theorem eq_of_step_of_not_progressed (h : r.step R = (q, .ok s)) (hs : s.progressed = false) :
    q = { r with canStep := false } := by
  obtain ⟨hok, rfl⟩ := step_eq_ok_iff.1 h
  rw [(Basis.stepAt_eq_ok_iff.1 hok).after_eq hs, hs]

/-! ## Sequences of steps -/

/-- The steps, all of which progress, lead from one reduction to the other. -/
inductive Makes (R : Basis) : Reduction → List Step → Reduction → Prop
  | nil (r : Reduction) : Makes R r [] r
  | cons {r q last : Reduction} {s : Step} {steps : List Step} (hs : r.step R = (q, .ok s))
      (hp : s.progressed = true) (h : Makes R q steps last) : Makes R r (s :: steps) last

theorem Makes.canStep {steps : List Step} (h : r.Makes R steps q) (hr : r.canStep = true) :
    q.canStep = true := by
  induction h with
  | nil r => exact hr
  | cons hs hp _ ih =>
    obtain ⟨-, rfl⟩ := step_eq_ok_iff.1 hs
    exact ih hp

theorem Makes.bounds_eq {steps : List Step} (h : r.Makes R steps q) : q.bounds = r.bounds := by
  induction h with
  | nil r => rfl
  | cons hs _ _ ih =>
    obtain ⟨-, rfl⟩ := step_eq_ok_iff.1 hs
    exact ih

theorem walk_of_not_canStep (hr : r.canStep = false) (n : Nat) (done : List Step) :
    r.walk R n done = (r, .ok done) := by
  cases n with
  | zero => rfl
  | succ n =>
    unfold walk
    rw [hr]
    exact if_neg Bool.false_ne_true

theorem walk_succ_of_ok (hr : r.canStep = true) (h : r.step R = (q, .ok s)) (n : Nat)
    (done : List Step) :
    r.walk R (n + 1) done = q.walk R n (if s.progressed then s :: done else done) := by
  conv_lhs => unfold walk
  rw [if_pos hr, h]

theorem walk_succ_of_error {f : Fault} (hr : r.canStep = true) (h : r.step R = (q, .error f))
    (n : Nat) (done : List Step) : r.walk R (n + 1) done = (q, .error f) := by
  unfold walk
  rw [if_pos hr, h]

/-- A walk that does not fail makes the steps that it adds to those done, and then either has spent
its number or makes one more step that does not progress. -/
theorem cases_of_walk {n : Nat} {done done' : List Step} (hr : r.canStep = true)
    (h : r.walk R n done = (last, .ok done')) :
    ∃ steps q, r.Makes R steps q ∧ done' = steps.reverse ++ done ∧
      (steps.length = n ∧ last = q ∨
        steps.length < n ∧ ∃ s, q.step R = (last, .ok s) ∧ s.progressed = false) := by
  induction n generalizing r done with
  | zero =>
    obtain ⟨rfl, hd⟩ := Prod.mk.inj h
    obtain rfl := Except.ok.inj hd
    exact ⟨[], r, .nil r, rfl, .inl ⟨rfl, rfl⟩⟩
  | succ n ih =>
    rcases hs : r.step R with ⟨q, f | s⟩
    · rw [walk_succ_of_error hr hs] at h
      simp at h
    · rw [walk_succ_of_ok hr hs] at h
      obtain ⟨-, hq⟩ := step_eq_ok_iff.1 hs
      cases hp : s.progressed with
      | true =>
        rw [hp, if_pos rfl] at h
        obtain ⟨steps, p, hmakes, rfl, hend⟩ := ih (by rw [hq]; exact hp) h
        refine ⟨s :: steps, p, .cons hs hp hmakes, by simp, ?_⟩
        rcases hend with ⟨hn, hl⟩ | ⟨hn, hl⟩
        · exact .inl ⟨by simp [hn], hl⟩
        · exact .inr ⟨by simpa using hn, hl⟩
      | false =>
        rw [hp, if_neg Bool.false_ne_true, walk_of_not_canStep (by rw [hq, hp])] at h
        obtain ⟨rfl, hd⟩ := Prod.mk.inj h
        obtain rfl := Except.ok.inj hd
        exact ⟨[], r, .nil r, rfl, .inr ⟨Nat.succ_pos n, s, hs, hp⟩⟩

/-- **A run that does not fail makes the steps of its trace**, and then either has spent its number or
makes one more step that does not progress. -/
theorem cases_of_run {n : Int} {tr : Trace} (hr : r.canStep = true)
    (h : r.run R n = (last, .ok tr)) :
    ∃ q, r.Makes R tr.steps q ∧
      (tr.steps.length = n.toNat ∧ last = q ∨
        tr.steps.length < n.toNat ∧ ∃ s, q.step R = (last, .ok s) ∧ s.progressed = false) := by
  unfold run at h
  split at h
  · simp at h
  · next done hw =>
    obtain ⟨rfl, htr⟩ := Prod.mk.inj h
    obtain rfl := Except.ok.inj htr
    obtain ⟨steps, q, hmakes, rfl, hend⟩ := cases_of_walk hr hw
    rw [List.append_nil]
    dsimp only
    rw [List.reverse_reverse]
    exact ⟨q, hmakes, hend⟩

/-! ## What a run leaves and tells -/

theorem run_fst (R : Basis) (n : Int) (r : Reduction) :
    (r.run R n).1 = (r.walk R n.toNat []).1 := by
  unfold run
  rcases r.walk R n.toNat [] with ⟨last, f | done⟩ <;> rfl

theorem ends_of_run {n : Int} {tr : Trace} (h : r.run R n = (last, .ok tr)) :
    tr.initial = r.buffer ∧ tr.final = last.buffer ∧ tr.settled = !last.canStep := by
  unfold run at h
  split at h
  · simp at h
  · obtain ⟨rfl, htr⟩ := Prod.mk.inj h
    obtain rfl := Except.ok.inj htr
    exact ⟨rfl, rfl, rfl⟩

theorem settled_of_run {n : Int} {tr : Trace} (h : r.run R n = (last, .ok tr)) :
    tr.settled = !last.canStep := (ends_of_run h).2.2

theorem run_of_not_canStep (hr : r.canStep = false) (R : Basis) (n : Int) :
    r.run R n = (r, .ok ⟨r.buffer, [], r.buffer, true⟩) := by
  unfold run
  rw [walk_of_not_canStep hr]
  simp [hr]

theorem walk_of_run_error {n : Int} {f : Fault} (h : r.run R n = (last, .error f)) :
    r.walk R n.toNat [] = (last, .error f) := by
  unfold run at h
  split at h
  · next hw =>
    obtain ⟨rfl, hf⟩ := Prod.mk.inj h
    obtain rfl := Except.error.inj hf
    exact hw
  · simp at h

/-! ## Runs and loops -/

/-- **A walk ends as the loop does that is made of the same steps.** The loop looks at the outcome of the
step that it has made, the walk at the flag before it makes one. -/
theorem advance_eq_walk (hr : r.canStep = true) (n : Nat) (done : List Step) :
    advance (R.step r.bounds) n r.buffer =
      (r.walk R n done).2.map fun _ => ((r.walk R n done).1.buffer, !(r.walk R n done).1.canStep) := by
  induction n generalizing r done with
  | zero =>
    show Except.ok (r.buffer, false) = .ok (r.buffer, !r.canStep)
    rw [hr, Bool.not_true]
  | succ n ih =>
    unfold advance walk
    rw [if_pos hr]
    cases hs : R.step r.bounds r.buffer with
    | error f =>
      rw [step_eq_error_iff.2 ⟨hs, rfl⟩]
      rfl
    | ok s =>
      rw [step_of_ok hs]
      dsimp only
      cases hp : s.progressed with
      | true =>
        rw [if_pos rfl]
        exact ih (r := { r with buffer := s.after, canStep := true }) rfl _
      | false =>
        rw [if_neg Bool.false_ne_true, walk_of_not_canStep rfl]
        rfl

theorem advance_eq_run (hr : r.canStep = true) (n : Int) :
    advance (R.step r.bounds) n.toNat r.buffer =
      (r.run R n).2.map fun tr => (tr.final, tr.settled) := by
  rw [advance_eq_walk hr n.toNat []]
  unfold run
  rcases r.walk R n.toNat [] with ⟨last, f | done⟩ <;> rfl

theorem run_of_advance {n : Int} {v : Text} {settled : Bool} (hr : r.canStep = true)
    (h : advance (R.step r.bounds) n.toNat r.buffer = .ok (v, settled)) :
    ∃ last tr, r.run R n = (last, .ok tr) ∧ tr.final = v ∧ tr.settled = settled := by
  rw [advance_eq_run hr] at h
  obtain ⟨tr, htr, hend⟩ := exists_of_map_ok h
  obtain ⟨hv, hsettled⟩ := Prod.mk.inj hend
  exact ⟨_, tr, Prod.ext rfl htr, hv, hsettled⟩

theorem exists_makes_of_advance {n : Nat} {v : Text} (hr : r.canStep = true)
    (h : advance (R.step r.bounds) n r.buffer = .ok (v, true)) :
    ∃ steps s, r.Makes R steps { r with buffer := v } ∧ steps.length < n ∧
      ({ r with buffer := v } : Reduction).step R =
        ({ r with buffer := v, canStep := false }, .ok s) ∧
      s.progressed = false := by
  rw [advance_eq_walk hr n []] at h
  rcases hw : r.walk R n [] with ⟨last, f | done⟩
  · simp [hw, Except.map] at h
  rw [hw] at h
  obtain ⟨hbuffer, hstop⟩ := Prod.mk.inj (Except.ok.inj h)
  obtain ⟨steps, q, hmakes, -, hend⟩ := cases_of_walk hr hw
  have hq : q.canStep = true := hmakes.canStep hr
  have hbounds := hmakes.bounds_eq
  rcases hend with ⟨-, rfl⟩ | ⟨hlen, s, hs, hp⟩
  · simp [hq] at hstop
  · obtain rfl := eq_of_step_of_not_progressed hs hp
    -- Of `q` the flag and the bounds are those of `r`, and the last step left its buffer.
    obtain rfl : q = { r with buffer := v } := by
      cases q
      simp_all
    exact ⟨steps, s, hmakes, hlen, hs, hp⟩

end Reduction

end Combinatory
