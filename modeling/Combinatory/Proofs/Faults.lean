import Combinatory.Proofs.Active

/-!
# Steps that fail and steps that do nothing

1. A step fails for a template or for its bounds, and so it is however deep inside brackets the cause
   lies (`Basis.arises_of_stepAt`, by the induction on the nesting that is `Basis.fault_induction`).
2. A run that fails has made every step before the one that failed, and all of them progressed
   (`Reduction.exists_makes_of_walk_error`).

`Reduction.step_atomic`: no step is made by half, and one that does nothing does nothing again.
-/

namespace Combinatory

/-! ## Where faults come from -/

/-- The faults that a step may have under the bounds. -/
inductive Fault.Arises (B : Bounds) : Fault → Prop
  /-- A template asks for an argument that was not collected. -/
  | template (template : Text) (index collected : Nat) :
      Arises B (.noArgument template index collected)
  /-- Too many compounds are open. -/
  | depth : Arises B .tooDeep
  /-- An expression inside brackets has spent its steps. -/
  | spent (expression : Text) : Arises B (B.exhausted expression)

theorem exists_of_substitute_error {template : Text} {args : List Text} {f : Fault}
    (h : substitute template args = .error f) : ∃ i, f = .noArgument template i args.length := by
  unfold substitute at h
  cases hfill : fill args template with
  | ok v => simp [hfill] at h
  | error i =>
    rw [hfill] at h
    exact ⟨i, (Except.error.inj h).symm⟩

theorem exists_of_advance_error {step : Text → Except Fault Step} {n : Nat} {b : Text} {f : Fault}
    (h : advance step n b = .error f) : ∃ c, step c = .error f := by
  induction n generalizing b with
  | zero => simp [advance] at h
  | succ n ih =>
    unfold advance at h
    cases hs : step b with
    | error g =>
      rw [hs] at h
      exact ⟨b, by rw [hs, Except.error.inj h]⟩
    | ok s =>
      rw [hs] at h
      dsimp only at h
      split at h
      · exact ih h
      · simp at h

theorem cases_of_settle_error {B : Bounds} {step : Text → Except Fault Step} {e : Text} {f : Fault}
    (h : settle B step e = .error f) :
    (f = B.exhausted e ∧ ∃ v, advance step B.fuel e = .ok (v, false)) ∨ ∃ c, step c = .error f := by
  unfold settle at h
  cases ha : advance step B.fuel e with
  | error g =>
    rw [ha] at h
    obtain rfl := Except.error.inj h
    exact .inr (exists_of_advance_error ha)
  | ok last =>
    rw [ha] at h
    obtain ⟨v, settled⟩ := last
    cases settled with
    | true => simp [Bounds.settled] at h
    | false => exact .inl ⟨(Except.error.inj h).symm, v, rfl⟩

namespace Basis

variable {R : Basis} {B : Bounds} {b rest : Text} {t : Term} {d : Combinator} {f : Fault}

theorem exists_of_apply_error (hcut : R.Cut b t rest) (h : R.apply d t b rest = .error f) :
    ¬ d.Usable ∧ ∃ i, f = .noArgument d.template i d.arity := by
  by_cases h0 : d.arity = 0
  · rw [apply_of_constant h0] at h
    simp at h
  · by_cases hle : d.arity ≤ (R.splitTerms rest).length
    · rw [apply_of_le h0 hle] at h
      have hlen : (((R.splitTerms rest).take d.arity).map Term.text).length = d.arity :=
        (List.length_map Term.text).trans (List.length_take_of_le hle)
      have hsubst := error_of_map_error h
      obtain ⟨i, rfl⟩ := exists_of_substitute_error hsubst
      refine ⟨?_, i, by rw [hlen]⟩
      intro hd
      obtain ⟨v, hv⟩ := hd.exists_substitute h0 hlen
      rw [hv] at hsubst
      simp at hsubst
    · rw [hcut.apply_of_lt (by omega)] at h
      simp at h

theorem exists_of_plan_error (h : R.plan b = .finished (.error f)) :
    ∃ d ∈ R.combinators, ¬ d.Usable ∧ ∃ i, f = .noArgument d.template i d.arity := by
  by_cases hb : b = []
  · subst hb
    simp [plan_nil] at h
  obtain ⟨t, rest, hcut⟩ := R.exists_cut hb
  cases hd : R.lookup? t.text with
  | some d =>
    rw [hcut.plan_of_lookup? hd] at h
    exact ⟨d, mem_of_lookup? hd, exists_of_apply_error hcut (Plan.finished.inj h)⟩
  | none =>
    by_cases hk : t.kind = .compound
    · simp [hcut.plan_of_compound hd hk] at h
    · simp [hcut.plan_of_irreducible hd hk] at h

/-- What is true of the faults of steps that enter no brackets, and of those of spent bounds, is true of
the faults of all steps. -/
theorem fault_induction {P : Fault → Prop} {depth : Nat}
    (own : ∀ {b f}, R.plan b = .finished (.error f) → P f) (deep : P .tooDeep)
    (spent : ∀ {d e v}, d < depth → advance (R.stepAt B d) B.fuel e = .ok (v, false) →
      P (B.exhausted e))
    (h : R.stepAt B depth b = .error f) : P f := by
  induction depth using Nat.strong_induction_on generalizing b with
  | _ depth ih =>
    cases hp : R.plan b with
    | finished outcome =>
      rw [stepAt_of_finished hp] at h
      exact own (hp.trans (congrArg Plan.finished h))
    | enter head rest =>
      rw [stepAt_of_enter hp] at h
      have hv : R.settleAt B depth head.interior = .error f := error_of_map_error h
      cases depth with
      | zero => exact Except.error.inj hv ▸ deep
      | succ d =>
        have hd := Nat.lt_succ_self d
        rcases cases_of_settle_error hv with ⟨rfl, v, hspent⟩ | ⟨c, hc⟩
        · exact spent hd hspent
        · exact ih d hd (fun he => spent (he.trans hd)) hc

/-- **A step fails for a template or for its bounds.** -/
theorem arises_of_stepAt {depth : Nat} (h : R.stepAt B depth b = .error f) : f.Arises B := by
  refine fault_induction ?_ .depth (fun _ _ => .spent _) h
  intro b f hp
  obtain ⟨d, -, -, i, rfl⟩ := exists_of_plan_error hp
  exact .template d.template i d.arity

end Basis

namespace Reduction

variable {R : Basis} {r last : Reduction} {f : Fault}

/-! ## Runs that fail -/

theorem exists_makes_of_walk_error {n : Nat} {done : List Step}
    (h : r.walk R n done = (last, .error f)) :
    ∃ steps, r.Makes R steps last ∧ steps.length < n ∧ last.step R = (last, .error f) := by
  induction n generalizing r done with
  | zero => simp [walk] at h
  | succ n ih =>
    by_cases hr : r.canStep = true
    · rcases hs : r.step R with ⟨q, g | s⟩
      · rw [walk_succ_of_error hr hs] at h
        obtain ⟨rfl, hg⟩ := Prod.mk.inj h
        obtain rfl := Except.error.inj hg
        obtain ⟨-, rfl⟩ := step_eq_error_iff.1 hs
        exact ⟨[], .nil q, Nat.succ_pos n, hs⟩
      · rw [walk_succ_of_ok hr hs] at h
        cases hp : s.progressed with
        | true =>
          obtain ⟨steps, hmakes, hlen, hlast⟩ := ih h
          exact ⟨s :: steps, .cons hs hp hmakes, Nat.succ_lt_succ hlen, hlast⟩
        | false =>
          -- After a step that does not progress, the walk ends without fault.
          obtain ⟨-, rfl⟩ := step_eq_ok_iff.1 hs
          rw [walk_of_not_canStep hp] at h
          simp at h
    · rw [walk_of_not_canStep (Bool.eq_false_iff.2 hr)] at h
      simp at h

/-- **No step is made by half.** A step that does not progress leaves the buffer as it was and clears
the flag, and made once more it has the same outcome and changes nothing. A step that fails changes
nothing at all, at whatever nesting it fails; it does so for a template or for its bounds. A run that
fails has made some steps, all of which progressed, and is left as after the last of them. -/
theorem step_atomic (R : Basis) (r : Reduction) :
    (∀ q s, r.step R = (q, .ok s) → s.progressed = false →
      s.after = r.buffer ∧ q = { r with canStep := false } ∧ q.step R = (q, .ok s)) ∧
    (∀ q f, r.step R = (q, .error f) → q = r ∧ f.Arises r.bounds) ∧
    ∀ n q f, r.run R n = (q, .error f) →
      ∃ steps, r.Makes R steps q ∧ steps.length < n.toNat ∧ q.step R = (q, .error f) := by
  refine ⟨?_, ?_, ?_⟩
  · intro q s h hp
    obtain ⟨hok, -⟩ := step_eq_ok_iff.1 h
    have hafter : s.after = r.buffer := (Basis.stepAt_eq_ok_iff.1 hok).after_eq hp
    have hq : q = { r with canStep := false } := eq_of_step_of_not_progressed h hp
    refine ⟨hafter, hq, step_eq_ok_iff.2 ?_⟩
    subst hq
    refine ⟨hok, ?_⟩
    rw [hafter, hp]
  · intro q f h
    obtain ⟨herror, hq⟩ := step_eq_error_iff.1 h
    exact ⟨hq, Basis.arises_of_stepAt herror⟩
  · intro n q f h
    unfold run at h
    split at h
    · next g hw =>
      obtain ⟨rfl, hg⟩ := Prod.mk.inj h
      obtain rfl := Except.error.inj hg
      exact exists_makes_of_walk_error hw
    · simp at h

/-- `S` waits for two more arguments beside a bracket that is not closed, and `M` asks inside brackets
for an argument that it does not collect. -/
theorem step_atomic_inside :
    ({ buffer := "S((a".toList, bounds := {}, canStep := false } : Reduction).step .standard =
      ({ buffer := "S((a".toList, bounds := {}, canStep := false },
        .ok (.stay .stuck (some ⟨['S'], .name⟩) (some .s) "S((a".toList)) ∧
    Fault.Arises {} (.noArgument ['1'] 1 1) ∧
    ∃ steps, ({ buffer := "I(Ma)b".toList, bounds := {} } : Reduction).Makes
        (Basis.standard.append ⟨['M'], 1, ['1'], by decide⟩) steps
        { buffer := "(Ma)b".toList, bounds := {} } ∧
      steps.length < 5 ∧
      ({ buffer := "(Ma)b".toList, bounds := {} } : Reduction).step
          (Basis.standard.append ⟨['M'], 1, ['1'], by decide⟩) =
        ({ buffer := "(Ma)b".toList, bounds := {} }, .error (.noArgument ['1'] 1 1)) := by
  refine ⟨?_, ?_, ?_⟩
  · exact ((step_atomic .standard { buffer := "S((a".toList, bounds := {} }).1 _ _ rfl rfl).2.2
  · exact ((step_atomic (Basis.standard.append ⟨['M'], 1, ['1'], by decide⟩)
      { buffer := "(Ma)b".toList, bounds := {} }).2.1 _ _ rfl).2
  · exact (step_atomic (Basis.standard.append ⟨['M'], 1, ['1'], by decide⟩)
      { buffer := "I(Ma)b".toList, bounds := {} }).2.2 5 _ _ rfl

end Reduction

end Combinatory
