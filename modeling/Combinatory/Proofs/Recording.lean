import Combinatory.Console.Repl
import Combinatory.Proofs.Walk

/-!
# What a trace tells

The trace of a run is a faithful account of it (`Trace.Faithful`), and the console prints the account
and its last buffer alike.

1. The steps that a reduction makes are linked: each begins with the buffer that the one before it
   ended with (`Reduction.Makes.linked`). A step is decided by the buffer and the bounds alone, and
   the bounds stay, so a new reduction of the buffer that a step began with makes the same step
   (`Reduction.Makes.fresh`).
2. A run stops when it has spent its number, or at a step that does not progress and is not recorded;
   a run that was stopped before records nothing (`Reduction.faithful_run`).
3. The lines of linked steps are those before every buffer that was left, and then the last buffer
   (`Linked.chain_eq`). Both ways of printing a run therefore end alike.
-/

namespace Combinatory

/-- The steps lead from the first text to the last one: each begins with the text that the one before
it ended with. -/
inductive Linked : Text → List Step → Text → Prop
  | nil (u : Text) : Linked u [] u
  | cons {s : Step} {steps : List Step} {v : Text} (h : Linked s.after steps v) :
      Linked s.before (s :: steps) v

/-- The trace `t` is a faithful account of a run of at most `n` steps that began at `r` and left
`last`. -/
structure Trace.Faithful (R : Basis) (r : Reduction) (n : Int) (last : Reduction) (t : Trace) :
    Prop where
  initial_eq : t.initial = r.buffer
  final_eq : t.final = last.buffer
  linked : Linked t.initial t.steps t.final
  progressed : ∀ s ∈ t.steps, s.progressed = true
  /-- Every step is the one that a new reduction of the same buffer makes. -/
  fresh : ∀ s ∈ t.steps, (({ buffer := s.before, bounds := r.bounds } : Reduction).step R).2 = .ok s
  length_le : (t.steps.length : Int) ≤ n
  settled_iff : t.settled = true ↔ (t.steps.length : Int) < n
  settled_iff_canStep : t.settled = true ↔ last.canStep = false

namespace Reduction

variable {R : Basis} {r q last : Reduction} {steps : List Step} {t : Trace} {n : Int}

/-! ## Steps made and steps recorded -/

theorem before_of_step {s : Step} (h : r.step R = (q, .ok s)) : s.before = r.buffer :=
  (Basis.stepAt_eq_ok_iff.1 (step_eq_ok_iff.1 h).1).before_eq

theorem Makes.linked (h : r.Makes R steps q) : Linked r.buffer steps q.buffer := by
  induction h with
  | nil r => exact .nil r.buffer
  | cons hs _ _ ih =>
    rw [← before_of_step hs]
    obtain ⟨-, rfl⟩ := step_eq_ok_iff.1 hs
    exact .cons ih

theorem Makes.progressed (h : r.Makes R steps q) : ∀ s ∈ steps, s.progressed = true := by
  induction h with
  | nil r => exact List.forall_mem_nil _
  | cons _ hp _ ih => exact List.forall_mem_cons.2 ⟨hp, ih⟩

theorem Makes.fresh (h : r.Makes R steps q) :
    ∀ s ∈ steps, (({ buffer := s.before, bounds := r.bounds } : Reduction).step R).2 = .ok s := by
  induction h with
  | nil r => exact List.forall_mem_nil _
  | cons hs _ _ ih =>
    have hb := before_of_step hs
    obtain ⟨hok, rfl⟩ := step_eq_ok_iff.1 hs
    refine List.forall_mem_cons.2 ⟨?_, ih⟩
    rw [step_snd, hb]
    exact hok

theorem faithful_run (hn : 1 ≤ n) (h : r.run R n = (last, .ok t)) : t.Faithful R r n last := by
  obtain ⟨hinitial, hfinal, hsettled⟩ := ends_of_run h
  have hflag : t.settled = true ↔ last.canStep = false := by rw [hsettled, Bool.not_eq_true']
  cases hr : r.canStep with
  | false =>
    -- A reduction that was stopped before spends nothing.
    rw [run_of_not_canStep hr] at h
    obtain ⟨rfl, ht⟩ := Prod.mk.inj h
    obtain rfl := Except.ok.inj ht
    have hzero : (0 : Int) < n := by omega
    exact ⟨rfl, rfl, .nil _, List.forall_mem_nil _, List.forall_mem_nil _, hzero.le,
      iff_of_true rfl hzero, hflag⟩
  | true =>
    obtain ⟨q, hmakes, hend⟩ := cases_of_run hr h
    have hq : q.canStep = true := hmakes.canStep hr
    have hlast : q.buffer = last.buffer ∧ (t.steps.length : Int) ≤ n ∧
        (last.canStep = false ↔ (t.steps.length : Int) < n) := by
      rcases hend with ⟨hlen, rfl⟩ | ⟨hlen, s, hs, hp⟩
      · have hspent : (t.steps.length : Int) = n := by omega
        rw [hq, hspent]
        exact ⟨rfl, le_refl n, iff_of_false Bool.true_eq_false_eq_False (lt_irrefl n)⟩
      · have hleft : (t.steps.length : Int) < n := by omega
        rw [eq_of_step_of_not_progressed hs hp]
        exact ⟨rfl, hleft.le, iff_of_true rfl hleft⟩
    obtain ⟨hbuffer, hle, hlt⟩ := hlast
    refine ⟨hinitial, hfinal, ?_, hmakes.progressed, hmakes.fresh, hle, hflag.trans hlt, hflag⟩
    rw [hinitial, hfinal, ← hbuffer]
    exact hmakes.linked

end Reduction

/-! ## Printing -/

/-- The lines of the chain before the buffer that a step makes. -/
def Step.lead (s : Step) : Text := s.before ++ "\n  --(".toList ++ s.label ++ ")-->\n".toList

theorem Trace.chain_cons (s : Step) (steps : List Step) (v : Text) (settled : Bool) :
    (⟨s.before, s :: steps, v, settled⟩ : Trace).chain =
      s.lead ++ (⟨s.after, steps, v, settled⟩ : Trace).chain := by
  unfold chain
  rw [List.flatMap_cons]
  show ['\n'].intercalate (_ :: _ :: s.after :: _) = _
  rw [List.intercalate_cons_cons, List.intercalate_cons_cons]
  simp [Step.lead]

/-- The chain of linked steps tells every step before the buffer that it makes, and the last buffer at
the end. -/
theorem Linked.chain_eq {u v : Text} {steps : List Step} (h : Linked u steps v) (settled : Bool) :
    (⟨u, steps, v, settled⟩ : Trace).chain = steps.flatMap Step.lead ++ v := by
  induction h with
  | nil u => exact List.intercalate_singleton
  | cons _ ih => rw [Trace.chain_cons, ih, List.flatMap_cons, List.append_assoc]

/-- The note below a run of `n` steps that was cut short. -/
def Reply.stopNote (n : Int) : Text := "\n(stopped after ".toList ++ Text.ofInt n ++ " steps)".toList

theorem Trace.Faithful.outcome_eq {R : Basis} {r last : Reduction} {n : Int} {t : Trace}
    (h : t.Faithful R r n last) (traced : Bool) :
    Reply.outcome traced t =
      (if traced then t.steps.flatMap Step.lead else []) ++ t.final ++
        if (t.steps.length : Int) = n then Reply.stopNote n else [] := by
  have hnote : (if t.settled then [] else "\n(stopped after ".toList ++ Text.ofNat t.steps.length ++
      " steps)".toList) = if (t.steps.length : Int) = n then Reply.stopNote n else [] := by
    have hiff := h.settled_iff
    cases hs : t.settled with
    | true =>
      have hlt : (t.steps.length : Int) < n := hiff.1 hs
      rw [if_pos rfl, if_neg hlt.ne]
    | false =>
      have hspent : (t.steps.length : Int) = n :=
        le_antisymm h.length_le (not_lt.1 fun hlt => Bool.false_ne_true (hs.symm.trans (hiff.2 hlt)))
      rw [if_neg Bool.false_ne_true, if_pos hspent, ← hspent]
      rfl
  have hchain : t.chain = t.steps.flatMap Step.lead ++ t.final := h.linked.chain_eq t.settled
  unfold Reply.outcome
  rw [hnote, hchain]
  cases traced <;> rfl

theorem Repl.reduce_of_run {c : Repl} {e : Text} {last : Reduction} {t : Trace} (he : Balanced e)
    (h : ({ buffer := e, bounds := c.bounds } : Reduction).run c.basis c.maxSteps = (last, .ok t)) :
    (c.reduce e).text? = some (Reply.outcome c.tracing t) := by
  unfold reduce
  rw [if_pos he]
  dsimp only
  rw [h]
  rfl

/-- **A trace is a faithful account of its run.** The steps recorded lead from the buffer at the
beginning to the one at the end, all of them progressed, and each is the step that a new reduction
would make; a run is reported as settled exactly if it recorded fewer steps than it might, and exactly
if its flag is cleared. The console prints the last buffer with or without the steps that lead to it,
and the same note below it in both cases, exactly if all steps that were allowed progressed. -/
theorem Trace.faithful_of_run :
    (∀ (R : Basis) (r last : Reduction) (n : Int) (t : Trace), 1 ≤ n →
      r.run R n = (last, .ok t) → t.Faithful R r n last) ∧
    ∀ (c : Repl) (e : Text) (last : Reduction) (t : Trace), 1 ≤ c.maxSteps → Balanced e →
      ({ buffer := e, bounds := c.bounds } : Reduction).run c.basis c.maxSteps = (last, .ok t) →
      ∀ traced : Bool, (({ c with tracing := traced } : Repl).reduce e).text? =
        some ((if traced then t.steps.flatMap Step.lead else []) ++ t.final ++
          if (t.steps.length : Int) = c.maxSteps then Reply.stopNote c.maxSteps else []) := by
  refine ⟨fun R r last n t hn h => Reduction.faithful_run hn h, ?_⟩
  intro c e last t hn he h traced
  rw [Repl.reduce_of_run (c := { c with tracing := traced }) he h]
  exact congrArg some ((Reduction.faithful_run hn h).outcome_eq traced)

/-- The steps from `IIa` to `a`. -/
def Trace.identities : List Step :=
  [⟨.rule, some ⟨['I'], .name⟩, "IIa".toList, "Ia".toList, true, some .i⟩,
    ⟨.rule, some ⟨['I'], .name⟩, "Ia".toList, ['a'], true, some .i⟩]

/-- The second step begins where the first ended. A third finds nothing to reduce, and is not recorded;
the console does not make it when it may make two steps only, and says so. -/
theorem Trace.faithful_of_run_twice :
    (⟨"IIa".toList, identities, ['a'], true⟩ : Trace).Faithful .standard
      { buffer := "IIa".toList, bounds := {} } 3 { buffer := ['a'], bounds := {}, canStep := false } ∧
    ∀ traced : Bool, (({ maxSteps := 2, tracing := traced } : Repl).reduce "IIa".toList).text? =
      some ((if traced then "IIa\n  --(I)-->\nIa\n  --(I)-->\n".toList else []) ++ ['a'] ++
        Reply.stopNote 2) := by
  refine ⟨faithful_of_run.1 _ _ _ _ _ (by decide) rfl, fun traced => ?_⟩
  have hrun : ({ buffer := "IIa".toList, bounds := { limit := some 2 } } : Reduction).run
      .standard 2 = ({ buffer := ['a'], bounds := { limit := some 2 } },
        .ok ⟨"IIa".toList, identities, ['a'], false⟩) := rfl
  exact faithful_of_run.2 { maxSteps := 2 } _ _ _ (by decide) (by decide) hrun traced

end Combinatory
