import Combinatory.Proofs.Walk
import Combinatory.Workspace
import Mathlib.Data.List.Induction

/-!
# Reductions over a basis that changes

The flag of a reduction tells what its last step found, and that step was made over the basis as it was
then. In a workspace the basis may have changed since (`Workspace.perform`).

1. What an action leaves with its flag cleared it has not touched, or the next step over the same
   basis finds nothing to reduce either (`Workspace.eq_or_resting_of_act`).
2. A command does not clear the flag of a reduction in any other way
   (`Workspace.cases_of_lookup_perform`). So a cleared flag was right at some point of the session, for
   the basis as it was there (`Workspace.exists_resting_of_follow`).

`Workspace.resting_of_run`: a run that reports a buffer which no step changes is right, or it made no
step and the basis has changed since the flag was cleared. `Workspace.run_reports_stale_flag` shows
that the basis may indeed have changed so that the report is wrong; to add text at the end of the buffer
sets the flag again (`Reduction.feed`), but to add combinators to the basis does not.
-/

namespace Combinatory

namespace Reduction

/-- The next step over the basis finds nothing to reduce, and the reduction knows it. -/
def Resting (R : Basis) (r : Reduction) : Prop :=
  ∃ s, r.step R = (r, .ok s) ∧ s.progressed = false

variable {R : Basis} {r q last : Reduction} {s : Step}

/-! ## Steps and runs -/

theorem resting_of_step (h : r.step R = (q, .ok s)) (hs : s.progressed = false) : q.Resting R := by
  obtain ⟨hok, -⟩ := step_eq_ok_iff.1 h
  have hafter : s.after = r.buffer := (Basis.stepAt_eq_ok_iff.1 hok).after_eq hs
  obtain rfl := eq_of_step_of_not_progressed h hs
  refine ⟨s, step_eq_ok_iff.2 ⟨hok, ?_⟩, hs⟩
  rw [hafter, hs]

theorem eq_or_resting_of_step (h : (r.step R).1.canStep = false) :
    (r.step R).1 = r ∨ (r.step R).1.Resting R := by
  rcases hs : r.step R with ⟨q, f | s⟩
  · exact .inl (step_eq_error_iff.1 hs).2
  · obtain ⟨-, hq⟩ := step_eq_ok_iff.1 hs
    rw [hs, hq] at h
    exact .inr (resting_of_step hs h)

theorem resting_of_eq_or_resting (hs : r.step R = (q, .ok s)) (h : last.canStep = false)
    (hlast : last = q ∨ last.Resting R) : last.Resting R := by
  rcases hlast with rfl | hlast
  · obtain ⟨-, hq⟩ := step_eq_ok_iff.1 hs
    rw [hq] at h
    exact resting_of_step hs h
  · exact hlast

theorem eq_or_resting_of_walk {n : Nat} {done : List Step}
    (h : (r.walk R n done).1.canStep = false) :
    (r.walk R n done).1 = r ∨ (r.walk R n done).1.Resting R := by
  induction n generalizing r done with
  | zero => exact .inl rfl
  | succ n ih =>
    unfold walk at h ⊢
    split
    · next hr =>
      rw [if_pos hr] at h
      rcases hs : r.step R with ⟨q, f | s⟩
      · exact .inl (step_eq_error_iff.1 hs).2
      · rw [hs] at h
        exact .inr (resting_of_eq_or_resting hs h (ih h))
    · exact .inl rfl

end Reduction

namespace Workspace

variable {R : Basis} {r : Reduction} {w : Workspace} {fs : FileSystem} {name : Text} {place : Nat}

/-! ## Actions -/

theorem eq_or_resting_of_makeSteps {n : Nat} (h : (makeSteps R n r).1.canStep = false) :
    (makeSteps R n r).1 = r ∨ (makeSteps R n r).1.Resting R := by
  induction n generalizing r with
  | zero => exact .inl rfl
  | succ n ih =>
    unfold makeSteps at h ⊢
    rcases hs : r.step R with ⟨q, f | s⟩
    · exact .inl (Reduction.step_eq_error_iff.1 hs).2
    · rw [hs] at h
      exact .inr (Reduction.resting_of_eq_or_resting hs h (ih h))

theorem act_step (R : Basis) (r : Reduction) :
    act R r .step = ((r.step R).1, ((r.step R).2.mapError .fault).map .step) := rfl

theorem act_run (R : Basis) (r : Reduction) (n : Int) :
    act R r (.run n) =
      ((r.run R n).1, ((r.run R n).2.mapError .fault).map (.trace (r.run R n).1.buffer)) := rfl

/-- **What an action leaves with its flag cleared it has not touched, or the next step finds nothing to
reduce.** -/
theorem eq_or_resting_of_act {action : ReductionAction} (h : (act R r action).1.canStep = false) :
    (act R r action).1 = r ∨ (act R r action).1.Resting R := by
  cases action with
  | step => exact Reduction.eq_or_resting_of_step h
  | steps n => exact eq_or_resting_of_makeSteps h
  | feed text => simp [act, Reduction.feed] at h
  | run n =>
    rw [act_run, Reduction.run_fst] at h ⊢
    exact Reduction.eq_or_resting_of_walk h
  | info => exact .inl rfl

/-! ## Commands -/

theorem lookup_assign_self {α : Type} (name : Text) (value : α) (l : List (Text × α)) :
    (assign name value l).lookup name = some value := by
  induction l with
  | nil => simp [assign]
  | cons entry l ih =>
    unfold assign
    split
    · simp
    · next hne => rw [List.lookup_cons, beq_false_of_ne (Ne.symm hne), ih]

theorem lookup_assign_of_ne {α : Type} {other : Text} (h : other ≠ name) (value : α)
    (l : List (Text × α)) : (assign name value l).lookup other = l.lookup other := by
  induction l with
  | nil => simp [assign, h]
  | cons entry l ih =>
    unfold assign
    split
    · next heq => rw [List.lookup_cons, List.lookup_cons, heq, beq_false_of_ne h]
    · rw [List.lookup_cons, List.lookup_cons, ih]

theorem cases_of_lookup_setReduction {other : Text} {k : Nat} {q : Reduction}
    (h : (w.setReduction other k q).reductions.lookup name = some (place, r)) :
    name = other ∧ place = k ∧ r = q ∨ w.reductions.lookup name = some (place, r) := by
  by_cases hname : name = other
  · subst hname
    have hnew := lookup_assign_self name (k, q) w.reductions
    obtain ⟨hk, hq⟩ := Prod.mk.inj (Option.some.inj (hnew.symm.trans h))
    exact .inl ⟨rfl, hk.symm, hq.symm⟩
  · exact .inr ((lookup_assign_of_ne hname _ _).symm.trans h)

theorem reduction?_eq_some_iff :
    w.reduction? name = some (place, R, r) ↔
      w.reductions.lookup name = some (place, r) ∧ w.bases[place]? = some R := by
  unfold reduction?
  constructor
  · intro h
    obtain ⟨⟨k, q⟩, hl, h⟩ := Option.bind_eq_some_iff.1 h
    obtain ⟨S, hb, h⟩ := Option.bind_eq_some_iff.1 h
    cases Option.some.inj h
    exact ⟨hl, hb⟩
  · rintro ⟨hl, hb⟩
    rw [hl]
    show (do return (place, ← w.bases[place]?, r)) = some (place, R, r)
    rw [hb]
    rfl

theorem reductions_placeFor {shared : Option Text} {extra : Option ExtraDefinitions} {v : Workspace}
    (h : w.placeFor shared extra = .ok (v, place)) : v.reductions = w.reductions := by
  unfold placeFor at h
  split at h
  · cases hR : (Basis.withExtra extra).mapError WorkspaceError.start with
    | error e => simp [hR, Except.map] at h
    | ok R =>
      rw [hR] at h
      obtain ⟨rfl, -⟩ := Prod.mk.inj (Except.ok.inj h)
      rfl
  · split at h
    · simp at h
    · obtain ⟨rfl, -⟩ := Prod.mk.inj (Except.ok.inj h)
      rfl
    · simp at h

theorem perform_act {R₀ : Basis} {r₀ : Reduction} (h : w.reduction? name = some (place, R₀, r₀))
    (fs : FileSystem) (action : ReductionAction) :
    w.perform fs (.act name action) =
      (w.setReduction name place (act R₀ r₀ action).1, (act R₀ r₀ action).2) := by
  unfold perform
  dsimp only
  rw [h]

theorem reduction?_perform_act {R₀ : Basis} {r₀ : Reduction}
    (h : w.reduction? name = some (place, R₀, r₀)) (fs : FileSystem) (action : ReductionAction) :
    (w.perform fs (.act name action)).1.reduction? name = some (place, R₀, (act R₀ r₀ action).1) := by
  rw [perform_act h]
  exact reduction?_eq_some_iff.2 ⟨lookup_assign_self name _ _, (reduction?_eq_some_iff.1 h).2⟩

/-- **What stands under a name after a command** stood there before, or has its flag set, or was left by
an action over the basis as it is. -/
theorem cases_of_lookup_perform {command : WorkspaceCommand}
    (h : (w.perform fs command).1.reductions.lookup name = some (place, r)) :
    w.reductions.lookup name = some (place, r) ∨ r.canStep = true ∨
      ∃ R r₀ action, w.reduction? name = some (place, R, r₀) ∧ r = (act R r₀ action).1 ∧
        (w.perform fs command).1.reduction? name = some (place, R, r) := by
  cases command with
  | makeBasis | shareBasis | askBasis =>
    unfold perform at h
    dsimp only at h
    split at h <;> exact .inl h
  | changeBasis =>
    unfold perform at h
    dsimp only at h
    split at h
    · exact .inl h
    · split at h <;> exact .inl h
  | makeReduction other buffer shared extra limit =>
    unfold perform at h
    dsimp only at h
    split at h
    · exact .inl h
    · next v k hplace =>
      rcases cases_of_lookup_setReduction h with ⟨-, -, rfl⟩ | hold
      · exact .inr (.inl rfl)
      · rw [reductions_placeFor hplace] at hold
        exact .inl hold
  | act other action =>
    cases hother : w.reduction? other with
    | none =>
      unfold perform at h
      dsimp only at h
      rw [hother] at h
      exact .inl h
    | some entry =>
      obtain ⟨k, R, r₀⟩ := entry
      have hnew := reduction?_perform_act hother fs action
      rw [perform_act hother] at h
      rcases cases_of_lookup_setReduction h with ⟨rfl, rfl, rfl⟩ | hold
      · exact .inr (.inr ⟨R, r₀, action, hother, rfl, hnew⟩)
      · exact .inl hold

/-! ## Sessions -/

/-- The workspace after the commands of a session. -/
def follow (fs : FileSystem) (room : Room) (session : List WorkspaceCommand) : Workspace :=
  session.foldl (fun w command => (w.perform fs command).1) (.empty room)

theorem follow_concat (fs : FileSystem) (room : Room) (session : List WorkspaceCommand)
    (command : WorkspaceCommand) :
    follow fs room (session ++ [command]) = ((follow fs room session).perform fs command).1 := by
  simp [follow, List.foldl_append]

/-- **A cleared flag was right at some point of the session**: the reduction was there as it is, and over
the basis as it was then, the next step would have found nothing to reduce. -/
theorem exists_resting_of_follow {room : Room} {session : List WorkspaceCommand}
    (h : (follow fs room session).reductions.lookup name = some (place, r)) (hr : r.canStep = false) :
    ∃ earlier later R₀, earlier ++ later = session ∧
      (follow fs room earlier).reduction? name = some (place, R₀, r) ∧ r.Resting R₀ := by
  induction session using List.reverseRecOn with
  | nil => simp [follow, empty] at h
  | append_singleton session command ih =>
    have hbefore : (follow fs room session).reductions.lookup name = some (place, r) →
        ∃ earlier later R₀, earlier ++ later = session ++ [command] ∧
          (follow fs room earlier).reduction? name = some (place, R₀, r) ∧ r.Resting R₀ := by
      intro h
      obtain ⟨earlier, later, R₀, rfl, hthen, hrest⟩ := ih h
      exact ⟨earlier, later ++ [command], R₀, (List.append_assoc ..).symm, hthen, hrest⟩
    rw [follow_concat] at h
    rcases cases_of_lookup_perform h with h | h | ⟨R, r₀, action, hold, rfl, hnew⟩
    · exact hbefore h
    · rw [hr] at h
      simp at h
    · rcases eq_or_resting_of_act hr with heq | hrest
      · rw [heq] at hbefore ⊢
        exact hbefore (reduction?_eq_some_iff.1 hold).1
      · refine ⟨session ++ [command], [], R, List.append_nil _, ?_, hrest⟩
        rwa [follow_concat]

/-! ## What a run reports -/

theorem answer_of_resting (h : w.reduction? name = some (place, R, r)) (hr : r.Resting R)
    (fs : FileSystem) :
    ∃ s, (w.perform fs (.act name .step)).2 = .ok (.step s) ∧ s.progressed = false ∧
      s.after = r.buffer := by
  obtain ⟨s, hs, hp⟩ := hr
  obtain ⟨-, hafter⟩ := Reduction.step_eq_ok_iff.1 hs
  refine ⟨s, ?_, hp, (congrArg Reduction.buffer hafter).symm⟩
  rw [perform_act h, act_step, hs]
  rfl

theorem run_of_perform {fs : FileSystem} {n : Int} {w' : Workspace} {buffer : Text} {t : Trace}
    (h : w.perform fs (.act name (.run n)) = (w', .ok (.trace buffer t))) :
    ∃ place R r last, w.reduction? name = some (place, R, r) ∧ r.run R n = (last, .ok t) ∧
      w'.reduction? name = some (place, R, last) ∧ buffer = last.buffer := by
  cases hr : w.reduction? name with
  | none =>
    unfold perform at h
    dsimp only at h
    rw [hr] at h
    simp at h
  | some entry =>
    obtain ⟨place, R, r⟩ := entry
    have hnew := reduction?_perform_act hr fs (.run n)
    rw [h] at hnew
    rw [perform_act hr, act_run] at h
    rw [act_run] at hnew
    rcases hrun : r.run R n with ⟨last, f | t'⟩
    · rw [hrun] at h
      exact absurd (Prod.mk.inj h).2 (by simp [Except.mapError, Except.map])
    · rw [hrun] at h hnew
      cases (Prod.mk.inj h).2
      exact ⟨place, R, r, last, rfl, hrun, hnew, rfl⟩

/-- **A run that reports a buffer which no step changes is right, or its report is stale.** When a run in
a session reports so, the step made immediately afterwards finds nothing to reduce and leaves the
buffer as it is; or else the run made no step at all, and at an earlier point of the session the
reduction was already as it is now, with nothing to reduce over a basis that has changed since. -/
theorem resting_of_run {room : Room} {session : List WorkspaceCommand} {n : Int} {w' : Workspace}
    {buffer : Text} {t : Trace}
    (h : (follow fs room session).perform fs (.act name (.run n)) = (w', .ok (.trace buffer t)))
    (ht : t.settled = true) :
    (∃ s, (w'.perform fs (.act name .step)).2 = .ok (.step s) ∧ s.progressed = false ∧
      s.after = buffer) ∨
    t.steps = [] ∧ ∃ earlier later place R₀ R r, earlier ++ later = session ∧
      (follow fs room earlier).reduction? name = some (place, R₀, r) ∧ r.Resting R₀ ∧
      (follow fs room session).reduction? name = some (place, R, r) ∧ R₀ ≠ R := by
  obtain ⟨place, R, r, last, hr, hrun, hnew, rfl⟩ := run_of_perform h
  have hlast : last.canStep = false := by
    rw [Reduction.settled_of_run hrun] at ht
    simpa using ht
  have hact : (act R r (.run n)).1 = last := congrArg Prod.fst hrun
  cases hflag : r.canStep with
  | true =>
    rcases eq_or_resting_of_act (hact ▸ hlast : (act R r (.run n)).1.canStep = false) with heq | hrest
    · rw [hact] at heq
      rw [heq, hflag] at hlast
      simp at hlast
    · exact .inl (answer_of_resting hnew (hact ▸ hrest) fs)
  | false =>
    rw [Reduction.run_of_not_canStep hflag] at hrun
    obtain ⟨rfl, htrace⟩ := Prod.mk.inj hrun
    obtain rfl := Except.ok.inj htrace
    obtain ⟨earlier, later, R₀, hsession, hthen, hrest⟩ :=
      exists_resting_of_follow (reduction?_eq_some_iff.1 hr).1 hflag
    by_cases hbasis : R₀ = R
    · exact .inl (answer_of_resting hnew (hbasis ▸ hrest) fs)
    · exact .inr ⟨rfl, earlier, later, place, R₀, R, r, hsession, hthen, hrest, hr, hbasis⟩

/-- `Ma` is run to its end over the standard basis, and then `M` is defined. -/
def lateDefinition : List WorkspaceCommand :=
  [.makeBasis ['r'] .standard, .makeReduction ['e'] "Ma".toList (some ['r']) none none,
    .act ['e'] (.run 10), .changeBasis ['r'] (.append (.list [.text ['M'], .text ['1'], .text ['0']]))]

/-- The second run reports that no step changes `Ma`, and the step after it makes `a` of it. -/
theorem run_reports_stale_flag :
    ∃ w', (follow (.ofList []) {} lateDefinition).perform (.ofList []) (.act ['e'] (.run 10)) =
        (w', .ok (.trace "Ma".toList ⟨"Ma".toList, [], "Ma".toList, true⟩)) ∧
      (w'.perform (.ofList []) (.act ['e'] .step)).2 =
        .ok (.step ⟨.rule, some ⟨['M'], .name⟩, "Ma".toList, ['a'], true,
          some ⟨['M'], 1, ['0'], by decide⟩⟩) :=
  ⟨_, rfl, rfl⟩

/-- What that run reports was right before `M` was defined. -/
theorem resting_of_run_late :
    ∃ earlier later place R₀ R r, earlier ++ later = lateDefinition ∧
      (follow (.ofList []) {} earlier).reduction? ['e'] = some (place, R₀, r) ∧ r.Resting R₀ ∧
      (follow (.ofList []) {} lateDefinition).reduction? ['e'] = some (place, R, r) ∧ R₀ ≠ R := by
  have hrun : ((follow (.ofList []) {} lateDefinition).perform (.ofList []) (.act ['e'] (.run 10))).2 =
      .ok (.trace "Ma".toList ⟨"Ma".toList, [], "Ma".toList, true⟩) := rfl
  have hstale := (resting_of_run (Prod.ext rfl hrun) rfl).resolve_left ?_
  · exact hstale.2
  · rintro ⟨s, hs, hp, -⟩
    have hs : (.ok (.step ⟨.rule, some ⟨['M'], .name⟩, "Ma".toList, ['a'], true,
        some ⟨['M'], 1, ['0'], by decide⟩⟩) : Except WorkspaceError WorkspaceAnswer) =
      .ok (.step s) := hs
    cases hs
    simp at hp

end Workspace

end Combinatory
