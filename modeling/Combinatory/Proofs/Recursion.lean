import Combinatory.Proofs.Faults
import Combinatory.Proofs.Limits
import Combinatory.Proofs.Nesting
import Mathlib.Algebra.BigOperators.Group.List.Basic
import Mathlib.Algebra.GroupWithZero.Nat

/-!
# How deep the recursion goes

A step that enters brackets waits for the reduction of their inside, which may enter brackets in its
turn. `r.Alive R levels q` describes a moment of one step on `r`: `q` is at work, and `levels` has one
entry for each reduction that was started inside brackets and is not finished, the innermost first.

1. A step comes to be nested too deeply just when as many reductions are alive as may be, and the one
   at work is about to enter brackets (`Reduction.step_eq_tooDeep_iff`).
2. Entering brackets takes one level off the nesting of the buffer, and a step inside may give some
   back (`Step.growth`). So the number of reductions alive is at most the nesting of the buffer of `r`
   plus what their steps have given back (`Reduction.Alive.length_add_nesting_le`).
3. Over balanced names and templates a rule gives back the nesting of its template at most
   (`Reduction.Alive.growth_rule_le`), and nothing is given back where no template holds a bracket
   (`Reduction.Alive.growth_eq_zero`).

`Reduction.recursion_bounded` puts these together; `Reduction.recursion_exceeds_nesting` shows that
the nesting of the buffer alone is no bound.
-/

namespace Combinatory

/-- By how much a step makes the brackets of its buffer nest more deeply. -/
def Step.growth (s : Step) : Nat := nesting s.after - nesting s.before

namespace Reduction

/-- Whether the reduction at work may make a step: outside of brackets it makes its one step, and
inside it has not spent its number. -/
def MayStep (levels : List (List Step)) (q : Reduction) : Prop :=
  ∀ steps ∈ levels.head?, steps.length < q.bounds.fuel

/-- A moment of one step on `r`: the reduction `q` is at work, inside as many compounds as there are
levels. Each level holds the steps that the reduction of its compound has made. -/
inductive Alive (R : Basis) (r : Reduction) : List (List Step) → Reduction → Prop
  | self : Alive R r [] r
  /-- The reduction at work enters brackets in its next step. -/
  | enter {levels : List (List Step)} {q : Reduction} {head : Term} {rest : Text}
      (h : Alive R r levels q) (hmay : MayStep levels q) (hp : R.plan q.buffer = .enter head rest)
      (hd : 0 < q.bounds.depth) : Alive R r ([] :: levels) (q.child head)
  /-- The reduction at work, which is one inside brackets, has made its next step. -/
  | step {steps : List Step} {levels : List (List Step)} {q p : Reduction} {s : Step}
      (h : Alive R r (steps :: levels) q) (hmay : MayStep (steps :: levels) q)
      (hs : q.step R = (p, .ok s)) (hp : s.progressed = true) :
      Alive R r ((steps ++ [s]) :: levels) p

/-- By how much the steps of all levels have made brackets nest more deeply. -/
def growth (levels : List (List Step)) : Nat := (levels.flatten.map Step.growth).sum

variable {R : Basis} {r q p : Reduction} {levels : List (List Step)} {steps made : List Step}
variable {head : Term} {rest : Text} {s : Step} {f : Fault}

theorem growth_concat (steps : List Step) (s : Step) (levels : List (List Step)) :
    growth ((steps ++ [s]) :: levels) = growth (steps :: levels) + s.growth := by
  simp only [growth, List.flatten_cons, List.map_append, List.sum_append, List.map_cons, List.map_nil,
    List.sum_cons, List.sum_nil]
  omega

theorem mayStep_nil (q : Reduction) : MayStep [] q := by
  intro steps h
  simp at h

theorem mayStep_cons_iff : MayStep (steps :: levels) q ↔ steps.length < q.bounds.fuel := by
  simp [MayStep]

/-! ## Moments of a step -/

theorem Alive.depth_add_length (h : r.Alive R levels q) :
    q.bounds.depth + levels.length = r.bounds.depth := by
  induction h with
  | self => rfl
  | @enter levels q head rest _ _ _ hd ih =>
    show q.bounds.depth - 1 + (levels.length + 1) = r.bounds.depth
    omega
  | step _ _ hs _ ih =>
    obtain ⟨-, rfl⟩ := step_eq_ok_iff.1 hs
    exact ih

theorem Alive.makes (h : r.Alive R (made :: levels) q) (hm : q.Makes R steps p)
    (hlen : made.length + steps.length ≤ q.bounds.fuel) :
    r.Alive R ((made ++ steps) :: levels) p := by
  induction hm generalizing made with
  | nil q => rwa [List.append_nil]
  | @cons q p last s steps hs hp _ ih =>
    rw [List.length_cons] at hlen
    have hnext := h.step (mayStep_cons_iff.2 (by omega)) hs hp
    obtain ⟨-, rfl⟩ := step_eq_ok_iff.1 hs
    rw [List.append_cons]
    refine ih hnext ?_
    rw [List.length_append, List.length_singleton]
    show made.length + 1 + steps.length ≤ q.bounds.fuel
    omega

theorem Alive.active (h : r.Alive R levels q) : r.Active R q := by
  induction h with
  | self => exact .self
  | enter _ _ hp hd ih => exact ih.child hp hd
  | @step _ _ q p s _ _ hs _ ih =>
    have hnext : p = (q.step R).1 := by rw [hs]
    exact hnext ▸ ih.step

theorem Alive.exists_active (h : r.Alive R levels q) (hl : steps ∈ levels) (hs : s ∈ steps) :
    ∃ p, r.Active R p ∧ R.step p.bounds p.buffer = .ok s := by
  induction h generalizing steps with
  | self => simp at hl
  | enter _ _ _ _ ih =>
    rcases List.mem_cons.1 hl with rfl | hl
    · simp at hs
    · exact ih hl hs
  | @step made _ q _ _ h _ hq _ ih =>
    rcases List.mem_cons.1 hl with rfl | hl
    · rcases List.mem_append.1 hs with hs | hs
      · exact ih List.mem_cons_self hs
      · obtain rfl := List.mem_singleton.1 hs
        exact ⟨q, h.active, (step_eq_ok_iff.1 hq).1⟩
    · exact ih (List.mem_cons_of_mem made hl) hs

/-! ## Too deep -/

theorem exists_makes_of_advance_error {n : Nat} (hr : r.canStep = true)
    (h : advance (R.step r.bounds) n r.buffer = .error f) :
    ∃ steps q, r.Makes R steps q ∧ steps.length < n ∧ R.step q.bounds q.buffer = .error f := by
  rw [advance_eq_walk hr n []] at h
  obtain ⟨steps, hmakes, hlen, hlast⟩ :=
    exists_makes_of_walk_error (Prod.ext rfl (error_of_map_error h))
  exact ⟨steps, _, hmakes, hlen, (step_eq_error_iff.1 hlast).1⟩

theorem settle_eq_tooDeep_iff {B : Bounds} {step : Text → Except Fault Step} {e : Text} :
    settle B step e = .error .tooDeep ↔ advance step B.fuel e = .error .tooDeep := by
  have hspent : B.exhausted e ≠ .tooDeep := by
    unfold Bounds.exhausted
    cases B.limit <;> simp
  unfold settle
  rcases advance step B.fuel e with f | ⟨u, settled⟩
  · simp [Bounds.settled]
  · cases settled <;> simp [Bounds.settled, hspent]

theorem exists_enter_of_tooDeep (h : R.step q.bounds q.buffer = .error .tooDeep) :
    ∃ head rest, R.plan q.buffer = .enter head rest := by
  cases hp : R.plan q.buffer with
  | enter head rest => exact ⟨head, rest, rfl⟩
  | finished outcome =>
    obtain rfl : outcome = .error .tooDeep := (Basis.stepAt_of_finished hp _ _).symm.trans h
    obtain ⟨_, _, _, _, hf⟩ := Basis.exists_of_plan_error hp
    simp at hf

theorem step_eq_tooDeep_iff_of_enter (hp : R.plan q.buffer = .enter head rest)
    (hd : 0 < q.bounds.depth) :
    R.step q.bounds q.buffer = .error .tooDeep ↔
      advance (R.step (q.child head).bounds) (q.child head).bounds.fuel (q.child head).buffer =
        .error .tooDeep := by
  obtain ⟨d, hd⟩ : ∃ d, q.bounds.depth = d + 1 := ⟨q.bounds.depth - 1, by omega⟩
  have hinside : R.step (q.child head).bounds = R.stepAt q.bounds d := by
    unfold child
    rw [hd]
    exact funext (R.step_setDepth q.bounds d)
  have hsettle : R.settleAt q.bounds q.bounds.depth head.interior =
      settle q.bounds (R.step (q.child head).bounds) head.interior := by
    rw [hinside, hd]
    rfl
  unfold Basis.step
  rw [Basis.stepAt_of_enter hp, hsettle]
  constructor
  · exact fun h => settle_eq_tooDeep_iff.1 (error_of_map_error h)
  · exact fun h => congrArg _ (settle_eq_tooDeep_iff.2 h)

/-- A moment from which the step is too deep leads to one where no more brackets may be entered. -/
theorem exists_alive_of_tooDeep (h : r.Alive R levels q) (hmay : MayStep levels q)
    (hdeep : R.step q.bounds q.buffer = .error .tooDeep) :
    ∃ levels q head rest, r.Alive R levels q ∧ MayStep levels q ∧ q.bounds.depth = 0 ∧
      R.plan q.buffer = .enter head rest := by
  induction hd : q.bounds.depth generalizing levels q with
  | zero =>
    obtain ⟨head, rest, hp⟩ := exists_enter_of_tooDeep hdeep
    exact ⟨levels, q, head, rest, h, hmay, hd, hp⟩
  | succ d ih =>
    obtain ⟨head, rest, hp⟩ := exists_enter_of_tooDeep hdeep
    have hpos : 0 < q.bounds.depth := by omega
    have hloop := (step_eq_tooDeep_iff_of_enter hp hpos).1 hdeep
    obtain ⟨steps, p, hmakes, hlen, hfail⟩ := exists_makes_of_advance_error rfl hloop
    have hbounds := hmakes.bounds_eq
    refine ih ((h.enter hmay hp hpos).makes hmakes (by simpa using hlen.le)) ?_ hfail ?_
    · exact mayStep_cons_iff.2 (hbounds ▸ hlen)
    · rw [hbounds]
      show q.bounds.depth - 1 = d
      omega

/-- What is left to do at a moment, by the reduction at work, is too deep. -/
def LeftTooDeep (R : Basis) : List (List Step) → Reduction → Prop
  | [], q => R.step q.bounds q.buffer = .error .tooDeep
  | steps :: _, q =>
    advance (R.step q.bounds) (q.bounds.fuel - steps.length) q.buffer = .error .tooDeep

theorem leftTooDeep_cons_iff :
    LeftTooDeep R (steps :: levels) q ↔
      advance (R.step q.bounds) (q.bounds.fuel - steps.length) q.buffer = .error .tooDeep := Iff.rfl

theorem advance_of_mayStep (hmay : MayStep (steps :: levels) q) :
    advance (R.step q.bounds) (q.bounds.fuel - steps.length) q.buffer =
      match R.step q.bounds q.buffer with
      | .error f => .error f
      | .ok s =>
        if s.progressed then
          advance (R.step q.bounds) (q.bounds.fuel - (steps.length + 1)) s.after
        else .ok (s.after, true) := by
  have hlen := mayStep_cons_iff.1 hmay
  rw [show q.bounds.fuel - steps.length = q.bounds.fuel - (steps.length + 1) + 1 by omega]
  rfl

theorem leftTooDeep_of_step (hmay : MayStep levels q)
    (h : R.step q.bounds q.buffer = .error .tooDeep) : LeftTooDeep R levels q := by
  cases levels with
  | nil => exact h
  | cons steps levels =>
    rw [leftTooDeep_cons_iff, advance_of_mayStep hmay, h]

theorem Alive.tooDeep (h : r.Alive R levels q) (hleft : LeftTooDeep R levels q) :
    R.step r.bounds r.buffer = .error .tooDeep := by
  induction h with
  | self => exact hleft
  | enter _ hmay hp hd ih =>
    exact ih (leftTooDeep_of_step hmay ((step_eq_tooDeep_iff_of_enter hp hd).2 hleft))
  | @step steps levels q p s _ hmay hs hp ih =>
    obtain ⟨hok, rfl⟩ := step_eq_ok_iff.1 hs
    refine ih ?_
    rw [leftTooDeep_cons_iff, List.length_append, List.length_singleton] at hleft
    rw [leftTooDeep_cons_iff, advance_of_mayStep hmay, hok]
    dsimp only
    rwa [if_pos hp]

/-- **A step is too deep just when, at some moment of it, as many reductions are alive as may be and
the one at work is about to enter brackets.** -/
theorem step_eq_tooDeep_iff :
    (r.step R).2 = .error .tooDeep ↔
      ∃ levels q head rest, r.Alive R levels q ∧ MayStep levels q ∧
        levels.length = r.bounds.depth ∧ R.plan q.buffer = .enter head rest := by
  rw [step_snd]
  constructor
  · intro h
    obtain ⟨levels, q, head, rest, halive, hmay, hd, hp⟩ :=
      exists_alive_of_tooDeep .self (mayStep_nil r) h
    have hdepth := halive.depth_add_length
    exact ⟨levels, q, head, rest, halive, hmay, by omega, hp⟩
  · rintro ⟨levels, q, head, rest, halive, hmay, hlen, hp⟩
    have hdepth := halive.depth_add_length
    have hd : q.bounds.depth = 0 := by omega
    have hstep : R.step q.bounds q.buffer = .error .tooDeep := by
      unfold Basis.step
      rw [Basis.stepAt_of_enter hp, hd]
      rfl
    exact halive.tooDeep (leftTooDeep_of_step hmay hstep)

/-! ## The bound -/

/-- **The levels and the nesting of the buffer at work** are together at most the nesting of the buffer
of `r` and what the steps inside brackets have added to it. -/
theorem Alive.length_add_nesting_le (h : r.Alive R levels q) :
    levels.length + nesting q.buffer ≤ nesting r.buffer + growth levels := by
  induction h with
  | self => simp [growth]
  | @enter levels q head rest _ _ hp _ ih =>
    obtain ⟨hcut, -, hk⟩ := Basis.cut_of_plan_enter hp
    have hlt : nesting (q.child head).buffer < nesting q.buffer := hcut.nesting_interior_lt hk
    have hgrowth : growth ([] :: levels) = growth levels := rfl
    rw [List.length_cons]
    omega
  | @step steps levels q p s _ _ hs _ ih =>
    obtain ⟨hok, rfl⟩ := step_eq_ok_iff.1 hs
    have hbefore := (Basis.stepAt_eq_ok_iff.1 hok).before_eq
    have hgrowth : s.growth = nesting s.after - nesting q.buffer := by rw [← hbefore]; rfl
    rw [growth_concat]
    rw [List.length_cons] at ih ⊢
    dsimp only
    omega

theorem Alive.growth_rule_le (h : r.Alive R levels q) (hR : R.WellBracketed)
    (hr : Balanced r.buffer) (hl : steps ∈ levels) (hs : s ∈ steps) (hk : s.kind = .rule) :
    ∃ d ∈ R.combinators, s.combinator = some d ∧ s.growth ≤ nesting d.template := by
  obtain ⟨p, hp, hok⟩ := h.exists_active hl hs
  have hred := Basis.stepAt_eq_ok_iff.1 hok
  obtain ⟨d, hd, hcomb, hle⟩ := hred.nesting_rule_le hR (hp.balanced hR hr) hk
  refine ⟨d, hd, hcomb, ?_⟩
  unfold Step.growth
  rw [hred.before_eq]
  omega

theorem Alive.growth_eq_zero (h : r.Alive R levels q) (hR : R.WellBracketed)
    (hr : Balanced r.buffer) (hflat : ∀ d ∈ R.combinators, nesting d.template = 0) :
    growth levels = 0 := by
  refine List.sum_eq_zero fun n hn => ?_
  obtain ⟨s, hs, rfl⟩ := List.mem_map.1 hn
  obtain ⟨steps, hl, hs⟩ := List.mem_flatten.1 hs
  obtain ⟨p, hp, hok⟩ := h.exists_active hl hs
  have hle := Basis.nesting_stepAt_le hR hflat (hp.balanced hR hr) hok
  unfold Step.growth
  rw [(Basis.stepAt_eq_ok_iff.1 hok).before_eq]
  omega

/-- **The recursion is bounded by the nesting of the buffer and what the steps inside brackets add to
it.** At every moment of a step, the number of reductions alive is at most the nesting of the buffer
plus the nesting that the steps of these reductions have added to their own buffers; and a step is too
deep only if that sum exceeds the depth that is allowed. Over balanced names and templates, in a
balanced buffer, a rule adds the nesting of its template at most; and where no template holds a bracket,
the number of reductions alive is at most the nesting of the buffer, and a step is too deep only for
the brackets of the buffer. -/
theorem recursion_bounded (R : Basis) (r : Reduction) :
    (∀ levels q, r.Alive R levels q → levels.length ≤ nesting r.buffer + growth levels) ∧
    ((r.step R).2 = .error .tooDeep →
      ∃ levels q, r.Alive R levels q ∧ levels.length = r.bounds.depth ∧
        r.bounds.depth < nesting r.buffer + growth levels) ∧
    (R.WellBracketed → Balanced r.buffer →
      (∀ levels q, r.Alive R levels q → ∀ steps ∈ levels, ∀ s ∈ steps, s.kind = .rule →
        ∃ d ∈ R.combinators, s.combinator = some d ∧ s.growth ≤ nesting d.template) ∧
      ((∀ d ∈ R.combinators, nesting d.template = 0) →
        (∀ levels q, r.Alive R levels q → levels.length ≤ nesting r.buffer) ∧
        ((r.step R).2 = .error .tooDeep → r.bounds.depth < nesting r.buffer))) := by
  have hbound : ∀ levels q, r.Alive R levels q →
      levels.length ≤ nesting r.buffer + growth levels := by
    intro levels q h
    have := h.length_add_nesting_le
    omega
  have hdeep : (r.step R).2 = .error .tooDeep →
      ∃ levels q, r.Alive R levels q ∧ levels.length = r.bounds.depth ∧
        r.bounds.depth < nesting r.buffer + growth levels := by
    intro h
    obtain ⟨levels, q, head, rest, halive, -, hlen, hp⟩ := step_eq_tooDeep_iff.1 h
    -- The brackets that are about to be entered nest as well.
    obtain ⟨hcut, -, hk⟩ := Basis.cut_of_plan_enter hp
    have hlt := hcut.nesting_interior_lt hk
    have hle := halive.length_add_nesting_le
    exact ⟨levels, q, halive, hlen, by omega⟩
  refine ⟨hbound, hdeep, fun hR hr => ⟨?_, fun hflat => ⟨?_, ?_⟩⟩⟩
  · intro levels q h steps hl s hs hk
    exact h.growth_rule_le hR hr hl hs hk
  · intro levels q h
    have hle := hbound levels q h
    rwa [h.growth_eq_zero hR hr hflat] at hle
  · intro h
    obtain ⟨levels, q, halive, -, hlt⟩ := hdeep h
    rwa [halive.growth_eq_zero hR hr hflat] at hlt

/-- One compound may be open. The step on `(BIKa)` is too deep for the brackets of `B`, and that on
`((Ia))` for its own. -/
theorem recursion_bounded_one :
    (∃ levels q, ({ buffer := "(BIKa)".toList, bounds := { depth := 1 } } : Reduction).Alive .standard
        levels q ∧ levels.length = 1 ∧ 1 < nesting "(BIKa)".toList + growth levels) ∧
      (∀ levels q, ({ buffer := "((Ia))".toList, bounds := { depth := 1 } } : Reduction).Alive
        ⟨[.k, .i]⟩ levels q → levels.length ≤ nesting "((Ia))".toList) ∧
      1 < nesting "((Ia))".toList := by
  have hflat := ((recursion_bounded ⟨[.k, .i]⟩
    { buffer := "((Ia))".toList, bounds := { depth := 1 } }).2.2 (by decide) (by decide)).2 (by decide)
  exact ⟨(recursion_bounded .standard
    { buffer := "(BIKa)".toList, bounds := { depth := 1 } }).2.1 rfl, hflat.1, hflat.2 rfl⟩

/-- The inside of `(BIKa)` becomes `(Ka)` in two steps, and then a second reduction is alive, although
the buffer nests no brackets; it is too much where one compound may be open. -/
theorem recursion_exceeds_nesting :
    Balanced "(BIKa)".toList ∧ nesting "(BIKa)".toList = 1 ∧
      (∃ levels q, ({ buffer := "(BIKa)".toList, bounds := {} } : Reduction).Alive .standard levels q ∧
        levels.length = 2) ∧
      (({ buffer := "(BIKa)".toList, bounds := { depth := 1 } } : Reduction).step .standard).2 =
        .error .tooDeep := by
  refine ⟨by decide, by decide, ?_, rfl⟩
  have hplan : Basis.standard.plan "(BIKa)".toList = .enter ⟨"(BIKa)".toList, .compound⟩ [] := rfl
  have hinside : ({ buffer := "(BIKa)".toList, bounds := {} } : Reduction).Alive .standard [[]]
      { buffer := "BIKa".toList, bounds := { depth := 299 } } :=
    Alive.enter (q := { buffer := "(BIKa)".toList, bounds := {} }) .self (mayStep_nil _) hplan
      (by decide)
  have hb := hinside.step (mayStep_cons_iff.2 (by decide))
    (p := { buffer := "I(Ka)".toList, bounds := { depth := 299 } }) rfl rfl
  have hi := hb.step (mayStep_cons_iff.2 (by decide))
    (p := { buffer := "(Ka)".toList, bounds := { depth := 299 } }) rfl rfl
  exact ⟨_, _, hi.enter (mayStep_cons_iff.2 (by decide)) rfl (by decide), rfl⟩

end Reduction

end Combinatory
