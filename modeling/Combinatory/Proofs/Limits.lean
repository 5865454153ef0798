import Combinatory.Proofs.Faults

/-!
# Limits cut short and change nothing else

Two outcomes of the same step under different bounds are compared by `CutShort`.

1. A loop whose steps are cut short is cut short (`advance_cutShort`), and a loop that is given more
   steps ends as before, unless it had spent those it had (`advance_of_le`).
2. A step is cut short by fewer steps inside brackets (`Basis.stepAt_cutShort_of_fuel_le`) and by less
   nesting (`Basis.stepAt_cutShort_of_depth_le`), both by induction on the nesting.

`Basis.limits_only_cut_short` says this of the steps under two limits, one of which may be none, and
of the steps under two nestings.
-/

namespace Combinatory

/-- An expression inside brackets has made as many steps as its limit allows. -/
def Fault.IsStepLimit (f : Fault) : Prop := ∃ e n, f = .stepLimit e n

/-! ## Outcomes that are cut short -/

/-- `x` is `y`, or else cut short by a fault of the kind `P`; and it is cut short whenever `y` is. -/
structure CutShort {α : Type} (P : Fault → Prop) (x y : Except Fault α) : Prop where
  eq_or_cut : x = y ∨ ∃ f, P f ∧ x = .error f
  cut_of_cut : ∀ f, P f → y = .error f → ∃ g, P g ∧ x = .error g

namespace CutShort

variable {α β : Type} {P : Fault → Prop} {x y : Except Fault α} {f : Fault}

theorem of_eq_or_cut (h : x = y ∨ ∃ f, P f ∧ x = .error f) : CutShort P x y := by
  refine ⟨h, ?_⟩
  intro f hf hy
  rcases h with rfl | hcut
  · exact ⟨f, hf, hy⟩
  · exact hcut

theorem refl (x : Except Fault α) : CutShort P x x := of_eq_or_cut (.inl rfl)

theorem of_cut (hf : P f) (y : Except Fault α) : CutShort P (.error f) y :=
  of_eq_or_cut (.inr ⟨f, hf, rfl⟩)

theorem eq_ok {a : α} (h : CutShort P x y) (hx : x = .ok a) : y = .ok a := by
  rcases h.eq_or_cut with rfl | ⟨f, -, hcut⟩
  · exact hx
  · rw [hx] at hcut
    simp at hcut

theorem map (h : CutShort P x y) (g : α → β) : CutShort P (x.map g) (y.map g) := by
  rcases h.eq_or_cut with rfl | ⟨f, hf, rfl⟩
  · exact refl _
  · exact of_cut hf _

theorem settled {x y : Except Fault (Text × Bool)} (h : CutShort P x y) (B : Bounds) (e : Text) :
    CutShort P (B.settled e x) (B.settled e y) := by
  rcases h.eq_or_cut with rfl | ⟨f, hf, rfl⟩
  · exact refl _
  · exact of_cut hf _

end CutShort

/-! ## Loops -/

section Loops

variable {P : Fault → Prop} {step step' : Text → Except Fault Step}

theorem advance_cutShort (hstep : ∀ b, CutShort P (step b) (step' b)) (n : Nat) (b : Text) :
    CutShort P (advance step n b) (advance step' n b) := by
  induction n generalizing b with
  | zero => exact .refl _
  | succ n ih =>
    unfold advance
    rcases (hstep b).eq_or_cut with heq | ⟨f, hf, hcut⟩
    · rw [heq]
      cases step' b with
      | error f => exact .refl _
      | ok s =>
        dsimp only
        split
        · exact ih s.after
        · exact .refl _
    · rw [hcut]
      exact .of_cut hf _

theorem advance_of_le (step : Text → Except Fault Step) {n m : Nat} (hn : n ≤ m) (b : Text) :
    advance step n b = advance step m b ∨ ∃ v, advance step n b = .ok (v, false) := by
  induction n generalizing m b with
  | zero => exact .inr ⟨b, rfl⟩
  | succ n ih =>
    obtain ⟨m, rfl⟩ : ∃ k, m = k + 1 := ⟨m - 1, by omega⟩
    unfold advance
    cases step b with
    | error f => exact .inl rfl
    | ok s =>
      dsimp only
      split
      · exact ih (by omega) s.after
      · exact .inl rfl

/-- **Fewer steps only cut short what is done inside brackets.** -/
theorem settle_cutShort_of_fuel_le {B C : Bounds} (hfuel : B.fuel ≤ C.fuel)
    (hP : ∀ e, P (B.exhausted e)) (hstep : ∀ b, CutShort P (step b) (step' b)) (e : Text) :
    CutShort P (settle B step e) (settle C step' e) := by
  unfold settle
  rcases (advance_cutShort hstep B.fuel e).eq_or_cut with heq | ⟨f, hf, hcut⟩
  · rw [heq]
    rcases advance_of_le step' hfuel e with hle | ⟨v, hv⟩
    · rw [← hle]
      rcases advance step' B.fuel e with f | ⟨v, settled⟩
      · exact .refl _
      · cases settled with
        | true => exact .refl _
        | false => exact .of_cut (hP e) _
    · rw [hv]
      exact .of_cut (hP e) _
  · rw [hcut]
    exact .of_cut hf _

end Loops

namespace Basis

variable {R : Basis} {P : Fault → Prop} {B C : Bounds}

/-! ## Steps -/

theorem stepAt_cutShort_of_settleAt {D E : Nat}
    (h : ∀ e, CutShort P (R.settleAt B D e) (R.settleAt C E e)) (b : Text) :
    CutShort P (R.stepAt B D b) (R.stepAt C E b) := by
  cases hp : R.plan b with
  | finished outcome =>
    rw [stepAt_of_finished hp, stepAt_of_finished hp]
    exact .refl _
  | enter head rest =>
    rw [stepAt_of_enter hp, stepAt_of_enter hp]
    exact (h head.interior).map _

/-- **Fewer steps only cut a step short.** -/
theorem stepAt_cutShort_of_fuel_le (hfuel : B.fuel ≤ C.fuel) (hP : ∀ e, P (B.exhausted e))
    (D : Nat) (b : Text) : CutShort P (R.stepAt B D b) (R.stepAt C D b) := by
  induction D generalizing b with
  | zero =>
    refine stepAt_cutShort_of_settleAt ?_ b
    intro e
    exact .refl (.error .tooDeep)
  | succ D ih =>
    exact stepAt_cutShort_of_settleAt (fun e => settle_cutShort_of_fuel_le hfuel hP ih e) b

theorem settleAt_cutShort_of_depth_le {D E : Nat} (hD : D ≤ E) (e : Text) :
    CutShort (· = .tooDeep) (R.settleAt B D e) (R.settleAt B E e) := by
  induction D generalizing E e with
  | zero => exact .of_cut (P := (· = .tooDeep)) rfl _
  | succ D ih =>
    obtain ⟨E, rfl⟩ : ∃ k, E = k + 1 := ⟨E - 1, by omega⟩
    have hsteps : ∀ b, CutShort (· = .tooDeep) (R.stepAt B D b) (R.stepAt B E b) :=
      stepAt_cutShort_of_settleAt (ih (by omega))
    exact (advance_cutShort hsteps B.fuel e).settled B e

/-- **Less nesting only cuts a step short.** -/
theorem stepAt_cutShort_of_depth_le {D E : Nat} (hD : D ≤ E) (b : Text) :
    CutShort (· = .tooDeep) (R.stepAt B D b) (R.stepAt B E b) :=
  stepAt_cutShort_of_settleAt (settleAt_cutShort_of_depth_le hD) b

theorem stepAt_of_depth_le {D E : Nat} {b : Text} {s : Step} (h : R.stepAt B D b = .ok s)
    (hD : D ≤ E) : R.stepAt B E b = .ok s := (stepAt_cutShort_of_depth_le hD b).eq_ok h

theorem advance_of_depth_le {D E n : Nat} {b : Text} {last : Text × Bool}
    (h : advance (R.stepAt B D) n b = .ok last) (hD : D ≤ E) :
    advance (R.stepAt B E) n b = .ok last :=
  (advance_cutShort (fun b => stepAt_cutShort_of_depth_le hD b) n b).eq_ok h

theorem step_setDepth (R : Basis) (B : Bounds) (D : Nat) (b : Text) :
    R.step { B with depth := D } b = R.stepAt B D b := by
  show R.stepAt { B with depth := D } D b = R.stepAt B D b
  rw [R.stepAt_setDepth]

/-! ## Steps without limit -/

/-- With `D` compounds that may be entered inside one another and no limit to the steps in them, the
step on `b` comes to the outcome `x`. It comes to none when a compound never settles. -/
def ComesTo (R : Basis) (D : Nat) (b : Text) (x : Except Fault Step) : Prop :=
  ∃ p, R.step { limit := none, depth := D, patience := p } b = x ∧ ∀ e, x ≠ .error (.unsettled e)

variable {D : Nat} {b : Text} {x : Except Fault Step}

theorem ComesTo.exists_forall (h : R.ComesTo D b x) :
    ∃ p, ∀ q, p ≤ q → R.step { limit := none, depth := D, patience := q } b = x := by
  obtain ⟨p, rfl, hx⟩ := h
  refine ⟨p, fun q hq => ?_⟩
  have hcut : CutShort (fun f => ∃ e, f = .unsettled e)
      (R.step { limit := none, depth := D, patience := p } b)
      (R.step { limit := none, depth := D, patience := q } b) :=
    stepAt_cutShort_of_fuel_le (B := { limit := none, depth := D, patience := p })
      (C := { limit := none, depth := D, patience := q }) hq (fun e => ⟨e, rfl⟩) D b
  rcases hcut.eq_or_cut with heq | ⟨_, ⟨e, rfl⟩, hu⟩
  · exact heq.symm
  · exact absurd hu (hx e)

theorem step_ne_unsettled {n : Int} (h : B.limit = some n) (e : Text) :
    R.step B b ≠ .error (.unsettled e) := by
  intro hu
  have harises := arises_of_stepAt hu
  generalize hf : Fault.unsettled e = f at harises
  cases harises with
  | template | depth => simp at hf
  | spent e' =>
    rw [Bounds.exhausted_of_limit h] at hf
    simp at hf

/-- The basis of one combinator that gives way to itself. -/
def looping : Basis := ⟨[⟨['L'], 0, ['L'], by decide⟩]⟩

theorem advance_looping (B : Bounds) (D n : Nat) :
    advance (looping.stepAt B D) n ['L'] = .ok (['L'], false) := by
  have hplan : looping.plan ['L'] = .finished
      (.ok ⟨.rule, some ⟨['L'], .name⟩, ['L'], ['L'], true, some ⟨['L'], 0, ['L'], by decide⟩⟩) := rfl
  induction n with
  | zero => rfl
  | succ n ih =>
    rw [advance_of_progressed (stepAt_of_finished hplan B D) rfl]
    exact ih

theorem not_comesTo_looping (D : Nat) (x : Except Fault Step) :
    ¬ looping.ComesTo (D + 1) "(L)a".toList x := by
  rintro ⟨p, rfl, hx⟩
  have hplan : looping.plan "(L)a".toList = .enter ⟨"(L)".toList, .compound⟩ ['a'] := rfl
  refine hx ['L'] ?_
  show looping.stepAt _ (D + 1) _ = _
  rw [stepAt_of_enter hplan]
  show (Bounds.settled _ ['L'] (advance _ p ['L'])).map _ = _
  rw [advance_looping]
  rfl

/-! ## The limits of a step -/

theorem step_cutShort_of_le_patience (R : Basis) (B : Bounds) (b : Text) {n : Int} {p : Nat}
    (hp : n.toNat ≤ p) :
    CutShort Fault.IsStepLimit (R.step { B with limit := some n } b)
      (R.step { limit := none, depth := B.depth, patience := p } b) :=
  stepAt_cutShort_of_fuel_le (B := { B with limit := some n })
    (C := { limit := none, depth := B.depth, patience := p }) hp (fun e => ⟨e, n, rfl⟩) B.depth b

/-- **Limits only cut short.** Of two limits to the steps inside brackets, the lower one gives the same
outcome or the fault of a limit, and it gives such a fault whenever the higher one does; so it is with
a limit and none, and where without limit the step never ends, with a limit it has such a fault. Of two
nestings, the lower one gives the same outcome or the fault of nesting, and gives it whenever the
higher one does, with a limit to the steps and without. -/
theorem limits_only_cut_short (R : Basis) (b : Text) :
    (∀ (B : Bounds) (n m : Int), n ≤ m →
      CutShort Fault.IsStepLimit (R.step { B with limit := some n } b)
        (R.step { B with limit := some m } b)) ∧
    (∀ (B : Bounds) (n : Int),
      (∀ y, R.ComesTo B.depth b y →
        CutShort Fault.IsStepLimit (R.step { B with limit := some n } b) y) ∧
      ((¬ ∃ y, R.ComesTo B.depth b y) →
        ∃ f : Fault, f.IsStepLimit ∧ R.step { B with limit := some n } b = .error f)) ∧
    (∀ (B : Bounds) (D E : Nat), D ≤ E →
      CutShort (· = .tooDeep) (R.step { B with depth := D } b) (R.step { B with depth := E } b)) ∧
    ∀ D E : Nat, D ≤ E →
      (∀ y, R.ComesTo E b y → ∃ x, R.ComesTo D b x ∧ CutShort (· = .tooDeep) x y) ∧
      ∀ x, R.ComesTo D b x → R.ComesTo E b x ∨ x = .error .tooDeep := by
  have hdepth : ∀ (B : Bounds) (D E : Nat), D ≤ E →
      CutShort (· = .tooDeep) (R.step { B with depth := D } b) (R.step { B with depth := E } b) := by
    intro B D E hD
    rw [step_setDepth, step_setDepth]
    exact stepAt_cutShort_of_depth_le hD b
  refine ⟨?_, ?_, hdepth, ?_⟩
  · intro B n m hn
    exact stepAt_cutShort_of_fuel_le (B := { B with limit := some n })
      (C := { B with limit := some m }) (Int.toNat_le_toNat hn) (fun e => ⟨e, n, rfl⟩) B.depth b
  · intro B n
    constructor
    · intro y hy
      obtain ⟨p, hp⟩ := hy.exists_forall
      have hcut := R.step_cutShort_of_le_patience B b (Nat.le_max_right p n.toNat)
      rwa [hp _ (Nat.le_max_left p n.toNat)] at hcut
    · intro hnever
      rcases (R.step_cutShort_of_le_patience B b (le_refl n.toNat)).eq_or_cut with heq | hcut
      · -- What the limit did not cut short, patience of as many steps comes to.
        refine absurd ⟨_, n.toNat, heq.symm, fun e => ?_⟩ hnever
        exact step_ne_unsettled rfl e
      · exact hcut
  · intro D E hD
    constructor
    · rintro y ⟨p, rfl, hy⟩
      have hcut := hdepth { limit := none, patience := p } D E hD
      refine ⟨_, ⟨p, rfl, fun e he => ?_⟩, hcut⟩
      rcases hcut.eq_or_cut with heq | ⟨_, rfl, htoo⟩
      · exact hy e (heq ▸ he)
      · rw [htoo] at he
        simp at he
    · rintro x ⟨p, rfl, hx⟩
      rcases (hdepth { limit := none, patience := p } D E hD).eq_or_cut with heq | ⟨_, rfl, htoo⟩
      · exact .inl ⟨p, heq.symm, hx⟩
      · exact .inr htoo

/-- Two steps inside brackets and two brackets inside one another are what `((IK)a)b` needs; no number
of steps is enough for the looping combinator. -/
theorem limits_only_cut_short_nested :
    CutShort Fault.IsStepLimit (standard.step { limit := some 1 } "((IK)a)b".toList)
      (standard.step { limit := some 2 } "((IK)a)b".toList) ∧
    (∃ y, standard.ComesTo 2 "((IK)a)b".toList y ∧
      CutShort Fault.IsStepLimit
        (standard.step { limit := some 1, depth := 2 } "((IK)a)b".toList) y ∧
      ∃ x, standard.ComesTo 1 "((IK)a)b".toList x ∧ CutShort (· = .tooDeep) x y) ∧
    CutShort (· = .tooDeep) (standard.step { depth := 1 } "((IK)a)b".toList)
      (standard.step { depth := 2 } "((IK)a)b".toList) ∧
    ∃ f : Fault, f.IsStepLimit ∧ looping.step { limit := some 7 } "(L)a".toList = .error f := by
  obtain ⟨hlimits, hnone, hdepths, hboth⟩ := limits_only_cut_short standard "((IK)a)b".toList
  obtain ⟨-, hloop, -⟩ := limits_only_cut_short looping "(L)a".toList
  have hwide : standard.ComesTo 2 "((IK)a)b".toList
      (.ok ⟨.compound, some ⟨"((IK)a)".toList, .compound⟩, "((IK)a)b".toList, "Kab".toList, true,
        none⟩) := ⟨2, rfl, by simp⟩
  refine ⟨hlimits {} 1 2 (by decide), ?_, hdepths {} 1 2 (by decide), ?_⟩
  · exact ⟨_, hwide, (hnone { depth := 2 } 1).1 _ hwide, (hboth 1 2 (by decide)).1 _ hwide⟩
  · refine (hloop {} 7).2 ?_
    rintro ⟨x, hx⟩
    exact not_comesTo_looping 299 x hx

end Basis

end Combinatory
