import Combinatory.Proofs.Active
import Combinatory.Proofs.TermStep

/-!
# Combinators at the end of a basis

A combinator that is appended to a basis is idle for a text when an earlier name stands in its way, or
when its name begins with a character that no reduction of the text can come to hold.

1. A reduction holds characters of its first buffer and of the templates alone
   (`Basis.Spelled.stepAt`).
2. Over such characters an idle combinator is never the first whose name stands at a head
   (`Basis.findPrefix?_extend_of_idle`), and never the first that a head is looked up for
   (`Basis.Cut.lookup?_extend`).
3. So buffers are cut alike over both bases (`Basis.splitTerms_extend`), steps are alike by induction
   on the nesting (`Basis.stepAt_extend`), and so are whole reductions.

`Reduction.extend_conservative`: idle combinators change nothing.
-/

namespace Combinatory

/-! ## Characters of filled templates -/

theorem mem_of_mem_fill {args : List Text} {template v : Text} {c : Char}
    (h : fill args template = .ok v) (hc : c ∈ v) : c ∈ template ∨ ∃ a ∈ args, c ∈ a := by
  replace h := fill_eq_ok_iff.1 h
  induction h with
  | nil => simp at hc
  | @letter x xs u _ _ ih =>
    rcases List.mem_cons.1 hc with rfl | hc
    · exact .inl List.mem_cons_self
    · exact (ih hc).imp_left (List.mem_cons_of_mem x)
  | @argument x xs u arg i _ ha _ ih =>
    rcases List.mem_append.1 hc with hc | hc
    · exact .inr ⟨arg, List.mem_of_getElem? ha, hc⟩
    · exact (ih hc).imp_left (List.mem_cons_of_mem x)

namespace Term

theorem mem_of_mem_interior {t : Term} {c : Char} (h : c ∈ t.interior) : c ∈ t.text := by
  unfold interior at h
  split at h
  · exact List.mem_of_mem_tail (List.dropLast_subset _ h)
  · exact List.mem_of_mem_tail h

theorem mem_join {ts : List Term} {c : Char} : c ∈ join ts ↔ ∃ t ∈ ts, c ∈ t.text := by
  simp [join]

end Term

theorem advance_congr {P : Text → Prop} {step step' : Text → Except Fault Step}
    (hstep : ∀ {b}, P b → step' b = step b) (hkeep : ∀ {b s}, P b → step b = .ok s → P s.after)
    {b : Text} (hb : P b) (n : Nat) : advance step' n b = advance step n b := by
  induction n generalizing b with
  | zero => rfl
  | succ n ih =>
    unfold advance
    rw [hstep hb]
    cases hs : step b with
    | error f => rfl
    | ok s =>
      dsimp only
      rw [ih (hkeep hb hs)]

namespace Basis

variable {R : Basis} {N : List Combinator} {B : Bounds} {e b rest : Text} {t : Term}

/-! ## The characters of a reduction -/

/-- The characters that a reduction of `e` may come to hold: its own and those of the templates. -/
def Spells (R : Basis) (e : Text) (c : Char) : Prop := c ∈ e ∨ ∃ d ∈ R.combinators, c ∈ d.template

/-- A text of such characters. -/
def Spelled (R : Basis) (e b : Text) : Prop := ∀ c ∈ b, R.Spells e c

theorem spelled_self (R : Basis) (e : Text) : R.Spelled e e := fun _ hc => .inl hc

theorem Spelled.mono {u : Text} (h : R.Spelled e b) (hu : ∀ c ∈ u, c ∈ b) : R.Spelled e u :=
  fun c hc => h c (hu c hc)

theorem Spelled.append {u : Text} (h : R.Spelled e b) (hu : R.Spelled e u) : R.Spelled e (b ++ u) :=
  fun c hc => (List.mem_append.1 hc).elim (h c) (hu c)

theorem Cut.spelled (hcut : R.Cut b t rest) (h : R.Spelled e b) :
    R.Spelled e t.text ∧ R.Spelled e rest := by
  rw [← hcut.append_eq] at h
  exact ⟨h.mono fun _ hc => List.mem_append_left rest hc,
    h.mono fun _ hc => List.mem_append_right t.text hc⟩

theorem Spelled.interior (h : R.Spelled e t.text) : R.Spelled e t.interior :=
  h.mono fun _ hc => t.mem_of_mem_interior hc

theorem spelled_template {d : Combinator} (hd : d ∈ R.combinators) (e : Text) :
    R.Spelled e d.template := fun _ hc => .inr ⟨d, hd, hc⟩

theorem spelled_of_substitute {d : Combinator} {args : List Text} {v : Text}
    (hd : d ∈ R.combinators) (hargs : ∀ a ∈ args, R.Spelled e a)
    (hv : substitute d.template args = .ok v) : R.Spelled e v := by
  intro c hc
  rcases mem_of_mem_fill (substitute_eq_ok_iff.1 hv) hc with hc | ⟨a, ha, hc⟩
  · exact .inr ⟨d, hd, hc⟩
  · exact hargs a ha c hc

/-- **A step keeps to the characters of the buffer and of the templates.** -/
theorem Spelled.stepAt {depth : Nat} {s : Step} (hb : R.Spelled e b)
    (h : R.stepAt B depth b = .ok s) : R.Spelled e s.after := by
  induction depth using Nat.strong_induction_on generalizing b s with
  | _ depth ih =>
    cases stepAt_eq_ok_iff.1 h with
    | empty | stuck | irreducible | hollow => exact hb
    | constant hcut hd h0 =>
      exact (spelled_template (mem_of_lookup? hd) e).append (hcut.spelled hb).2
    | @rule t rest v d args others hcut hd h0 hsplit hargs hv =>
      -- The arguments and what is left behind them are pieces of the rest.
      have hpiece : ∀ a ∈ args ++ others, R.Spelled e a.text := by
        intro a ha
        refine (hcut.spelled hb).2.mono fun c hc => ?_
        rw [← R.join_splitTerms rest, hsplit]
        exact Term.mem_join.2 ⟨a, ha, hc⟩
      refine Spelled.append (spelled_of_substitute (mem_of_lookup? hd) ?_ hv) ?_
      · intro x hx
        obtain ⟨a, ha, rfl⟩ := List.mem_map.1 hx
        exact hpiece a (List.mem_append_left others ha)
      · intro c hc
        obtain ⟨a, ha, hc⟩ := Term.mem_join.1 hc
        exact hpiece a (List.mem_append_right args ha) c hc
    | opened hcut hd hk hv hne =>
      obtain ⟨ht, hrest⟩ := hcut.spelled hb
      exact (settleAt_invariant ih ht.interior hv).append hrest

/-! ## Idle combinators -/

/-- Why a combinator at the end of the basis has no part in a reduction of `e`. -/
inductive Idle (R : Basis) (e : Text) (d : Combinator) : Prop
  /-- An earlier combinator has its name. -/
  | repeated (h : d.name ∈ R.names)
  /-- Its name begins with an earlier one, and neither as a compound nor as a variable does. -/
  | shadowed {c : Char} {cs p : Text} (hd : d.name = c :: cs) (ho : c ≠ '(')
      (hc : isVariableStart c = false) (hp : p ∈ R.names) (hpd : p <+: d.name)
  /-- Its name begins with a character that no reduction of `e` comes to hold. -/
  | foreign {c : Char} {cs : Text} (hd : d.name = c :: cs) (hc : ¬ R.Spells e c)

theorem exists_of_mem_names {p : Text} (h : p ∈ R.names) : ∃ d ∈ R.combinators, d.name = p :=
  List.mem_map.1 h

theorem not_heads_of_findPrefix?_eq_none (h : R.findPrefix? b = none) {p : Text}
    (hp : p ∈ R.names) : ¬ p <+: b := by
  obtain ⟨d, hd, rfl⟩ := exists_of_mem_names hp
  exact fun hb => List.find?_eq_none.1 h d hd (decide_eq_true hb)

theorem Idle.not_heads {d : Combinator} (hd : R.Idle e d) (hb : R.Spelled e b)
    (h : R.findPrefix? b = none) : ¬ d.Heads b := by
  intro (hdb : d.name <+: b)
  cases hd with
  | repeated hname => exact not_heads_of_findPrefix?_eq_none h hname hdb
  | shadowed _ _ _ hp hpd => exact not_heads_of_findPrefix?_eq_none h hp (hpd.trans hdb)
  | foreign hname hc =>
    rw [hname] at hdb
    exact hc (hb _ (hdb.subset List.mem_cons_self))

/-- **An idle combinator is found at no head.** -/
theorem findPrefix?_extend_of_idle (hN : ∀ d ∈ N, R.Idle e d) (hb : R.Spelled e b) :
    (R.extend N).findPrefix? b = R.findPrefix? b := by
  rw [findPrefix?_extend]
  cases h : R.findPrefix? b with
  | some d => rfl
  | none =>
    rw [Option.none_or]
    exact List.find?_eq_none.2 fun d hd hx => (hN d hd).not_heads hb h (of_decide_eq_true hx)

theorem Cut.extend (hcut : R.Cut b t rest) (hN : ∀ d ∈ N, R.Idle e d) (hb : R.Spelled e b) :
    (R.extend N).Cut b t rest := by
  cases hcut with
  | compound hcs => exact .compound hcs
  | var hcs hc => exact .var hcs hc
  | name hcs ho hc hd hr =>
    exact .name hcs ho hc ((findPrefix?_extend_of_idle hN hb).trans hd) hr
  | symbol hcs ho hc hd => exact .symbol hcs ho hc ((findPrefix?_extend_of_idle hN hb).trans hd)

theorem splitTerms_extend (hN : ∀ d ∈ N, R.Idle e d) (hb : R.Spelled e b) :
    (R.extend N).splitTerms b = R.splitTerms b := by
  induction b using R.cut_induction with
  | nil => rw [splitTerms_nil, splitTerms_nil]
  | cut hcut ih =>
    rw [(hcut.extend hN hb).splitTerms_eq, hcut.splitTerms_eq, ih (hcut.spelled hb).2]

theorem Idle.name_ne {d : Combinator} (hd : R.Idle e d) (hcut : R.Cut b t rest)
    (hb : R.Spelled e b) (h : R.lookup? t.text = none) : d.name ≠ t.text := by
  intro heq
  have hnone : ∀ x ∈ R.combinators, x.name ≠ t.text := fun x hx hxt =>
    List.find?_eq_none.1 h x hx (decide_eq_true hxt)
  cases hd with
  | repeated hname =>
    obtain ⟨x, hx, hxd⟩ := exists_of_mem_names hname
    exact hnone x hx (hxd.trans heq)
  | @shadowed c cs p hname ho hc hp hpd =>
    rw [heq] at hname hpd
    cases hcut with
    | compound hcs => exact ho (List.cons.inj hname).1.symm
    | var hcs hc' =>
      obtain rfl := (List.cons.inj hname).1
      rw [hc] at hc'
      exact Bool.false_ne_true hc'
    | name hcs _ _ hd hr => exact hnone _ (mem_of_findPrefix? hd) rfl
    | symbol hcs _ _ hd =>
      subst hcs
      exact not_heads_of_findPrefix?_eq_none hd hp (hpd.trans ⟨_, rfl⟩)
  | foreign hname hc =>
    rw [heq] at hname
    refine hc ((hcut.spelled hb).1 _ ?_)
    rw [hname]
    exact List.mem_cons_self

/-- **No head is looked up for an idle combinator.** -/
theorem Cut.lookup?_extend (hcut : R.Cut b t rest) (hN : ∀ d ∈ N, R.Idle e d)
    (hb : R.Spelled e b) : (R.extend N).lookup? t.text = R.lookup? t.text := by
  have happend : (R.extend N).lookup? t.text =
      (R.lookup? t.text).or (N.find? fun d => d.name = t.text) := by
    simp [lookup?, List.find?_append]
  rw [happend]
  cases h : R.lookup? t.text with
  | some d => rfl
  | none =>
    rw [Option.none_or]
    exact List.find?_eq_none.2 fun d hd hx => (hN d hd).name_ne hcut hb h (of_decide_eq_true hx)

/-! ## Steps and reductions -/

theorem plan_extend (hN : ∀ d ∈ N, R.Idle e d) (hb : R.Spelled e b) :
    (R.extend N).plan b = R.plan b := by
  by_cases hne : b = []
  · subst hne
    rw [plan_nil, plan_nil]
  obtain ⟨t, rest, hcut⟩ := R.exists_cut hne
  have hcut' := hcut.extend hN hb
  have hlookup := hcut.lookup?_extend hN hb
  cases hd : R.lookup? t.text with
  | some d =>
    rw [hcut'.plan_of_lookup? (hlookup.trans hd), hcut.plan_of_lookup? hd, hcut'.apply_eq,
      hcut.apply_eq, splitTerms_extend hN (hcut.spelled hb).2]
  | none =>
    by_cases hk : t.kind = .compound
    · rw [hcut'.plan_of_compound (hlookup.trans hd) hk, hcut.plan_of_compound hd hk]
    · rw [hcut'.plan_of_irreducible (hlookup.trans hd) hk, hcut.plan_of_irreducible hd hk]

/-- **A step does not see idle combinators**, at whatever nesting. -/
theorem stepAt_extend (hN : ∀ d ∈ N, R.Idle e d) (depth : Nat) (hb : R.Spelled e b) :
    (R.extend N).stepAt B depth b = R.stepAt B depth b := by
  induction depth using Nat.strong_induction_on generalizing b with
  | _ depth ih =>
    have hplan := plan_extend hN hb
    cases hp : R.plan b with
    | finished outcome => rw [stepAt_of_finished (hplan.trans hp), stepAt_of_finished hp]
    | enter head rest =>
      rw [stepAt_of_enter (hplan.trans hp), stepAt_of_enter hp]
      cases depth with
      | zero => rfl
      | succ d =>
        have hinside : R.Spelled e head.interior :=
          ((cut_of_plan_enter hp).1.spelled hb).1.interior
        have hloop := advance_congr (P := R.Spelled e) (ih d (Nat.lt_succ_self d)) Spelled.stepAt
          hinside B.fuel
        show (settle B ((R.extend N).stepAt B d) head.interior).map _ = _
        unfold settle
        rw [hloop]
        rfl

end Basis

namespace Reduction

variable {R : Basis} {N : List Combinator} {e : Text} {r q : Reduction}

/-- The first `n` steps of a reduction, whether or not they progress: the outcome of each of them, with
the reduction that it leaves. -/
def course (R : Basis) : Nat → Reduction → List (Reduction × Except Fault Step)
  | 0, _ => []
  | n + 1, r => r.step R :: course R n (r.step R).1

theorem step_extend_of_idle (hN : ∀ d ∈ N, R.Idle e d) (hr : R.Spelled e r.buffer) :
    r.step (R.extend N) = r.step R := by
  have h : (R.extend N).step r.bounds r.buffer = R.step r.bounds r.buffer :=
    Basis.stepAt_extend hN r.bounds.depth hr
  unfold step
  rw [h]

theorem spelled_step (hr : R.Spelled e r.buffer) : R.Spelled e (r.step R).1.buffer := by
  unfold step
  cases h : R.step r.bounds r.buffer with
  | error f => exact hr
  | ok s => exact Basis.Spelled.stepAt hr h

theorem Active.spelled (h : r.Active R q) (hr : R.Spelled e r.buffer) : R.Spelled e q.buffer := by
  induction h with
  | self => exact hr
  | step _ ih => exact spelled_step ih
  | child _ hp _ ih => exact ((Basis.cut_of_plan_enter hp).1.spelled ih).1.interior

theorem course_extend (hN : ∀ d ∈ N, R.Idle e d) (n : Nat) (hr : R.Spelled e r.buffer) :
    course (R.extend N) n r = course R n r := by
  induction n generalizing r with
  | zero => rfl
  | succ n ih =>
    unfold course
    rw [step_extend_of_idle hN hr, ih (spelled_step hr)]

theorem walk_extend (hN : ∀ d ∈ N, R.Idle e d) (n : Nat) (done : List Step)
    (hr : R.Spelled e r.buffer) : r.walk (R.extend N) n done = r.walk R n done := by
  induction n generalizing r done with
  | zero => rfl
  | succ n ih =>
    unfold walk
    rw [step_extend_of_idle hN hr]
    have hkeep := spelled_step hr
    rcases h : r.step R with ⟨q, f | s⟩
    · rfl
    · rw [h] at hkeep
      dsimp only
      rw [ih _ hkeep]

theorem active_extend_iff (hN : ∀ d ∈ N, R.Idle e d) (hr : R.Spelled e r.buffer) :
    r.Active (R.extend N) q ↔ r.Active R q := by
  constructor
  · intro h
    induction h with
    | self => exact .self
    | step _ ih =>
      rw [step_extend_of_idle hN (ih.spelled hr)]
      exact ih.step
    | child _ hp hd ih => exact ih.child ((Basis.plan_extend hN (ih.spelled hr)).symm.trans hp) hd
  · intro h
    induction h with
    | self => exact .self
    | step h ih =>
      rw [← step_extend_of_idle hN (h.spelled hr)]
      exact ih.step
    | child h hp hd ih => exact ih.child ((Basis.plan_extend hN (h.spelled hr)).trans hp) hd

/-- **Appending is conservative.** Let every combinator of `N` be idle for the buffer of a reduction:
its name is an earlier one, or begins with an earlier one and neither as a compound nor as a variable
does, or begins with a character that is neither in the buffer nor in a template of the basis. Then
with `N` at the end of the basis the reduction makes the same steps, in whatever number, with the same
outcomes, buffers and faults; a run ends alike with the same trace; and the same reductions are at work
inside brackets and make the same steps. -/
theorem extend_conservative (hN : ∀ d ∈ N, R.Idle r.buffer d) :
    (∀ n, course (R.extend N) n r = course R n r) ∧
    (∀ n, r.run (R.extend N) n = r.run R n) ∧
    ∀ q, (r.Active (R.extend N) q ↔ r.Active R q) ∧
      (r.Active R q → q.step (R.extend N) = q.step R) := by
  have hr := R.spelled_self r.buffer
  refine ⟨fun n => course_extend hN n hr, fun n => ?_, fun q => ?_⟩
  · unfold run
    rw [walk_extend hN _ _ hr]
  · exact ⟨active_extend_iff hN hr, fun hq => step_extend_of_idle hN (hq.spelled hr)⟩

/-- The second `K` comes after the first, `SK` begins with `S`, and there is no `M` to be reduced. -/
theorem extend_conservative_standard :
    (∀ d ∈ [⟨['K'], 1, ['0'], by decide⟩, ⟨['S', 'K'], 0, [], by decide⟩,
        ⟨['M'], 1, ['0', '0'], by decide⟩],
      Basis.standard.Idle "(SKKa)b".toList d) ∧
    ({ buffer := "(SKKa)b".toList, bounds := {} } : Reduction).run
        (Basis.standard.extend [⟨['K'], 1, ['0'], by decide⟩, ⟨['S', 'K'], 0, [], by decide⟩,
          ⟨['M'], 1, ['0', '0'], by decide⟩]) 9 =
      ({ buffer := "(SKKa)b".toList, bounds := {} } : Reduction).run .standard 9 := by
  have hN : ∀ d ∈ [⟨['K'], 1, ['0'], by decide⟩, ⟨['S', 'K'], 0, [], by decide⟩,
      ⟨['M'], 1, ['0', '0'], by decide⟩], Basis.standard.Idle "(SKKa)b".toList d := by
    intro d hd
    simp only [List.mem_cons, List.not_mem_nil, or_false] at hd
    rcases hd with rfl | rfl | rfl
    · exact .repeated (by decide)
    · exact .shadowed rfl (by decide) (by decide) (p := ['S']) (by decide) (by decide)
    · exact .foreign rfl (by unfold Basis.Spells; decide)
  have h := extend_conservative (R := .standard)
    (r := { buffer := "(SKKa)b".toList, bounds := {} }) hN
  exact ⟨hN, h.2.1 9⟩

end Reduction

end Combinatory
