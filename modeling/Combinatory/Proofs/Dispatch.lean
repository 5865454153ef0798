import Combinatory.Proofs.Active

/-!
# Dispatch of heads

A step searches the basis twice. To cut the head off the buffer it looks for the first combinator
whose name stands there; to reduce the head it looks for the first combinator whose name is the text
of the head. Names may begin one another and may be repeated, so that "the first" counts.

1. A combinator that is passed over at the head has another name than the one that is found there, so
   the search for this name passes it over as well, and both searches end at the same place of the
   basis (`Basis.namePlace?_eq_headPlace?`).
2. So they do for every head that is cut off as a name, and where a head is cut off as a symbol,
   neither finds anything (`Basis.Cut.namePlace?_eq`, `Basis.Cut.lookup?_eq`).
3. A step therefore applies the combinator by which its head was recognised, or none
   (`Basis.recognised_of_stepAt`), and so do all steps of a run (`Reduction.Makes.recognised`).

`Basis.dispatch_agrees` puts these together.
-/

namespace Combinatory

namespace Basis

variable {R : Basis} {b u rest : Text} {t : Term} {d : Combinator}

/-! ## Places -/

/-- The place of the first combinator whose name stands at the head of the buffer. -/
def headPlace? (R : Basis) (buffer : Text) : Option Nat :=
  R.combinators.findIdx? fun d => d.Heads buffer

/-- The place of the first combinator with the given name. -/
def namePlace? (R : Basis) (name : Text) : Option Nat :=
  R.combinators.findIdx? fun d => d.name = name

theorem findPrefix?_eq_getElem? (R : Basis) (b : Text) :
    R.findPrefix? b = (R.headPlace? b).bind fun i => R.combinators[i]? :=
  List.find?_eq_bind_findIdx?_getElem?

theorem lookup?_eq_getElem? (R : Basis) (u : Text) :
    R.lookup? u = (R.namePlace? u).bind fun i => R.combinators[i]? :=
  List.find?_eq_bind_findIdx?_getElem?

/-- **Both searches end at the same place**, when no other name than `u` is found at the head. -/
theorem namePlace?_eq_headPlace? (hu : u <+: b)
    (h : ∀ d, R.findPrefix? b = some d → d.name = u) : R.namePlace? u = R.headPlace? b := by
  refine findIdx?_eq_of_imp (fun x hx => decide_eq_true ?_) fun x hx => decide_eq_true (h x hx)
  unfold Combinator.Heads
  rwa [show x.name = u from of_decide_eq_true hx]

theorem namePlace?_of_findPrefix? (h : R.findPrefix? b = some d) :
    R.namePlace? d.name = R.headPlace? b := by
  refine namePlace?_eq_headPlace? (isPrefix_of_findPrefix? h) fun x hx => ?_
  rw [Option.some.inj (hx.symm.trans h)]

theorem lookup?_of_findPrefix? (h : R.findPrefix? b = some d) : R.lookup? d.name = some d := by
  rw [lookup?_eq_getElem?, namePlace?_of_findPrefix? h, ← findPrefix?_eq_getElem?, h]

theorem exists_place_of_findPrefix? (h : R.findPrefix? b = some d) :
    ∃ i, R.headPlace? b = some i ∧ R.combinators[i]? = some d := by
  rw [findPrefix?_eq_getElem?] at h
  exact Option.bind_eq_some_iff.1 h

/-! ## Heads that are recognised -/

theorem Cut.findPrefix?_of_name (h : R.Cut b t rest) (hk : t.kind = .name) :
    ∃ d, R.findPrefix? b = some d ∧ d.name = t.text := by
  cases h with
  | compound | var | symbol => simp at hk
  | name hb ho hc hd hr => exact ⟨_, hd, rfl⟩

theorem Cut.findPrefix?_of_symbol (h : R.Cut b t rest) (hk : t.kind = .symbol) :
    R.findPrefix? b = none := by
  cases h with
  | compound | var | name => simp at hk
  | symbol hb ho hc hd => exact hd

theorem Cut.namePlace?_eq (h : R.Cut b t rest) (hk : t.kind = .name ∨ t.kind = .symbol) :
    R.namePlace? t.text = R.headPlace? b := by
  refine namePlace?_eq_headPlace? ⟨rest, h.append_eq⟩ fun d hd => ?_
  rcases hk with hk | hk
  · obtain ⟨d', hd', hname⟩ := h.findPrefix?_of_name hk
    rwa [Option.some.inj (hd.symm.trans hd')]
  · rw [h.findPrefix?_of_symbol hk] at hd
    simp at hd

/-- **A name or a symbol is looked up for the combinator that is found at the head.** -/
theorem Cut.lookup?_eq (h : R.Cut b t rest) (hk : t.kind = .name ∨ t.kind = .symbol) :
    R.lookup? t.text = R.findPrefix? b := by
  rw [lookup?_eq_getElem?, h.namePlace?_eq hk, ← findPrefix?_eq_getElem?]

/-- A compound may be looked up elsewhere: its bracket is found at the head, and its text is another
name. -/
example :
    let R : Basis := ⟨[⟨['('], 0, [], by decide⟩, ⟨"(a)".toList, 1, ['0'], by decide⟩]⟩
    R.takeTerm? "(a)b".toList = some (⟨"(a)".toList, .compound⟩, ['b']) ∧
      R.headPlace? "(a)b".toList = some 0 ∧ R.namePlace? "(a)".toList = some 1 := by
  decide

/-! ## Steps -/

theorem Cut.stepAt_of_name (h : R.Cut b t rest) (hk : t.kind = .name)
    (hd : R.findPrefix? b = some d) (B : Bounds) (depth : Nat) :
    R.stepAt B depth b = R.apply d t b rest :=
  stepAt_of_finished (h.plan_of_lookup? ((h.lookup?_eq (.inl hk)).trans hd)) B depth

theorem Cut.stepAt_of_symbol (h : R.Cut b t rest) (hk : t.kind = .symbol) (B : Bounds)
    (depth : Nat) : R.stepAt B depth b = .ok (.stay .irreducible (some t) none b) := by
  have hnone := (h.lookup?_eq (.inr hk)).trans (h.findPrefix?_of_symbol hk)
  exact stepAt_of_finished (h.plan_of_irreducible hnone (by simp [hk])) B depth

end Basis

/-- A step whose head is a name has the combinator that is found at the head of the buffer, with this
name; one whose head is a symbol has none, and none is found. -/
structure Step.Recognised (R : Basis) (s : Step) : Prop where
  name : ∀ t ∈ s.term, t.kind = .name →
    ∃ d, R.findPrefix? s.before = some d ∧ d.name = t.text ∧ s.combinator = some d
  symbol : ∀ t ∈ s.term, t.kind = .symbol → R.findPrefix? s.before = none ∧ s.combinator = none

namespace Basis

variable {R : Basis} {B : Bounds} {depth : Nat} {b rest : Text} {t : Term} {s : Step}

theorem Cut.recognised (h : R.Cut b t rest) (ht : s.term = some t) (hb : s.before = b)
    (hd : s.combinator = R.lookup? t.text) : s.Recognised R := by
  refine ⟨fun t' ht' hk => ?_, fun t' ht' hk => ?_⟩
  all_goals
    obtain rfl : t = t' := Option.some.inj (ht.symm.trans ht')
    rw [hb, hd]
  · obtain ⟨d, hfound, hname⟩ := h.findPrefix?_of_name hk
    exact ⟨d, hfound, hname, (h.lookup?_eq (.inl hk)).trans hfound⟩
  · have hnone := h.findPrefix?_of_symbol hk
    exact ⟨hnone, (h.lookup?_eq (.inr hk)).trans hnone⟩

/-- **A step has the combinator by which its head was recognised.** -/
theorem recognised_of_stepAt (h : R.stepAt B depth b = .ok s) : s.Recognised R := by
  cases stepAt_eq_ok_iff.1 h with
  | empty => exact ⟨fun _ ht => by simp [Step.stay] at ht, fun _ ht => by simp [Step.stay] at ht⟩
  | constant hcut hd | rule hcut hd | stuck hcut hd => exact hcut.recognised rfl rfl hd.symm
  | irreducible hcut hd | hollow hcut hd | opened hcut hd => exact hcut.recognised rfl rfl hd.symm

end Basis

namespace Reduction

variable {R : Basis} {r q last : Reduction} {s : Step} {steps : List Step} {n : Int} {tr : Trace}

theorem recognised_of_step (h : (r.step R).2 = .ok s) : s.Recognised R := by
  rw [step_snd] at h
  exact Basis.recognised_of_stepAt h

theorem Makes.recognised (h : r.Makes R steps q) : ∀ s ∈ steps, s.Recognised R := by
  induction h with
  | nil r => exact List.forall_mem_nil _
  | cons hs _ _ ih => exact List.forall_mem_cons.2 ⟨recognised_of_step (congrArg Prod.snd hs), ih⟩

theorem recognised_of_run (h : r.run R n = (last, .ok tr)) : ∀ s ∈ tr.steps, s.Recognised R := by
  cases hr : r.canStep with
  | true =>
    obtain ⟨q, hmakes, -⟩ := cases_of_run hr h
    exact hmakes.recognised
  | false =>
    -- A run that was stopped before records nothing.
    rw [run_of_not_canStep hr] at h
    obtain rfl := Except.ok.inj (Prod.mk.inj h).2
    exact List.forall_mem_nil _

end Reduction

namespace Basis

/-- **The search at the head and the search by name agree.** Whatever the names of the basis are and in
whatever order, a combinator that is found at the head of a buffer is found again when its name is
looked up: not another one with this name, but the one at the same place. So on every buffer, a head
that is cut off as a name is looked up to the place where it was recognised, and a step, whether it
progresses, is stuck or fails, is the application of the combinator there; where a head is cut off as
a symbol, nothing is found either way, and no combinator is applied. The steps that a run records keep
to this, and so do all that it tells of, at whatever nesting. -/
theorem dispatch_agrees (R : Basis) :
    (∀ b d, R.findPrefix? b = some d →
      R.lookup? d.name = some d ∧
        ∃ i, R.headPlace? b = some i ∧ R.namePlace? d.name = some i ∧
          R.combinators[i]? = some d) ∧
    (∀ (r : Reduction) (t : Term) (rest : Text), R.takeTerm? r.buffer = some (t, rest) →
      (t.kind = .name →
        ∃ d, R.findPrefix? r.buffer = some d ∧ R.lookup? t.text = some d ∧
          R.namePlace? t.text = R.headPlace? r.buffer ∧
          (r.step R).2 = R.apply d t r.buffer rest) ∧
      (t.kind = .symbol →
        R.findPrefix? r.buffer = none ∧ R.lookup? t.text = none ∧
          (r.step R).2 = .ok (.stay .irreducible (some t) none r.buffer))) ∧
    ∀ r : Reduction,
      (∀ n last tr, r.run R n = (last, .ok tr) → ∀ s ∈ tr.steps, s.Recognised R) ∧
      ∀ n s, .stepped s ∈ R.narrateRun r.bounds n r.buffer → s.Recognised R := by
  refine ⟨fun b d h => ?_, fun r t rest h => ?_, fun r => ⟨fun n last tr => ?_, fun n s hs => ?_⟩⟩
  · obtain ⟨i, hi, hd⟩ := exists_place_of_findPrefix? h
    exact ⟨lookup?_of_findPrefix? h, i, hi, (namePlace?_of_findPrefix? h).trans hi, hd⟩
  · have hcut := cut_iff.1 h
    rw [Reduction.step_snd]
    refine ⟨fun hk => ?_, fun hk => ?_⟩
    · obtain ⟨d, hd, -⟩ := hcut.findPrefix?_of_name hk
      exact ⟨d, hd, (hcut.lookup?_eq (.inl hk)).trans hd, hcut.namePlace?_eq (.inl hk),
        hcut.stepAt_of_name hk hd _ _⟩
    · have hnone := hcut.findPrefix?_of_symbol hk
      exact ⟨hnone, (hcut.lookup?_eq (.inr hk)).trans hnone, hcut.stepAt_of_symbol hk _ _⟩
  · exact Reduction.recognised_of_run
  · obtain ⟨q, -, hq⟩ := Reduction.exists_active_of_told hs
    exact Reduction.recognised_of_step hq

/-- A name that comes three times, between names that begin with it. -/
def crowded : Basis :=
  ⟨[⟨"PQ".toList, 1, ['0'], by decide⟩, ⟨['P'], 2, "10".toList, by decide⟩,
    ⟨['P'], 0, ['x'], by decide⟩, ⟨['P'], 2, "10".toList, by decide⟩,
    ⟨"PQR".toList, 0, [], by decide⟩]⟩

/-- The first `P` is found and looked up, also inside brackets; `R` alone is no name. -/
theorem dispatch_agrees_crowded :
    (crowded.lookup? ['P'] = some ⟨['P'], 2, "10".toList, by decide⟩ ∧
      ∃ i, crowded.headPlace? "PRab".toList = some i ∧ crowded.namePlace? ['P'] = some i ∧
        crowded.combinators[i]? = some ⟨['P'], 2, "10".toList, by decide⟩) ∧
    (({ buffer := "Rab".toList, bounds := {} } : Reduction).step crowded).2 =
      .ok (.stay .irreducible (some ⟨['R'], .symbol⟩) none "Rab".toList) ∧
    (⟨.rule, some ⟨['P'], .name⟩, "PPab".toList, "aPb".toList, true,
      some ⟨['P'], 2, "10".toList, by decide⟩⟩ : Step).Recognised crowded := by
  obtain ⟨hfound, hheads, hsteps⟩ := dispatch_agrees crowded
  have hsymbol := (hheads { buffer := "Rab".toList, bounds := {} } ⟨['R'], .symbol⟩ "ab".toList rfl).2
  have htold : Event.stepped ⟨.rule, some ⟨['P'], .name⟩, "PPab".toList, "aPb".toList, true,
      some ⟨['P'], 2, "10".toList, by decide⟩⟩ ∈ crowded.narrateRun {} 5 "(PPab)c".toList :=
    List.mem_of_getElem? (i := 0) rfl
  refine ⟨hfound "PRab".toList ⟨['P'], 2, "10".toList, by decide⟩ rfl, (hsymbol rfl).2.2, ?_⟩
  exact (hsteps { buffer := "(PPab)c".toList, bounds := {} }).2 5 _ htold

end Basis

end Combinatory
