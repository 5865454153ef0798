import Combinatory.Proofs.HeadReduction

/-!
# Coming to an end

Under bounds that are wide enough, a reduction settles whenever the expression that it starts from
has a normal form.

1. `Basis.Steps` and `Basis.Settles` are about all bounds that are wide enough, so that none need be
   named. A step can be made where the inside of the compound at the head settles
   (`Basis.exists_steps`).
2. A step that progresses goes on in the head reduction, or else the buffer gets shorter. Over
   expressions whose head reduction terminates, every legible buffer settles therefore
   (`Basis.exists_settles`, by induction on the head reduction and, inside of it, on the length).
3. Where there is a normal form, head reduction terminates (`Expr.headTerminates_of_normalizes`).

`Reduction.settled_of_normalizes` puts these together.
-/

namespace Combinatory

open Combinatory.Expr Relation

/-! ## Wide bounds -/

/-- Every compound may take `n` steps, and `n` compounds may be entered inside one another. -/
structure Wide (n : Nat) (B : Bounds) (depth : Nat) : Prop where
  fuel : n ≤ B.fuel
  depth : n ≤ depth

theorem Wide.mono {n m depth : Nat} {B : Bounds} (h : Wide m B depth) (hn : n ≤ m) :
    Wide n B depth :=
  ⟨hn.trans h.fuel, hn.trans h.depth⟩

theorem wide_limit (n : Nat) : Wide n { limit := some n } n :=
  ⟨Nat.le_of_eq (Int.toNat_natCast n).symm, le_refl n⟩

namespace Basis

variable {R : Basis} {b rest v : Text} {t : Term} {s : Step}

/-- Under bounds that are wide enough, `s` is the step on `b`. -/
def Steps (R : Basis) (b : Text) (s : Step) : Prop :=
  ∃ n, ∀ B depth, Wide n B depth → R.Reduces B depth b s

/-- Under bounds that are wide enough, steps lead from `b` to `v` and come to an end there. -/
def Settles (R : Basis) (b v : Text) : Prop :=
  ∃ n, ∀ B depth, Wide n B depth → ∀ m, n ≤ m → advance (R.stepAt B depth) m b = .ok (v, true)

theorem Steps.exists_reduces (h : R.Steps b s) : ∃ B depth, R.Reduces B depth b s := by
  obtain ⟨n, h⟩ := h
  exact ⟨_, _, h _ _ (wide_limit n)⟩

theorem Settles.of_stay (h : R.Steps b s) (hp : s.progressed = false) : R.Settles b b := by
  obtain ⟨n, h⟩ := h
  refine ⟨n + 1, fun B depth hw m hm => ?_⟩
  obtain ⟨m, rfl⟩ : ∃ k, m = k + 1 := ⟨m - 1, by omega⟩
  have hred := h B depth (hw.mono (by omega))
  rw [advance_of_stay hred.stepAt_eq hp, hred.after_eq hp]

theorem Settles.of_step (h : R.Steps b s) (hp : s.progressed = true) (hv : R.Settles s.after v) :
    R.Settles b v := by
  obtain ⟨n, h⟩ := h
  obtain ⟨k, hk⟩ := hv
  refine ⟨max n k + 1, fun B depth hw m hm => ?_⟩
  obtain ⟨m, rfl⟩ : ∃ k, m = k + 1 := ⟨m - 1, by omega⟩
  have hred := h B depth (hw.mono (by omega))
  rw [advance_of_progressed hred.stepAt_eq hp]
  exact hk B depth (hw.mono (by omega)) m (by omega)

theorem settles_nil (R : Basis) : R.Settles [] [] :=
  .of_stay (s := .stay .empty none none []) ⟨0, fun _ _ _ => .empty rfl⟩ rfl

theorem Settles.exists_settleAt (h : R.Settles b v) :
    ∃ n, ∀ B depth, Wide n B depth → R.settleAt B depth b = .ok v := by
  obtain ⟨n, h⟩ := h
  refine ⟨n + 1, fun B depth hw => ?_⟩
  obtain ⟨depth, rfl⟩ : ∃ d, depth = d + 1 := ⟨depth - 1, by have := hw.depth; omega⟩
  have hdepth := hw.depth
  have hfuel := hw.fuel
  exact settle_eq_ok_iff.2 (h B depth ⟨by omega, by omega⟩ B.fuel (by omega))

/-- **A step can be made where the compound at the head settles**, over templates that use no more
arguments than are collected. -/
theorem exists_steps (hR : ∀ d ∈ R.combinators, d.Usable)
    (hin : ∀ t rest, R.Cut b t rest → t.kind = .compound → ∃ v, R.Settles t.interior v) :
    ∃ s, R.Steps b s := by
  by_cases hb : b = []
  · exact ⟨_, 0, fun _ _ _ => .empty hb⟩
  obtain ⟨t, rest, hcut⟩ := R.exists_cut hb
  cases hd : R.lookup? t.text with
  | some d =>
    by_cases h0 : d.arity = 0
    · exact ⟨_, 0, fun _ _ _ => .constant hcut hd h0⟩
    by_cases hle : d.arity ≤ (R.splitTerms rest).length
    · have hlen := List.length_take_of_le hle
      obtain ⟨v, hv⟩ := (hR d (mem_of_lookup? hd)).exists_substitute h0
        ((List.length_map Term.text).trans hlen)
      exact ⟨_, 0, fun _ _ _ => .rule hcut hd h0 (List.take_append_drop _ _).symm hlen hv⟩
    · exact ⟨_, 0, fun _ _ _ => .stuck hcut hd (by omega)⟩
  | none =>
    by_cases hk : t.kind = .compound
    · obtain ⟨v, hv⟩ := hin t rest hcut hk
      obtain ⟨n, hn⟩ := hv.exists_settleAt
      by_cases hne : v = []
      · subst hne
        exact ⟨_, n, fun B depth hw => .hollow hcut hd hk (hn B depth hw)⟩
      · exact ⟨_, n, fun B depth hw => .opened hcut hd hk (hn B depth hw) hne⟩
    · exact ⟨_, 0, fun _ _ _ => .irreducible hcut hd hk⟩

/-! ## Standard combinators -/

theorem usable_standard : ∀ d ∈ standard.combinators, d.Usable := by decide

/-- **What has a terminating head reduction settles.** The expression of the buffer may have further
arguments, as the inside of a compound has in the buffer that it stands in. -/
theorem exists_settles {x : Expr} (hx : HeadTerminates x) :
    ∀ (b : Text) (xs : List Expr), b ≠ [] → Legible b → (standard.expr b).apply xs = x →
      ∃ v, standard.Settles b v := by
  replace hx := hx.transGen
  induction hx with
  | intro x _ ih =>
    intro b
    induction hn : b.length using Nat.strong_induction_on generalizing b with
    | _ n ihn =>
      rintro xs hne hb rfl
      have hstep : ∃ s, standard.Steps b s := by
        refine exists_steps usable_standard fun t rest hcut hk => ?_
        by_cases hi : t.interior = []
        · rw [hi]
          exact ⟨[], settles_nil standard⟩
        · have hmem : t ∈ standard.splitTerms b := by
            rw [hcut.splitTerms_eq]
            exact List.mem_cons_self
          refine ihn _ (hn ▸ length_interior_lt hmem) t.interior rfl
            (standard.operands rest ++ xs) hi (hcut.legible_interior hb hk) ?_
          rw [apply_append, hcut.expr_eq, meaning_of_compound hk hi]
      obtain ⟨s, hs⟩ := hstep
      obtain ⟨B, depth, hred⟩ := hs.exists_reduces
      cases hp : s.progressed with
      | false => exact ⟨b, .of_stay hs hp⟩
      | true =>
        obtain ⟨hane, ha, hdesc⟩ := hred.descends hne hb hp
        have hafter : ∃ v, standard.Settles s.after v := by
          rcases hdesc with hlater | ⟨heq, hlt⟩
          · exact ih _ (transGen_apply hlater xs) s.after xs hane ha rfl
          · exact ihn _ (hn ▸ hlt) s.after rfl xs hane ha (by rw [heq])
        obtain ⟨v, hv⟩ := hafter
        exact ⟨v, .of_step hs hp hv⟩

end Basis

namespace Reduction

/-- **A reduction comes to an end whenever there is a normal form.** If the expression that a legible
buffer stands for can be brought to a normal form, by contractions in any order anywhere in it, then
there is a number such that every run settles without fault that is allowed as many steps, as many
inside every compound, and as many compounds inside one another. -/
theorem settled_of_normalizes {e : Text} (hne : e ≠ []) (he : Legible e)
    (h : Normalizes (Basis.standard.expr e)) :
    ∃ N : Nat, ∀ (n m : Int) (B : Bounds), N ≤ n → N ≤ m → B.limit = some n → N ≤ B.depth →
      ∃ last tr, ({ buffer := e, bounds := B } : Reduction).run .standard m = (last, .ok tr) ∧
        tr.settled = true := by
  obtain ⟨v, N, hN⟩ := Basis.exists_settles (headTerminates_of_normalizes h) e [] hne he rfl
  refine ⟨N, fun n m B hn hm hlimit hdepth => ?_⟩
  have hfuel : N ≤ B.fuel := by
    unfold Bounds.fuel
    rw [hlimit]
    dsimp only
    omega
  have hadvance := hN B B.depth ⟨hfuel, hdepth⟩ m.toNat (by omega)
  obtain ⟨last, tr, hrun, -, hsettled⟩ :=
    run_of_advance (r := { buffer := e, bounds := B }) rfl hadvance
  exact ⟨last, tr, hrun, hsettled⟩

/-- The argument that `K` discards has no normal form. -/
theorem settled_of_normalizes_discarding :
    ∃ N : Nat, ∀ (n m : Int) (B : Bounds), N ≤ n → N ≤ m → B.limit = some n → N ≤ B.depth →
      ∃ last tr, ({ buffer := "Ka(SII(SII))".toList, bounds := B } : Reduction).run .standard m =
        (last, .ok tr) ∧ tr.settled = true := by
  have hk : Basis.standard.Cut "Ka(SII(SII))".toList ⟨['K'], .name⟩ "a(SII(SII))".toList :=
    Basis.cut_iff.1 rfl
  have ha : Basis.standard.Cut "a(SII(SII))".toList ⟨['a'], .var⟩ "(SII(SII))".toList :=
    Basis.cut_iff.1 rfl
  have hc : Basis.standard.Cut "(SII(SII))".toList ⟨"(SII(SII))".toList, .compound⟩ [] :=
    Basis.cut_iff.1 rfl
  refine settled_of_normalizes (by decide) (by decide) ⟨atom ['a'], .single ?_, ?_⟩
  · rw [hk.expr_eq, ha.operands_eq, hc.operands_eq, Basis.meaning_of_ne_compound (by decide),
      Basis.meaning_of_ne_compound (by decide), Basis.operands_nil]
    exact .root (.k _ _)
  · rintro u ⟨h⟩
    cases h

end Reduction

end Combinatory
