import Combinatory.Proofs.Boundary
import Combinatory.Proofs.Expr
import Mathlib.Data.List.Chain

/-!
# Reading a buffer as an expression

A buffer stands for its terms, applied from left to right, and a compound for what stands inside
(`Basis.expr`). A balanced text in which every subscript is attached to what it belongs to is
legible, and so are the pieces that it is cut into (`Basis.Cut.legible`). Legible texts can be put
side by side and into brackets, and the reading follows (`Reads.append`, `Reads.bracketed`).
-/

namespace Combinatory

/-! ## Attached subscripts -/

/-- Whether a subscript may follow the character. -/
def carriesSubscript (c : Char) : Bool := isVariableStart c || isSubscript c

/-- Every digit and every underscore directly follows a lower-case letter, a digit or an
underscore. -/
def Attached (t : Text) : Prop :=
  ∀ u c w, t = u ++ c :: w → isSubscript c = true → ∃ p ∈ u.getLast?, carriesSubscript p = true

/-- The subscripts are attached when they are attached link by link, behind a bracket. -/
theorem attached_iff_isChain {t : Text} :
    Attached t ↔
      ('(' :: t).IsChain fun p c => isSubscript c = true → carriesSubscript p = true := by
  rw [List.isChain_iff_forall_rel_of_append_cons_cons]
  constructor
  · intro h p c u w ht hc
    cases u with
    | nil =>
      obtain ⟨q, hq, -⟩ := h [] c w (List.cons.inj ht).2 hc
      simp at hq
    | cons a u =>
      obtain ⟨q, hq, hcarry⟩ := h (u ++ [p]) c w (by simpa using (List.cons.inj ht).2) hc
      rw [List.getLast?_concat] at hq
      rwa [Option.some.inj hq]
  · intro h u c w ht hc
    rcases u.eq_nil_or_concat' with rfl | ⟨u, p, rfl⟩
    · have hjoint : '(' :: t = [] ++ '(' :: c :: w := congrArg ('(' :: ·) ht
      exact absurd (h hjoint hc) (by decide)
    · have hjoint : '(' :: t = ('(' :: u) ++ p :: c :: w := by
        rw [ht]
        simp
      exact ⟨p, List.getLast?_concat, h hjoint hc⟩

instance (t : Text) : Decidable (Attached t) := decidable_of_iff' _ attached_iff_isChain

theorem Attached.not_isSubscript_head {t : Text} (h : Attached t) :
    ∀ c ∈ t.head?, isSubscript c = false := by
  intro c hc
  cases t with
  | nil => simp at hc
  | cons d t =>
    obtain rfl := Option.some.inj hc
    rw [← Bool.not_eq_true]
    intro hs
    obtain ⟨p, hp, -⟩ := h [] d t rfl hs
    simp at hp

theorem Attached.append {u w : Text} (hu : Attached u) (hw : Attached w) : Attached (u ++ w) := by
  rw [attached_iff_isChain] at hu ⊢
  have hchain := attached_iff_isChain.1 hw
  rw [← List.cons_append]
  refine List.isChain_append.2 ⟨hu, hchain.tail, fun p _ c hc hs => ?_⟩
  rw [hw.not_isSubscript_head c hc] at hs
  simp at hs

theorem Attached.of_append_left {u w : Text} (h : Attached (u ++ w)) : Attached u := by
  rw [attached_iff_isChain, ← List.cons_append] at h
  exact attached_iff_isChain.2 h.left_of_append

theorem Attached.of_append_right {u w : Text} (h : Attached (u ++ w))
    (hw : ∀ c ∈ w.head?, isSubscript c = false) : Attached w := by
  rw [attached_iff_isChain, ← List.cons_append] at h
  refine attached_iff_isChain.2 (List.isChain_cons.2 ⟨fun c hc hs => ?_, h.right_of_append⟩)
  rw [hw c hc] at hs
  simp at hs

theorem Attached.of_append_of_last {u w : Text} (h : Attached (u ++ w))
    (hlast : ∀ p ∈ u.getLast?, carriesSubscript p = false) : Attached w := by
  refine h.of_append_right fun c hc => ?_
  obtain ⟨w, rfl⟩ : ∃ w', w = c :: w' := by
    cases w with
    | nil => simp at hc
    | cons d w => exact ⟨w, by rw [Option.some.inj hc]⟩
  rw [← Bool.not_eq_true]
  intro hs
  obtain ⟨p, hp, hcarry⟩ := h u c w rfl hs
  rw [hlast p hp] at hcarry
  simp at hcarry

theorem attached_bracketed {u : Text} (hu : Attached u) : Attached (bracketed u) := by
  have hopen : Attached ['('] := by decide
  have hclose : Attached [')'] := by decide
  exact (hopen.append hu).append hclose

/-! ## Legible texts -/

/-- A balanced text whose subscripts are attached. -/
structure Legible (t : Text) : Prop where
  balanced : Balanced t
  attached : Attached t

instance (t : Text) : Decidable (Legible t) :=
  decidable_of_iff (Balanced t ∧ Attached t) ⟨fun h => ⟨h.1, h.2⟩, fun h => ⟨h.1, h.2⟩⟩

theorem legible_nil : Legible [] := by decide

theorem Legible.append {u w : Text} (hu : Legible u) (hw : Legible w) : Legible (u ++ w) :=
  ⟨hu.balanced.append hw.balanced, hu.attached.append hw.attached⟩

theorem legible_bracketed {u : Text} (hu : Legible u) : Legible (bracketed u) :=
  ⟨balanced_bracketed hu.balanced, attached_bracketed hu.attached⟩

theorem Legible.of_bracketed {u : Text} (h : Legible (bracketed u)) (hu : Balanced u) :
    Legible u := by
  have hopen : Attached (['('] ++ u) := h.attached.of_append_left
  refine ⟨hu, hopen.of_append_of_last fun p hp => ?_⟩
  obtain rfl : '(' = p := Option.some.inj hp
  rfl

theorem legible_join {ts : List Term} (h : ∀ t ∈ ts, Legible t.text) : Legible (Term.join ts) := by
  induction ts with
  | nil => exact legible_nil
  | cons t ts ih =>
    rw [Term.join_cons]
    exact (h t List.mem_cons_self).append (ih fun u hu => h u (List.mem_cons_of_mem t hu))

/-! ## The standard names -/

namespace Basis

variable {R : Basis} {b u rest : Text} {t : Term}

theorem tail_name_standard : ∀ d ∈ standard.combinators, d.name.tail = [] := by decide

theorem any_name_standard :
    ∀ d ∈ standard.combinators, d.name.any carriesSubscript = false := by decide

/-- No name has more than one character, so none runs into anything. -/
theorem apart_standard (w : Text) : standard.Apart w := by
  intro c _ d hd
  rw [tail_name_standard d hd]
  exact List.not_mem_nil

theorem plainNames_standard : standard.PlainNames := by decide

theorem detached_of_attached {w : Text} (h : Attached w) : standard.Detached w :=
  fun c hc => ⟨h.not_isSubscript_head c hc, apart_standard w c hc⟩

/-- **A legible buffer is cut into legible pieces.** -/
theorem Cut.legible (h : standard.Cut b t rest) (hb : Legible b) :
    Legible t.text ∧ Legible rest := by
  obtain ⟨htext, hrest, hclosed⟩ := h.balanced wellBracketed_standard.names hb.balanced
  have hatt : Attached (t.text ++ rest) := by
    rw [h.append_eq]
    exact hb.attached
  refine ⟨⟨htext, hatt.of_append_left⟩, hrest, ?_⟩
  cases h with
  | compound hcs =>
    refine hatt.of_append_of_last fun p hp => ?_
    rw [(hclosed rfl).1, getLast?_bracketed] at hp
    rw [← Option.some.inj hp]
    decide
  | @var _ cs hcs hc =>
    refine hatt.of_append_right fun c hc => ?_
    have hhead := List.head?_dropWhile_not isSubscript cs
    rw [Option.mem_def.1 hc] at hhead
    exact hhead
  | name hcs ho hc hd hr =>
    refine hatt.of_append_of_last fun p hp => ?_
    have hname := List.any_eq_false.1 (any_name_standard _ (mem_of_findPrefix? hd))
    exact Bool.eq_false_of_not_eq_true (hname p (List.mem_of_getLast? hp))
  | @symbol c _ hcs ho hc hd =>
    have hsub := hb.attached.not_isSubscript_head c (by rw [hcs]; rfl)
    have hcarry : carriesSubscript c = false := by
      unfold carriesSubscript
      rw [hc, hsub, Bool.or_false]
    refine hatt.of_append_of_last fun p hp => ?_
    obtain rfl : c = p := Option.some.inj hp
    exact hcarry

theorem Cut.legible_interior (h : standard.Cut b t rest) (hb : Legible b)
    (hk : t.kind = .compound) : Legible t.interior := by
  obtain ⟨htext, hbal⟩ := (h.balanced wellBracketed_standard.names hb.balanced).2.2 hk
  have hlegible := (h.legible hb).1
  rw [htext] at hlegible
  exact hlegible.of_bracketed hbal

theorem legible_of_mem_splitTerms (hb : Legible b) : ∀ t ∈ standard.splitTerms b, Legible t.text := by
  induction b using standard.cut_induction with
  | nil => simp
  | cut h ih =>
    obtain ⟨htext, hrest⟩ := h.legible hb
    rw [h.splitTerms_eq]
    intro t' ht'
    rcases List.mem_cons.1 ht' with rfl | ht'
    · exact htext
    · exact ih hrest t' ht'

/-! ## The expression that a buffer stands for -/

/-- The expression that a buffer stands for: its terms, applied from left to right, where a compound
stands for what it holds and any other term, as well as `()`, for itself. -/
def expr (R : Basis) (b : Text) : Expr :=
  .applyAll ((R.splitTerms b).attach.map fun t =>
    if t.1.kind = .compound ∧ t.1.interior ≠ [] then R.expr t.1.interior else .atom t.1.text)
termination_by b.length
decreasing_by exact length_interior_lt t.2

def meaning (R : Basis) (t : Term) : Expr :=
  if t.kind = .compound ∧ t.interior ≠ [] then R.expr t.interior else .atom t.text

def operands (R : Basis) (b : Text) : List Expr := (R.splitTerms b).map R.meaning

theorem expr_eq (R : Basis) (b : Text) : R.expr b = .applyAll (R.operands b) := by
  rw [expr]
  exact congrArg Expr.applyAll (List.attach_map_val (f := R.meaning))

@[simp] theorem operands_nil (R : Basis) : R.operands [] = [] := by
  rw [operands, splitTerms_nil, List.map_nil]

theorem meaning_of_ne_compound (h : t.kind ≠ .compound) : R.meaning t = .atom t.text :=
  if_neg fun h' => h h'.1

theorem meaning_of_interior_eq_nil (h : t.interior = []) : R.meaning t = .atom t.text :=
  if_neg fun h' => h'.2 h

theorem meaning_of_compound (hk : t.kind = .compound) (h : t.interior ≠ []) :
    R.meaning t = R.expr t.interior :=
  if_pos ⟨hk, h⟩

theorem Cut.operands_eq (h : R.Cut b t rest) : R.operands b = R.meaning t :: R.operands rest := by
  unfold operands
  rw [h.splitTerms_eq, List.map_cons]

theorem Cut.expr_eq (h : R.Cut b t rest) : R.expr b = (R.meaning t).apply (R.operands rest) := by
  rw [R.expr_eq, h.operands_eq, Expr.applyAll]

theorem operands_text (h : t ∈ R.splitTerms b) : R.operands t.text = [R.meaning t] := by
  obtain ⟨_, _, _, -, hcut⟩ := exists_cut_of_mem_splitTerms h
  rw [hcut.self.operands_eq, operands_nil]

end Basis

/-! ## Texts and their operands -/

/-- A legible text and the expressions that its terms stand for, over the standard combinators. -/
structure Reads (u : Text) (xs : List Expr) : Prop where
  legible : Legible u
  operands_eq : Basis.standard.operands u = xs

namespace Reads

variable {u w : Text} {x : Expr} {xs ys : List Expr}

theorem of_legible (hu : Legible u) : Reads u (Basis.standard.operands u) := ⟨hu, rfl⟩

theorem of_splitTerms_eq (hu : Legible u) {us ts : List Term}
    (h : Basis.standard.splitTerms u = us ++ ts) :
    Reads (Term.join ts) (ts.map Basis.standard.meaning) := by
  refine ⟨legible_join fun t ht => ?_, ?_⟩
  · exact Basis.legible_of_mem_splitTerms hu t (h ▸ List.mem_append_right us ht)
  · rw [Basis.operands, Basis.splitTerms_join h]

theorem of_mem_splitTerms (hu : Legible u) {t : Term} (h : t ∈ Basis.standard.splitTerms u) :
    Reads t.text [Basis.standard.meaning t] :=
  ⟨Basis.legible_of_mem_splitTerms hu t h, Basis.operands_text h⟩

theorem expr_eq (h : Reads u xs) : Basis.standard.expr u = .applyAll xs := by
  rw [Basis.expr_eq, h.operands_eq]

theorem ne_nil (h : Reads u (x :: xs)) : u ≠ [] := by
  rintro rfl
  have hnil := h.operands_eq
  rw [Basis.operands_nil] at hnil
  exact List.cons_ne_nil x xs hnil.symm

theorem append (hu : Reads u xs) (hw : Reads w ys) : Reads (u ++ w) (xs ++ ys) := by
  refine ⟨hu.legible.append hw.legible, ?_⟩
  have hd := Basis.detached_of_attached hw.legible.attached
  have hs := Basis.splitTerms_append Basis.wellBracketed_standard.names hu.legible.balanced hd
  unfold Basis.operands
  rw [hs, List.map_append, ← hu.operands_eq, ← hw.operands_eq]
  rfl

theorem bracketed (hu : Reads u (x :: xs)) : Reads (bracketed u) [x.apply xs] := by
  have hbal := hu.legible.balanced
  have hint := Term.interior_bracketed hbal .compound
  have hne : (⟨Combinatory.bracketed u, .compound⟩ : Term).interior ≠ [] := by
    rw [hint]
    exact hu.ne_nil
  have hcut := Basis.standard.cut_bracketed hbal []
  rw [List.append_nil] at hcut
  refine ⟨legible_bracketed hu.legible, ?_⟩
  rw [hcut.operands_eq, Basis.meaning_of_compound rfl hne, hint,
    hu.expr_eq, Basis.operands_nil, Expr.applyAll]

end Reads

theorem Basis.expr_append {u w : Text} (hne : u ≠ []) (hu : Legible u) (hw : Legible w) :
    standard.expr (u ++ w) = (standard.expr u).apply (standard.operands w) := by
  obtain ⟨t, rest, hcut⟩ := standard.exists_cut hne
  have hoperands : standard.operands u ≠ [] := by
    rw [hcut.operands_eq]
    exact List.cons_ne_nil _ _
  have happend := ((Reads.of_legible hu).append (Reads.of_legible hw)).expr_eq
  rw [happend, Expr.applyAll_append hoperands, ← standard.expr_eq]

end Combinatory
