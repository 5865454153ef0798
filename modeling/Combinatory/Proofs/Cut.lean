import Combinatory.Proofs.Balance
import Combinatory.Term
import Mathlib.Data.List.Find
import Mathlib.Data.List.TakeWhile

/-!
# Cutting terms off a buffer

`Basis.Cut` lists the four ways in which a term is cut off the head of a buffer, and all that follows
is by these four cases.

* `Basis.Cut.self`: a term that was cut off is cut off its own text as a whole.
* `Basis.join_splitTerms`: the terms of a buffer, side by side, are the buffer.
* `Basis.terms_self_delimiting`: a buffer is cut up without loss, into terms that are terms on their
  own.
-/

namespace Combinatory

/-! ## Closed and open compounds -/

namespace Term

/-- A compound whose bracket is closed, around a balanced inside. -/
def Closed (t : Term) : Prop := t.text = bracketed t.interior ∧ Balanced t.interior

theorem interior_bracketed {u : Text} (hu : Balanced u) (k : TermKind) :
    (⟨bracketed u, k⟩ : Term).interior = u := by
  unfold interior
  rw [if_pos ⟨getLast?_bracketed u, balanced_bracketed hu⟩]
  exact List.dropLast_concat

theorem closed_bracketed {u : Text} (hu : Balanced u) (k : TermKind) :
    (⟨bracketed u, k⟩ : Term).Closed := by
  unfold Closed
  rw [interior_bracketed hu]
  exact ⟨rfl, hu⟩

theorem interior_of_open {m : Nat} {cs : Text} (h : openAfter 0 cs = some m) (k : TermKind) :
    (⟨'(' :: cs, k⟩ : Term).interior = cs := by
  have hopen : ¬ Balanced ('(' :: cs) := by
    unfold Balanced
    rw [openAfter_open, openAfter_add h 1]
    simp
  unfold interior
  rw [if_neg fun hclosed => hopen hclosed.2]
  rfl

/-- The texts of terms side by side. -/
def join (ts : List Term) : Text := (ts.map text).flatten

@[simp] theorem join_nil : join [] = [] := rfl

@[simp] theorem join_cons (t : Term) (ts : List Term) : join (t :: ts) = t.text ++ join ts := rfl

@[simp] theorem join_append (ts us : List Term) : join (ts ++ us) = join ts ++ join us := by
  simp [join]

end Term

theorem not_bracket_of_isSubscript {c : Char} (h : isSubscript c = true) : c ≠ '(' ∧ c ≠ ')' := by
  constructor <;> rintro rfl <;> exact absurd h (by decide)

theorem not_bracket_of_isVariableStart {c : Char} (h : isVariableStart c = true) :
    c ≠ '(' ∧ c ≠ ')' := by
  constructor <;> rintro rfl <;> exact absurd h (by decide)

theorem not_isVariableStart_of_isSubscript {c : Char} (h : isSubscript c = true) :
    isVariableStart c = false := by
  simp only [isSubscript, Bool.or_eq_true, Bool.and_eq_true, decide_eq_true_eq] at h
  rcases h with rfl | ⟨-, hle⟩
  · rfl
  · simp only [isVariableStart, Bool.and_eq_false_iff, decide_eq_false_iff_not]
    exact .inl fun hge => absurd (Char.le_trans hge hle) (by decide)

/-- A search ends where a wider one does, if what the wider one finds belongs to it. -/
theorem findIdx?_eq_of_imp {α : Type} {p q : α → Bool} {xs : List α}
    (hqp : ∀ x, q x = true → p x = true) (hpq : ∀ x, xs.find? p = some x → q x = true) :
    xs.findIdx? q = xs.findIdx? p := by
  cases hp : xs.findIdx? p with
  | none =>
    have hnone := List.findIdx?_eq_none_iff.1 hp
    refine List.findIdx?_eq_none_iff.2 fun x hx => Bool.eq_false_iff.2 fun hq => ?_
    exact Bool.false_ne_true ((hnone x hx).symm.trans (hqp x hq))
  | some i =>
    obtain ⟨hi, -, hbefore⟩ := List.findIdx?_eq_some_iff_getElem.1 hp
    have hfound : xs.find? p = some xs[i] := by
      rw [List.find?_eq_bind_findIdx?_getElem?, hp]
      exact List.getElem?_eq_getElem hi
    exact List.findIdx?_eq_some_iff_getElem.2
      ⟨hi, hpq _ hfound, fun j hj hq => hbefore j hj (hqp _ hq)⟩

theorem find?_eq_some_of_imp {α : Type} {p q : α → Bool} {xs : List α} {a : α}
    (h : xs.find? p = some a) (ha : q a = true) (hqp : ∀ x, q x = true → p x = true) :
    xs.find? q = some a := by
  have hplace : xs.findIdx? q = xs.findIdx? p := by
    refine findIdx?_eq_of_imp hqp fun x hx => ?_
    rwa [Option.some.inj (hx.symm.trans h)]
  rw [List.find?_eq_bind_findIdx?_getElem?, hplace, ← List.find?_eq_bind_findIdx?_getElem?, h]

namespace Basis

variable {R : Basis} {b u w rest : Text} {t : Term}

/-! ## Names at the head -/

theorem findPrefix?_of_isPrefix {d : Combinator} (hp : u <+: b) (h : R.findPrefix? b = some d)
    (hd : d.name <+: u) : R.findPrefix? u = some d :=
  find?_eq_some_of_imp h (decide_eq_true hd) fun _ hx =>
    decide_eq_true ((of_decide_eq_true hx).trans hp)

theorem findPrefix?_eq_none_of_isPrefix (hp : u <+: b) (h : R.findPrefix? b = none) :
    R.findPrefix? u = none := by
  refine List.find?_eq_none.2 fun d hd hx => ?_
  exact List.find?_eq_none.1 h d hd (decide_eq_true ((of_decide_eq_true hx).trans hp))

/-! ## The four cuts -/

/-- `R.Cut b t rest`: the term `t` is cut off the head of `b` and leaves `rest`. -/
inductive Cut (R : Basis) (b : Text) : Term → Text → Prop
  | compound {cs : Text} (hb : b = '(' :: cs) :
      Cut R b ⟨'(' :: (cutAtClose 0 cs).1, .compound⟩ (cutAtClose 0 cs).2
  | var {c : Char} {cs : Text} (hb : b = c :: cs) (hc : isVariableStart c = true) :
      Cut R b ⟨c :: cs.takeWhile isSubscript, .var⟩ (cs.dropWhile isSubscript)
  | name {c : Char} {cs rest : Text} {d : Combinator} (hb : b = c :: cs) (ho : c ≠ '(')
      (hc : isVariableStart c = false) (hd : R.findPrefix? b = some d) (hr : b = d.name ++ rest) :
      Cut R b ⟨d.name, .name⟩ rest
  | symbol {c : Char} {cs : Text} (hb : b = c :: cs) (ho : c ≠ '(')
      (hc : isVariableStart c = false) (hd : R.findPrefix? b = none) :
      Cut R b ⟨[c], .symbol⟩ cs

theorem cut_cutTerm (R : Basis) (c : Char) (cs : Text) :
    R.Cut (c :: cs) (R.cutTerm c cs).1 (R.cutTerm c cs).2 := by
  unfold cutTerm
  split
  · next ho =>
    subst ho
    exact .compound rfl
  · next ho =>
    split
    · next hc => exact .var rfl hc
    · next hc =>
      rw [Bool.not_eq_true] at hc
      split
      · next d hd =>
        exact .name rfl ho hc hd (List.prefix_iff_eq_append.1 (isPrefix_of_findPrefix? hd)).symm
      · next hd => exact .symbol rfl ho hc hd

theorem Cut.takeTerm?_eq (h : R.Cut b t rest) : R.takeTerm? b = some (t, rest) := by
  cases h with
  | compound hb => subst hb; rfl
  | var hb hc =>
    subst hb
    simp [takeTerm?, cutTerm, (not_bracket_of_isVariableStart hc).1, hc]
  | @name c cs _ d hb ho hc hd hr =>
    have hcut : R.takeTerm? b = some (⟨d.name, .name⟩, b.drop d.name.length) := by
      subst hb
      simp [takeTerm?, cutTerm, ho, hc, hd]
    rw [hcut]
    conv_lhs => rw [hr, List.drop_left]
  | symbol hb ho hc hd =>
    subst hb
    simp [takeTerm?, cutTerm, ho, hc, hd]

theorem cut_iff : R.takeTerm? b = some (t, rest) ↔ R.Cut b t rest := by
  refine ⟨fun h => ?_, Cut.takeTerm?_eq⟩
  cases b with
  | nil => simp [takeTerm?] at h
  | cons c cs =>
    have hcut := R.cut_cutTerm c cs
    rwa [show R.cutTerm c cs = (t, rest) from Option.some.inj h] at hcut

theorem Cut.append_eq (h : R.Cut b t rest) : t.text ++ rest = b := takeTerm?_append (cut_iff.2 h)

theorem Cut.length_lt (h : R.Cut b t rest) : rest.length < b.length :=
  length_lt_of_takeTerm? (cut_iff.2 h)

theorem Cut.text_ne_nil (h : R.Cut b t rest) : t.text ≠ [] := by
  intro ht
  have hlt := h.length_lt
  rw [← h.append_eq, ht] at hlt
  exact lt_irrefl _ hlt

theorem exists_cut (R : Basis) (hb : b ≠ []) : ∃ t rest, R.Cut b t rest := by
  cases b with
  | nil => exact absurd rfl hb
  | cons c cs => exact ⟨_, _, R.cut_cutTerm c cs⟩

/-- **A term is cut off its own text as a whole.** -/
theorem Cut.self (h : R.Cut b t rest) : R.Cut t.text t [] := by
  have hp : t.text <+: b := ⟨rest, h.append_eq⟩
  cases h with
  | @compound cs hb =>
    have hcut := Cut.compound (R := R) (b := '(' :: (cutAtClose 0 cs).1) rfl
    rwa [cutAtClose_fst] at hcut
  | @var c cs hb hc =>
    have hcut := Cut.var (R := R) (b := c :: cs.takeWhile isSubscript) rfl hc
    rwa [List.takeWhile_idem, List.dropWhile_eq_nil_iff.2 fun x hx => List.mem_takeWhile_imp hx]
      at hcut
  | @name c cs _ d hb ho hc hd hr =>
    obtain ⟨c', cs', hname⟩ := List.exists_cons_of_ne_nil d.name_ne_nil
    obtain rfl : c = c' := by
      rw [hb, hname] at hr
      exact (List.cons.inj hr).1
    exact .name hname ho hc (findPrefix?_of_isPrefix hp hd (List.prefix_refl _))
      (List.append_nil _).symm
  | symbol hb ho hc hd => exact .symbol rfl ho hc (findPrefix?_eq_none_of_isPrefix hp hd)

theorem cut_bracketed (R : Basis) (hu : Balanced u) (w : Text) :
    R.Cut (bracketed u ++ w) ⟨bracketed u, .compound⟩ w := by
  have hb : bracketed u ++ w = '(' :: (u ++ ')' :: w) := by
    rw [bracketed, List.cons_append, List.cons_append, List.append_assoc]
    rfl
  have h : R.Cut (bracketed u ++ w) _ _ := .compound hb
  rwa [cutAtClose_of_openAfter hu] at h

/-- A compound that is cut off is closed around a balanced inside, or it is the whole buffer and is
not closed in it. -/
theorem Cut.closed_or_open (h : R.Cut b t rest) (hk : t.kind = .compound) :
    (∃ u, Balanced u ∧ b = bracketed u ++ rest ∧ t = ⟨bracketed u, .compound⟩) ∨
      ∃ cs m, openAfter 0 cs = some m ∧ b = '(' :: cs ∧ t = ⟨'(' :: cs, .compound⟩ ∧ rest = [] := by
  cases h with
  | var | name | symbol => simp at hk
  | @compound cs hb =>
    rcases exists_close_or_open 0 cs with ⟨u, w, rfl, hu⟩ | ⟨m, hm⟩
    · rw [cutAtClose_of_openAfter hu]
      refine .inl ⟨u, hu, ?_, rfl⟩
      rw [hb, bracketed, List.append_assoc]
      rfl
    · rw [cutAtClose_of_open hm]
      exact .inr ⟨cs, m, hm, hb, rfl, rfl⟩

/-! ## All terms of a buffer -/

/-- Induction along the cuts of a buffer. -/
@[elab_as_elim]
theorem cut_induction (R : Basis) {P : Text → Prop} (nil : P [])
    (cut : ∀ {b rest : Text} {t : Term}, R.Cut b t rest → P rest → P b) (b : Text) : P b := by
  induction hn : b.length using Nat.strong_induction_on generalizing b with
  | _ n ih =>
    by_cases hb : b = []
    · subst hb
      exact nil
    · obtain ⟨t, rest, hcut⟩ := R.exists_cut hb
      exact cut hcut (ih _ (hn ▸ hcut.length_lt) rest rfl)

@[simp] theorem splitTerms_nil (R : Basis) : R.splitTerms [] = [] := by
  unfold splitTerms
  rfl

theorem Cut.splitTerms_eq (h : R.Cut b t rest) : R.splitTerms b = t :: R.splitTerms rest := by
  rw [splitTerms]
  split
  · next hn => rw [h.takeTerm?_eq] at hn; simp at hn
  · next hs =>
    rw [h.takeTerm?_eq] at hs
    obtain ⟨rfl, rfl⟩ := Prod.mk.inj (Option.some.inj hs)
    rfl

theorem exists_cut_of_mem_splitTerms (h : t ∈ R.splitTerms b) :
    ∃ front tail rest, b = front ++ tail ∧ R.Cut tail t rest := by
  induction b using R.cut_induction with
  | nil => simp at h
  | @cut b rest t' hcut ih =>
    rw [hcut.splitTerms_eq] at h
    rcases List.mem_cons.1 h with rfl | h
    · exact ⟨[], b, rest, rfl, hcut⟩
    · obtain ⟨front, tail, rest', rfl, htail⟩ := ih h
      refine ⟨t'.text ++ front, tail, rest', ?_, htail⟩
      rw [List.append_assoc, hcut.append_eq]

theorem length_interior_lt (h : t ∈ R.splitTerms b) : t.interior.length < b.length := by
  obtain ⟨front, tail, rest, rfl, hcut⟩ := exists_cut_of_mem_splitTerms h
  have hpos := List.length_pos_iff.2 hcut.text_ne_nil
  have hle : t.interior.length ≤ t.text.length - 1 := by
    unfold Term.interior
    split <;> simp
  rw [← hcut.append_eq, List.length_append, List.length_append]
  omega

theorem join_splitTerms (R : Basis) (b : Text) : Term.join (R.splitTerms b) = b := by
  induction b using R.cut_induction with
  | nil => rw [splitTerms_nil, Term.join_nil]
  | cut h ih => rw [h.splitTerms_eq, Term.join_cons, ih, h.append_eq]

theorem splitTerms_join {us ts : List Term} (h : R.splitTerms b = us ++ ts) :
    R.splitTerms (Term.join ts) = ts := by
  induction us generalizing b with
  | nil => rw [← show R.splitTerms b = ts from h, join_splitTerms]
  | cons u us ih =>
    have hb : b ≠ [] := by
      rintro rfl
      simp at h
    obtain ⟨t, rest, hcut⟩ := R.exists_cut hb
    rw [hcut.splitTerms_eq] at h
    exact ih (List.cons.inj h).2

/-! ## Terms on their own -/

/-- `R.Splits b ts`: one cut after the other, the terms `ts` are cut off the head of `b`, and then
nothing is left. -/
inductive Splits (R : Basis) : Text → List Term → Prop
  | done {b : Text} (h : R.takeTerm? b = none) : Splits R b []
  | cut {b rest : Text} {t : Term} {ts : List Term} (h : R.takeTerm? b = some (t, rest))
      (hrest : Splits R rest ts) : Splits R b (t :: ts)

theorem splits_splitTerms (R : Basis) (b : Text) : R.Splits b (R.splitTerms b) := by
  induction b using R.cut_induction with
  | nil =>
    rw [splitTerms_nil]
    exact .done rfl
  | cut h ih =>
    rw [h.splitTerms_eq]
    exact .cut h.takeTerm?_eq ih

theorem Splits.eq_splitTerms {ts : List Term} (h : R.Splits b ts) : ts = R.splitTerms b := by
  induction h with
  | @done b h =>
    cases b with
    | nil => exact (splitTerms_nil R).symm
    | cons c cs => simp [takeTerm?] at h
  | cut h _ ih => rw [(cut_iff.1 h).splitTerms_eq, ih]

theorem termCount_le_length (R : Basis) (b : Text) : R.termCount b ≤ b.length := by
  unfold termCount
  induction b using R.cut_induction with
  | nil => simp
  | cut h ih =>
    rw [h.splitTerms_eq, List.length_cons]
    exact ih.trans_lt h.length_lt

/-- **A buffer is cut into terms without loss, and every term is a term on its own.** Whatever the names
of the basis are, the cuts come to an end, after as many as the buffer has characters at most; no term
is empty; the texts of the terms side by side are the buffer; and the text of each of them is cut into
this one term again, which has the same kind. -/
theorem terms_self_delimiting (R : Basis) (b : Text) :
    (∀ ts, R.Splits b ts ↔ ts = R.splitTerms b) ∧ R.termCount b ≤ b.length ∧
      Term.join (R.splitTerms b) = b ∧
      ∀ t ∈ R.splitTerms b, t.text ≠ [] ∧ R.splitTerms t.text = [t] := by
  refine ⟨fun ts => ⟨Splits.eq_splitTerms, ?_⟩, R.termCount_le_length b, R.join_splitTerms b, ?_⟩
  · rintro rfl
    exact R.splits_splitTerms b
  · intro t ht
    obtain ⟨_, _, _, _, hcut⟩ := exists_cut_of_mem_splitTerms ht
    refine ⟨hcut.text_ne_nil, ?_⟩
    rw [hcut.self.splitTerms_eq, splitTerms_nil]

/-- Names that begin one another, or begin as a compound, a variable or its subscripts do. -/
def entangled : Basis :=
  ⟨[⟨"A(".toList, 1, ['0'], by decide⟩, ⟨['A'], 0, ['A'], by decide⟩,
    ⟨"(b".toList, 0, [], by decide⟩, ⟨"x_".toList, 0, [], by decide⟩, ⟨"_1".toList, 0, [], by decide⟩]⟩

/-- A bracket that belongs to a name, a closing one on its own, and one that is never closed. -/
theorem terms_self_delimiting_entangled :
    entangled.splitTerms "A(x_1)_1(b".toList =
        [⟨"A(".toList, .name⟩, ⟨"x_1".toList, .var⟩, ⟨[')'], .symbol⟩, ⟨"_1".toList, .name⟩,
          ⟨"(b".toList, .compound⟩] ∧
      entangled.splitTerms "A(".toList = [⟨"A(".toList, .name⟩] ∧
      entangled.splitTerms "(b".toList = [⟨"(b".toList, .compound⟩] := by
  obtain ⟨hsplits, -, -, hself⟩ := terms_self_delimiting entangled "A(x_1)_1(b".toList
  have hterms : entangled.splitTerms "A(x_1)_1(b".toList =
      [⟨"A(".toList, .name⟩, ⟨"x_1".toList, .var⟩, ⟨[')'], .symbol⟩, ⟨"_1".toList, .name⟩,
        ⟨"(b".toList, .compound⟩] :=
    ((hsplits _).1 (.cut rfl (.cut rfl (.cut rfl (.cut rfl (.cut rfl (.done rfl))))))).symm
  rw [hterms] at hself
  refine ⟨hterms, ?_, ?_⟩
  · exact (hself ⟨"A(".toList, .name⟩ List.mem_cons_self).2
  · exact (hself ⟨"(b".toList, .compound⟩ (by simp)).2

end Basis

end Combinatory
