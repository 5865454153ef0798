import Combinatory.Bracket

/-!
# Balanced texts

The texts in which brackets match are closed under putting side by side and under bracketing, and
what follows a balanced text is balanced exactly when the whole is (`balanced_append_iff`). An open
bracket is closed in a text or not (`exists_close_or_open`): `cutAtClose` cuts behind its partner
(`cutAtClose_of_openAfter`), or cuts off everything (`cutAtClose_of_open`).
-/

namespace Combinatory

/-! ## Counting -/

theorem openAfter_add {n m : Nat} {t : Text} (h : openAfter n t = some m) (k : Nat) :
    openAfter (n + k) t = some (m + k) := by
  induction t using bracket_induction generalizing n with
  | nil =>
    obtain rfl : n = m := Option.some.inj h
    rfl
  | opening t ih =>
    rw [openAfter_open] at h ⊢
    rw [show n + k + 1 = n + 1 + k by omega]
    exact ih h
  | closing t ih =>
    cases n with
    | zero => simp at h
    | succ n =>
      rw [openAfter_close_succ] at h
      rw [show n + 1 + k = n + k + 1 by omega, openAfter_close_succ]
      exact ih h
  | other c t ho hc ih =>
    rw [openAfter_other ho hc] at h ⊢
    exact ih h

theorem openAfter_cons_congr {t u : Text} (h : ∀ n, openAfter n t = openAfter n u) (c : Char)
    (n : Nat) : openAfter n (c :: t) = openAfter n (c :: u) := by
  by_cases ho : c = '('
  · subst ho
    exact h (n + 1)
  · by_cases hc : c = ')'
    · subst hc
      cases n with
      | zero => rfl
      | succ n => exact h n
    · rw [openAfter_other ho hc, openAfter_other ho hc, h]

/-! ## Balanced texts -/

@[simp] theorem balanced_nil : Balanced [] := rfl

theorem Balanced.openAfter {t : Text} (h : Balanced t) (n : Nat) : openAfter n t = some n := by
  have := openAfter_add h n
  rwa [Nat.zero_add] at this

theorem balanced_append_iff {u w : Text} (hu : Balanced u) : Balanced (u ++ w) ↔ Balanced w := by
  unfold Balanced
  rw [openAfter_append, hu.openAfter, Option.bind_some]

theorem Balanced.append {u w : Text} (hu : Balanced u) (hw : Balanced w) : Balanced (u ++ w) :=
  (balanced_append_iff hu).2 hw

theorem balanced_flatten {ts : List Text} (h : ∀ t ∈ ts, Balanced t) : Balanced ts.flatten := by
  induction ts with
  | nil => rfl
  | cons t ts ih =>
    rw [List.flatten_cons]
    exact (h t List.mem_cons_self).append (ih fun u hu => h u (List.mem_cons_of_mem t hu))

theorem balanced_of_forall {t : Text} (h : ∀ c ∈ t, c ≠ '(' ∧ c ≠ ')') : Balanced t := by
  induction t with
  | nil => rfl
  | cons c cs ih =>
    have hc := h c List.mem_cons_self
    unfold Balanced
    rw [openAfter_other hc.1 hc.2]
    exact ih fun d hd => h d (List.mem_cons_of_mem c hd)

theorem Balanced.ne_close {c : Char} {cs : Text} (h : Balanced (c :: cs)) : c ≠ ')' := by
  rintro rfl
  simp [Balanced] at h

/-! ## Bracketing -/

def bracketed (u : Text) : Text := '(' :: u ++ [')']

@[simp] theorem length_bracketed (u : Text) : (bracketed u).length = u.length + 2 := by
  simp [bracketed]

theorem getLast?_bracketed (u : Text) : (bracketed u).getLast? = some ')' := List.getLast?_concat

theorem balanced_bracketed {u : Text} (hu : Balanced u) : Balanced (bracketed u) := by
  unfold Balanced bracketed
  rw [List.cons_append, openAfter_open, openAfter_append, hu.openAfter]
  rfl

/-! ## The partner of an open bracket -/

/-- The first of `n + 1` open brackets is closed in a text, or all closing brackets of the text have
their partners in it or among the other `n`. -/
theorem exists_close_or_open (n : Nat) (t : Text) :
    (∃ u w, t = u ++ ')' :: w ∧ openAfter n u = some 0) ∨ ∃ m, openAfter n t = some m := by
  induction t using bracket_induction generalizing n with
  | nil => exact .inr ⟨n, rfl⟩
  | opening t ih =>
    rcases ih (n + 1) with ⟨u, w, rfl, hu⟩ | ⟨m, hm⟩
    · exact .inl ⟨'(' :: u, w, rfl, hu⟩
    · exact .inr ⟨m, hm⟩
  | closing t ih =>
    cases n with
    | zero => exact .inl ⟨[], t, rfl, rfl⟩
    | succ n =>
      rcases ih n with ⟨u, w, rfl, hu⟩ | ⟨m, hm⟩
      · exact .inl ⟨')' :: u, w, rfl, hu⟩
      · exact .inr ⟨m, hm⟩
  | other c t ho hc ih =>
    rcases ih n with ⟨u, w, rfl, hu⟩ | ⟨m, hm⟩
    · exact .inl ⟨c :: u, w, rfl, by rw [openAfter_other ho hc, hu]⟩
    · exact .inr ⟨m, by rw [openAfter_other ho hc, hm]⟩

/-- When `n + 1` brackets are open before a text and none after it, the first of them to be opened is
closed in it, and a balanced text follows. -/
theorem exists_of_openAfter_succ {n : Nat} {t : Text} (h : openAfter (n + 1) t = some 0) :
    ∃ u rest, t = u ++ ')' :: rest ∧ openAfter n u = some 0 ∧ Balanced rest := by
  rcases exists_close_or_open n t with ⟨u, rest, rfl, hu⟩ | ⟨m, hm⟩
  · refine ⟨u, rest, rfl, hu, ?_⟩
    rwa [openAfter_append, openAfter_add hu 1] at h
  · rw [openAfter_add hm 1] at h
    simp at h

theorem cutAtClose_of_openAfter {n : Nat} {u : Text} (h : openAfter n u = some 0) (w : Text) :
    cutAtClose n (u ++ ')' :: w) = (u ++ [')'], w) := by
  induction u using bracket_induction generalizing n with
  | nil =>
    obtain rfl : n = 0 := Option.some.inj h
    exact cutAtClose_close_zero w
  | opening u ih =>
    rw [List.cons_append, cutAtClose_open, ih h]
    rfl
  | closing u ih =>
    cases n with
    | zero => simp at h
    | succ n =>
      rw [List.cons_append, cutAtClose_close_succ, ih h]
      rfl
  | other c u ho hc ih =>
    rw [openAfter_other ho hc] at h
    rw [List.cons_append, cutAtClose_other ho hc, ih h]
    rfl

theorem cutAtClose_of_open {n m : Nat} {t : Text} (h : openAfter n t = some m) :
    cutAtClose n t = (t, []) := by
  induction t using bracket_induction generalizing n with
  | nil => rfl
  | opening t ih => rw [cutAtClose_open, ih h]
  | closing t ih =>
    cases n with
    | zero => simp at h
    | succ n => rw [cutAtClose_close_succ, ih h]
  | other c t ho hc ih =>
    rw [openAfter_other ho hc] at h
    rw [cutAtClose_other ho hc, ih h]

end Combinatory
