import Combinatory.Proofs.Cut

/-!
# Brackets that match

Two ways to count brackets, one that gives up at a closing bracket without partner and one that stops
where the first bracket is closed, are compared with what they are meant to find.

1. The balanced texts are those of a grammar (`Matched`, `balanced_iff_matched`).
2. The brackets that are open after a text are as many as its counts of brackets say
   (`add_count_of_openAfter`), and no part from its beginning closes more than were open
   (`count_le_of_isPrefix`).
3. So a compound ends where as many brackets have been closed as opened, for the first time
   (`length_le_of_levelPrefix`), and where there is no such place it takes all of the buffer
   (`not_levelPrefix_of_open`).

`brackets_recognised` puts these together.
-/

namespace Combinatory

/-! ## The grammar -/

/-- The texts in which brackets match: nothing, another character and such a text, or such a text in
brackets and such a text. -/
inductive Matched : Text → Prop
  | nil : Matched []
  | other {c : Char} {t : Text} (ho : c ≠ '(') (hc : c ≠ ')') (h : Matched t) : Matched (c :: t)
  | pair {u t : Text} (hu : Matched u) (h : Matched t) : Matched (bracketed u ++ t)

variable {n m : Nat} {t u v cs rest : Text}

theorem Matched.balanced (h : Matched t) : Balanced t := by
  induction h with
  | nil => exact balanced_nil
  | other ho hc _ ih =>
    unfold Balanced
    rw [openAfter_other ho hc]
    exact ih
  | pair _ _ ihu ih => exact (balanced_bracketed ihu).append ih

theorem Balanced.matched (h : Balanced t) : Matched t := by
  induction hn : t.length using Nat.strong_induction_on generalizing t with
  | _ n ih =>
    cases t with
    | nil => exact .nil
    | cons c cs =>
      rw [List.length_cons] at hn
      by_cases ho : c = '('
      · subst ho
        obtain ⟨u, rest, rfl, hu, hrest⟩ := exists_of_openAfter_succ (n := 0) h
        rw [List.length_append, List.length_cons] at hn
        have hpair : '(' :: (u ++ ')' :: rest) = bracketed u ++ rest := by
          rw [bracketed, List.append_assoc]
          rfl
        rw [hpair]
        exact .pair (ih u.length (by omega) hu rfl) (ih rest.length (by omega) hrest rfl)
      · have hc : c ≠ ')' := h.ne_close
        unfold Balanced at h
        rw [openAfter_other ho hc] at h
        exact .other ho hc (ih cs.length (by omega) h rfl)

/-- **The balanced texts are those of the grammar.** -/
theorem balanced_iff_matched : Balanced t ↔ Matched t := ⟨Balanced.matched, Matched.balanced⟩

/-! ## Counts -/

theorem add_count_of_openAfter (h : openAfter n t = some m) :
    n + t.count '(' = m + t.count ')' := by
  induction t using bracket_induction generalizing n with
  | nil => exact congrArg (· + 0) (Option.some.inj h)
  | opening t ih =>
    have hrest := ih (n := n + 1) h
    rw [List.count_cons_self, List.count_cons_of_ne (by decide)]
    omega
  | closing t ih =>
    cases n with
    | zero => simp at h
    | succ n =>
      have hrest := ih (n := n) h
      rw [List.count_cons_self, List.count_cons_of_ne (by decide)]
      omega
  | other c t ho hc ih =>
    rw [openAfter_other ho hc] at h
    rw [List.count_cons_of_ne ho, List.count_cons_of_ne hc]
    exact ih h

theorem count_le_of_isPrefix (h : openAfter n t = some m) (hv : v <+: t) :
    v.count ')' ≤ n + v.count '(' := by
  obtain ⟨w, rfl⟩ := hv
  rw [openAfter_append] at h
  obtain ⟨k, hk, -⟩ := Option.bind_eq_some_iff.1 h
  have hcount := add_count_of_openAfter hk
  omega

theorem Balanced.count_eq (h : Balanced t) : t.count '(' = t.count ')' := by
  have hcount := add_count_of_openAfter h
  omega

/-! ## Where a compound ends -/

/-- `u` is a part of `b` from its beginning, not empty, in which as many brackets are closed as
opened. -/
structure LevelPrefix (b u : Text) : Prop where
  isPrefix : u <+: b
  ne_nil : u ≠ []
  count_eq : u.count '(' = u.count ')'

theorem not_levelPrefix_of_open (h : openAfter 0 cs = some m) : ¬ LevelPrefix ('(' :: cs) v := by
  rintro ⟨hv, hne, hcount⟩
  obtain ⟨c, v, rfl⟩ := List.exists_cons_of_ne_nil hne
  obtain ⟨rfl, htail⟩ := List.cons_prefix_cons.1 hv
  have hle := count_le_of_isPrefix h htail
  rw [List.count_cons_self, List.count_cons_of_ne (by decide)] at hcount
  omega

theorem levelPrefix_bracketed (hu : Balanced u) (rest : Text) :
    LevelPrefix (bracketed u ++ rest) (bracketed u) :=
  ⟨List.prefix_append _ _, List.cons_ne_nil _ _, (balanced_bracketed hu).count_eq⟩

/-- **As many brackets are closed as opened only from the partner of the first bracket on.** -/
theorem length_le_of_levelPrefix (hu : Balanced u) (hv : LevelPrefix (bracketed u ++ rest) v) :
    (bracketed u).length ≤ v.length := by
  by_contra hlt
  have hopen : '(' :: u <+: bracketed u ++ rest :=
    (List.prefix_append ('(' :: u) [')']).trans (List.prefix_append _ rest)
  have hle : v.length ≤ ('(' :: u).length := by
    rw [length_bracketed] at hlt
    rw [List.length_cons]
    omega
  exact not_levelPrefix_of_open hu
    ⟨List.prefix_of_prefix_length_le hv.isPrefix hopen hle, hv.ne_nil, hv.count_eq⟩

/-- **Brackets are recognised exactly.** A text is balanced if and only if the grammar gives it. From
a buffer that begins with a bracket a compound is cut off. Where some part of the buffer from its
beginning, not empty, closes as many brackets as it opens, the compound is the shortest such part,
it is balanced, and what it holds is the balanced text between its first character and its last one.
Where there is no such part, the compound is the whole buffer and holds all but its first character.
In both cases no part from the beginning of what it holds closes more brackets than it opens. -/
theorem brackets_recognised :
    (∀ t : Text, Balanced t ↔ Matched t) ∧
      ∀ (R : Basis) (cs : Text), ∃ t rest, R.takeTerm? ('(' :: cs) = some (t, rest) ∧
        t.kind = .compound ∧
        (∀ u, LevelPrefix ('(' :: cs) u →
          LevelPrefix ('(' :: cs) t.text ∧ t.text.length ≤ u.length ∧ Balanced t.text ∧ t.Closed) ∧
        ((∀ u, ¬ LevelPrefix ('(' :: cs) u) → t.text = '(' :: cs ∧ t.interior = cs) ∧
        ∀ v, v <+: t.interior → v.count ')' ≤ v.count '(' := by
  refine ⟨fun t => balanced_iff_matched, fun R cs => ?_⟩
  have hcut : R.Cut ('(' :: cs) _ _ := .compound rfl
  refine ⟨_, _, hcut.takeTerm?_eq, rfl, ?_⟩
  rcases hcut.closed_or_open rfl with ⟨u, hu, hb, ht⟩ | ⟨cs', m, hm, hb, ht, -⟩
  · rw [ht, hb]
    refine ⟨fun v hv => ?_, fun hnone => ?_, fun v hv => ?_⟩
    · exact ⟨levelPrefix_bracketed hu _, length_le_of_levelPrefix hu hv, balanced_bracketed hu,
        Term.closed_bracketed hu _⟩
    · exact absurd (levelPrefix_bracketed hu _) (hnone _)
    · rw [Term.interior_bracketed hu] at hv
      simpa using count_le_of_isPrefix hu hv
  · obtain rfl := (List.cons.inj hb).2
    rw [ht]
    refine ⟨fun v hv => ?_, fun _ => ?_, fun v hv => ?_⟩
    · exact absurd hv (not_levelPrefix_of_open hm)
    · exact ⟨rfl, Term.interior_of_open hm _⟩
    · rw [Term.interior_of_open hm] at hv
      simpa using count_le_of_isPrefix hm hv

/-- The compound ends at the partner of its bracket and not at the last bracket; one whose bracket is
not closed holds a closed one. -/
theorem brackets_recognised_nested :
    Matched "a(b())".toList ∧
      (LevelPrefix "(a(b))(c)".toList "(a(b))".toList ∧ Balanced "(a(b))".toList ∧
        (⟨"(a(b))".toList, .compound⟩ : Term).Closed) ∧
      (⟨"((a)".toList, .compound⟩ : Term).interior = "(a)".toList := by
  refine ⟨(brackets_recognised.1 _).1 (by decide), ?_, ?_⟩
  · obtain ⟨t, rest, htake, -, hclosed, -, -⟩ :=
      brackets_recognised.2 .standard "a(b))(c)".toList
    have hcompound : Basis.standard.takeTerm? "(a(b))(c)".toList =
        some (⟨"(a(b))".toList, .compound⟩, "(c)".toList) := rfl
    obtain ⟨rfl, rfl⟩ := Prod.mk.inj (Option.some.inj (htake.symm.trans hcompound))
    have hall : LevelPrefix "(a(b))(c)".toList "(a(b))(c)".toList :=
      ⟨List.prefix_refl _, by decide, by decide⟩
    obtain ⟨hlevel, -, hrest⟩ := hclosed _ hall
    exact ⟨hlevel, hrest⟩
  · obtain ⟨t, rest, htake, -, -, hopen, -⟩ := brackets_recognised.2 .standard "(a)".toList
    have hcompound : Basis.standard.takeTerm? "((a)".toList =
        some (⟨"((a)".toList, .compound⟩, []) := rfl
    obtain ⟨rfl, rfl⟩ := Prod.mk.inj (Option.some.inj (htake.symm.trans hcompound))
    have hnone : openAfter 0 "(a)".toList = some 0 := by decide
    exact (hopen fun _ => not_levelPrefix_of_open hnone).2

end Combinatory
