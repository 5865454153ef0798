import Combinatory.Proofs.Cut

/-!
# Balanced buffers and their boundaries

1. Over names that are balanced, a balanced buffer is cut into balanced pieces, and its compounds are
   closed (`Basis.Cut.balanced`, `Basis.forall_mem_splitTerms`).
2. A text stands apart when no name can run into it from the left. Then all terms of a balanced buffer
   before it are as they were but the last (`Basis.splitTerms_append_of_eq_concat`), and the last one
   too unless it is a variable that runs into the text (`Basis.splitTerms_append_iff`).
3. Subscripts that follow no variable are terms of their own (`Basis.splitTerms_of_subscripts`).
4. A text is detached when no variable and no name can run into it. What is detached has no part in the
   terms before it (`Basis.splitTerms_append`, `Basis.cut_at_boundary`).
-/

namespace Combinatory

namespace Basis

variable {R : Basis} {b u w rest : Text} {t : Term}

/-! ## Balanced buffers -/

def BalancedNames (R : Basis) : Prop := ∀ d ∈ R.combinators, Balanced d.name

instance (R : Basis) : Decidable R.BalancedNames := inferInstanceAs (Decidable (∀ d ∈ _, _))

def WellBracketed (R : Basis) : Prop :=
  ∀ d ∈ R.combinators, Balanced d.name ∧ Balanced d.template

instance (R : Basis) : Decidable R.WellBracketed := inferInstanceAs (Decidable (∀ d ∈ _, _))

theorem WellBracketed.names (hR : R.WellBracketed) : R.BalancedNames := fun d hd => (hR d hd).1

theorem wellBracketed_standard : standard.WellBracketed := by decide

theorem exists_bracketed_of_balanced {cs : Text} (hb : Balanced ('(' :: cs)) :
    ∃ u, '(' :: (cutAtClose 0 cs).1 = bracketed u ∧ Balanced u ∧ Balanced (cutAtClose 0 cs).2 ∧
      ∀ w, cutAtClose 0 (cs ++ w) = ((cutAtClose 0 cs).1, (cutAtClose 0 cs).2 ++ w) := by
  obtain ⟨u, rest, rfl, hu, hrest⟩ := exists_of_openAfter_succ (n := 0) hb
  refine ⟨u, ?_, hu, ?_, fun w => ?_⟩
  · rw [cutAtClose_of_openAfter hu]
    rfl
  · rw [cutAtClose_of_openAfter hu]
    exact hrest
  · rw [List.append_assoc, List.cons_append, cutAtClose_of_openAfter hu,
      cutAtClose_of_openAfter hu]

theorem balanced_variable {c : Char} (hc : isVariableStart c = true) (cs : Text) :
    Balanced (c :: cs.takeWhile isSubscript) := by
  refine balanced_of_forall fun x hx => ?_
  rcases List.mem_cons.1 hx with rfl | hx
  · exact not_bracket_of_isVariableStart hc
  · exact not_bracket_of_isSubscript (List.mem_takeWhile_imp hx)

/-- **A balanced buffer is cut into balanced pieces**, and a compound that is cut off is closed. -/
theorem Cut.balanced (h : R.Cut b t rest) (hR : R.BalancedNames) (hb : Balanced b) :
    Balanced t.text ∧ Balanced rest ∧ (t.kind = .compound → t.Closed) := by
  -- The rest of a balanced text after a balanced piece needs no case of its own.
  suffices ht : Balanced t.text ∧ (t.kind = .compound → t.Closed) by
    rw [← h.append_eq] at hb
    exact ⟨ht.1, (balanced_append_iff ht.1).1 hb, ht.2⟩
  cases h with
  | compound hcs =>
    subst hcs
    obtain ⟨u, hu, hbal, -, -⟩ := exists_bracketed_of_balanced hb
    rw [hu]
    exact ⟨balanced_bracketed hbal, fun _ => Term.closed_bracketed hbal _⟩
  | var hcs hc => exact ⟨balanced_variable hc _, by simp⟩
  | name hcs ho hc hd hr => exact ⟨hR _ (mem_of_findPrefix? hd), by simp⟩
  | symbol hcs ho hc hd =>
    subst hcs
    refine ⟨balanced_of_forall fun x hx => ?_, by simp⟩
    obtain rfl := List.mem_singleton.1 hx
    exact ⟨ho, hb.ne_close⟩

theorem forall_mem_splitTerms (hR : R.BalancedNames) (hb : Balanced b) :
    ∀ t ∈ R.splitTerms b, Balanced t.text ∧ (t.kind = .compound → t.Closed) := by
  induction b using R.cut_induction with
  | nil => simp
  | cut h ih =>
    obtain ⟨ht, hrest, hclosed⟩ := h.balanced hR hb
    rw [h.splitTerms_eq]
    intro t' ht'
    rcases List.mem_cons.1 ht' with rfl | ht'
    · exact ⟨ht, hclosed⟩
    · exact ih hrest t' ht'

/-! ## Names at a joint -/

/-- No name that begins before the text can run into it: none has its first character but at its own
beginning. -/
def Apart (R : Basis) (w : Text) : Prop := ∀ c ∈ w.head?, ∀ d ∈ R.combinators, c ∉ d.name.tail

theorem Apart.heads_append_iff (hw : R.Apart w) (hu : u ≠ []) {d : Combinator}
    (hd : d ∈ R.combinators) : d.Heads (u ++ w) ↔ d.Heads u := by
  unfold Combinator.Heads
  refine ⟨fun h => ?_, fun h => h.trans (List.prefix_append u w)⟩
  rcases List.prefix_or_prefix_of_prefix h (List.prefix_append u w) with h' | ⟨x, hx⟩
  · exact h'
  · cases x with
    | nil =>
      rw [List.append_nil] at hx
      exact hx ▸ List.prefix_refl u
    | cons c cs =>
      -- Otherwise the name runs over the joint, and has the first character of `w` in its tail.
      rw [← hx, List.prefix_append_right_inj] at h
      obtain ⟨v, rfl⟩ := h
      obtain ⟨a, u', rfl⟩ := List.exists_cons_of_ne_nil hu
      have hc := hw c rfl d hd
      rw [← hx] at hc
      simp at hc

theorem Apart.findPrefix?_append (hw : R.Apart w) (hu : u ≠ []) :
    R.findPrefix? (u ++ w) = R.findPrefix? u :=
  List.find?_congr fun _ hd => decide_eq_decide.2 (hw.heads_append_iff hu hd)

/-! ## Variables at a joint -/

theorem cut_var_append (R : Basis) {c : Char} {cs : Text} (hc : isVariableStart c = true)
    (hcs : ∀ x ∈ cs, isSubscript x = true) (w : Text) :
    R.Cut (c :: cs ++ w) ⟨c :: cs ++ w.takeWhile isSubscript, .var⟩ (w.dropWhile isSubscript) := by
  have h : R.Cut (c :: cs ++ w) _ _ := .var List.cons_append hc
  rwa [List.takeWhile_append_of_pos hcs, List.dropWhile_append_of_pos hcs] at h

theorem Cut.append_of_var (h : R.Cut t.text t []) (hk : t.kind = .var) (w : Text) :
    R.Cut (t.text ++ w) ⟨t.text ++ w.takeWhile isSubscript, .var⟩ (w.dropWhile isSubscript) := by
  generalize hrest : ([] : Text) = rest at h
  cases h with
  | compound | name | symbol => simp at hk
  | @var c cs hcs hc =>
    exact cut_var_append R hc (fun x hx => List.mem_takeWhile_imp hx) w

/-- **What stands apart does not change the cut before it**, unless a variable ends at the joint. -/
theorem Cut.append_of_apart (h : R.Cut u t rest) (hu : Balanced u) (hw : R.Apart w)
    (hjoint : t.kind = .var → rest = [] → w.takeWhile isSubscript = []) :
    R.Cut (u ++ w) t (rest ++ w) := by
  cases h with
  | @compound cs hcs =>
    subst hcs
    obtain ⟨-, -, -, -, hcut⟩ := exists_bracketed_of_balanced hu
    have h : R.Cut ('(' :: cs ++ w) _ _ := .compound List.cons_append
    rwa [hcut w] at h
  | @var c cs hcs hc =>
    subst hcs
    by_cases hrest : cs.dropWhile isSubscript = []
    · have hall := List.dropWhile_eq_nil_iff.1 hrest
      have hnone := hjoint rfl hrest
      have hsame : w.dropWhile isSubscript = w := by
        conv_rhs => rw [← List.takeWhile_append_dropWhile (p := isSubscript) (l := w), hnone]
        rfl
      have h := cut_var_append R hc hall w
      rw [hnone, List.append_nil, hsame] at h
      rw [List.takeWhile_eq_self_iff.2 hall, hrest]
      exact h
    · have hlen : (cs.takeWhile isSubscript).length ≠ cs.length := fun hl =>
        hrest (List.dropWhile_eq_nil_iff.2 (List.takeWhile_eq_self_iff.1
          ((List.takeWhile_prefix _).eq_of_length hl)))
      have h : R.Cut (c :: cs ++ w) _ _ := .var List.cons_append hc
      rwa [List.takeWhile_append, if_neg hlen, List.dropWhile_append,
        if_neg (by simpa using hrest)] at h
  | @name c cs _ d hcs ho hc hd hr =>
    have hne : u ≠ [] := hcs ▸ List.cons_ne_nil c cs
    have hcons : u ++ w = c :: (cs ++ w) := by rw [hcs, List.cons_append]
    have hfind : R.findPrefix? (u ++ w) = some d := by rw [hw.findPrefix?_append hne, hd]
    refine .name hcons ho hc hfind ?_
    rw [hr, List.append_assoc]
  | @symbol c _ hcs ho hc hd =>
    have hne : u ≠ [] := hcs ▸ List.cons_ne_nil c rest
    have hcons : u ++ w = c :: (rest ++ w) := by rw [hcs, List.cons_append]
    have hfind : R.findPrefix? (u ++ w) = none := by rw [hw.findPrefix?_append hne, hd]
    exact .symbol hcons ho hc hfind

/-! ## Terms at a joint -/

theorem cut_self_of_mem_splitTerms (h : t ∈ R.splitTerms b) : R.Cut t.text t [] := by
  obtain ⟨_, _, _, _, hcut⟩ := exists_cut_of_mem_splitTerms h
  exact hcut.self

/-- **All terms before the joint but the last are as they were.** -/
theorem splitTerms_append_of_eq_concat (hR : R.BalancedNames) (hu : Balanced u) (hw : R.Apart w)
    {front : List Term} (h : R.splitTerms u = front ++ [t]) :
    R.splitTerms (u ++ w) = front ++ R.splitTerms (t.text ++ w) := by
  induction front generalizing u with
  | nil =>
    have htext := R.join_splitTerms u
    rw [h] at htext
    rw [← htext]
    simp
  | cons t' front ih =>
    have hne : u ≠ [] := by
      rintro rfl
      simp at h
    obtain ⟨t'', rest, hcut⟩ := R.exists_cut hne
    rw [hcut.splitTerms_eq] at h
    obtain ⟨rfl, hrest⟩ := List.cons.inj h
    have hstop : rest ≠ [] := by
      rintro rfl
      simp at hrest
    rw [(hcut.append_of_apart hu hw fun _ hnil => absurd hnil hstop).splitTerms_eq,
      ih (hcut.balanced hR hu).2.1 hrest, List.cons_append]

/-- The last term before the joint is a variable, and what stands behind goes it on. -/
def RunsInto (R : Basis) (u w : Text) : Prop :=
  (∃ t ∈ (R.splitTerms u).getLast?, t.kind = .var) ∧ ∃ c ∈ w.head?, isSubscript c = true

theorem takeWhile_isSubscript_eq_nil_iff :
    w.takeWhile isSubscript = [] ↔ ¬ ∃ c ∈ w.head?, isSubscript c = true := by
  cases w <;> simp

/-- **A variable that runs into what follows takes its subscripts**, and all other terms are as they
were. -/
theorem splitTerms_append_of_var (hR : R.BalancedNames) (hu : Balanced u) (hw : R.Apart w)
    {front : List Term} (h : R.splitTerms u = front ++ [t]) (hk : t.kind = .var) :
    R.splitTerms (u ++ w) = front ++
      ⟨t.text ++ w.takeWhile isSubscript, .var⟩ :: R.splitTerms (w.dropWhile isSubscript) := by
  have hcut := cut_self_of_mem_splitTerms (h ▸ List.mem_append_right front List.mem_cons_self)
  rw [splitTerms_append_of_eq_concat hR hu hw h, (hcut.append_of_var hk w).splitTerms_eq]

/-- **The terms before a joint and those behind it are the terms of the whole unless a variable runs
into what follows.** -/
theorem splitTerms_append_iff (hR : R.BalancedNames) (hu : Balanced u) (hw : R.Apart w) :
    R.splitTerms (u ++ w) = R.splitTerms u ++ R.splitTerms w ↔ ¬ R.RunsInto u w := by
  rcases List.eq_nil_or_concat (R.splitTerms u) with hnil | ⟨front, t, hlast⟩
  · have hempty : u = [] := by rw [← R.join_splitTerms u, hnil, Term.join_nil]
    simp [hempty, RunsInto]
  · rw [List.concat_eq_append] at hlast
    have hmem : t ∈ R.splitTerms u := hlast ▸ List.mem_append_right front List.mem_cons_self
    have hruns : R.RunsInto u w ↔ t.kind = .var ∧ ∃ c ∈ w.head?, isSubscript c = true := by
      unfold RunsInto
      rw [hlast]
      simp
    rw [hruns]
    by_cases h : t.kind = .var ∧ ∃ c ∈ w.head?, isSubscript c = true
    · refine iff_of_false (fun heq => ?_) (not_not.2 h)
      rw [splitTerms_append_of_var hR hu hw hlast h.1, hlast, List.append_assoc] at heq
      have htext := congrArg Term.text (List.cons.inj (List.append_cancel_left heq)).1
      exact takeWhile_isSubscript_eq_nil_iff.1 (List.append_right_eq_self.1 htext) h.2
    · refine iff_of_true ?_ h
      have hcut := (cut_self_of_mem_splitTerms hmem).append_of_apart
        (forall_mem_splitTerms hR hu t hmem).1 hw fun hk _ =>
          takeWhile_isSubscript_eq_nil_iff.2 fun hs => h ⟨hk, hs⟩
      rw [splitTerms_append_of_eq_concat hR hu hw hlast, hcut.splitTerms_eq, hlast,
        List.append_assoc]
      rfl

/-! ## Subscripts on their own -/

/-- No name of the basis begins with a subscript. -/
def PlainNames (R : Basis) : Prop :=
  ∀ d ∈ R.combinators, d.name.head?.any isSubscript = false

instance (R : Basis) : Decidable R.PlainNames := inferInstanceAs (Decidable (∀ d ∈ _, _))

theorem cut_subscript (hR : R.PlainNames) {c : Char} (hc : isSubscript c = true) (w : Text) :
    R.Cut (c :: w) ⟨[c], .symbol⟩ w := by
  refine .symbol rfl (not_bracket_of_isSubscript hc).1 (not_isVariableStart_of_isSubscript hc) ?_
  refine List.find?_eq_none.2 fun d hd hx => ?_
  obtain ⟨c', cs, hname⟩ := List.exists_cons_of_ne_nil d.name_ne_nil
  have hheads : d.name <+: c :: w := of_decide_eq_true hx
  rw [hname, List.cons_prefix_cons] at hheads
  have hplain := hR d hd
  rw [hname, hheads.1] at hplain
  exact Bool.noConfusion (hc.symm.trans hplain)

/-- **Subscripts that follow no variable are symbols**, each a term of its own. -/
theorem splitTerms_of_subscripts (hR : R.PlainNames) (w : Text) :
    R.splitTerms w = (w.takeWhile isSubscript).map (fun c => ⟨[c], .symbol⟩) ++
      R.splitTerms (w.dropWhile isSubscript) := by
  induction w with
  | nil => simp
  | cons c w ih =>
    cases hc : isSubscript c with
    | false => simp [hc]
    | true =>
      rw [(cut_subscript hR hc w).splitTerms_eq, ih]
      simp [hc]

/-! ## Detached texts -/

/-- No variable and no name that begins before the text can run into it: its first character is no
subscript, and no name has it but at its own beginning. -/
def Detached (R : Basis) (w : Text) : Prop :=
  ∀ c ∈ w.head?, isSubscript c = false ∧ ∀ d ∈ R.combinators, c ∉ d.name.tail

instance (R : Basis) (w : Text) : Decidable (R.Detached w) :=
  decidable_of_iff
    (w.head?.all fun c => !isSubscript c && R.combinators.all fun d => !d.name.tail.contains c)
    (by simp [Detached, Option.all_eq_true])

theorem Detached.apart (hw : R.Detached w) : R.Apart w := fun c hc => (hw c hc).2

theorem Detached.not_isSubscript (hw : R.Detached w) : ¬ ∃ c ∈ w.head?, isSubscript c = true := by
  rintro ⟨c, hc, hs⟩
  rw [(hw c hc).1] at hs
  exact Bool.false_ne_true hs

/-- **What is detached does not change the cut before it.** -/
theorem Cut.append (h : R.Cut u t rest) (hu : Balanced u) (hw : R.Detached w) :
    R.Cut (u ++ w) t (rest ++ w) :=
  h.append_of_apart hu hw.apart fun _ _ => takeWhile_isSubscript_eq_nil_iff.2 hw.not_isSubscript

/-- **The terms before a clean boundary and those after it are the terms of the whole.** -/
theorem splitTerms_append (hR : R.BalancedNames) (hu : Balanced u) (hw : R.Detached w) :
    R.splitTerms (u ++ w) = R.splitTerms u ++ R.splitTerms w :=
  (splitTerms_append_iff hR hu hw.apart).2 fun h => hw.not_isSubscript h.2

/-- **Cutting respects clean boundaries.** Over balanced names, a balanced text and a detached one behind
it, which need not be balanced, are cut into the terms of the one and then those of the other, so the
terms are as many as those of both. -/
theorem cut_at_boundary (hR : R.BalancedNames) (hu : Balanced u) (hw : R.Detached w) :
    R.splitTerms (u ++ w) = R.splitTerms u ++ R.splitTerms w ∧
      R.termCount (u ++ w) = R.termCount u + R.termCount w := by
  have hsplit := splitTerms_append hR hu hw
  refine ⟨hsplit, ?_⟩
  unfold termCount
  rw [hsplit, List.length_append]

/-- Balanced names, one of them with brackets inside. -/
def marked : Basis :=
  ⟨[⟨"M(a)".toList, 1, ['0'], by decide⟩, ⟨"<0>".toList, 0, "KI".toList, by decide⟩]⟩

/-- A variable stands before the boundary and a name behind it, with brackets that do not match. -/
theorem cut_at_boundary_marked :
    marked.splitTerms "(Mx_1)M(a)y2<0>)(".toList =
        [⟨"(Mx_1)".toList, .compound⟩, ⟨"M(a)".toList, .name⟩, ⟨"y2".toList, .var⟩] ++
          [⟨"<0>".toList, .name⟩, ⟨[')'], .symbol⟩, ⟨['('], .compound⟩] ∧
      marked.termCount "(Mx_1)M(a)y2<0>)(".toList =
        marked.termCount "(Mx_1)M(a)y2".toList + marked.termCount "<0>)(".toList := by
  obtain ⟨hsplit, hcount⟩ := cut_at_boundary (R := marked) (u := "(Mx_1)M(a)y2".toList)
    (w := "<0>)(".toList) (by decide) (by decide) (by decide)
  refine ⟨?_, hcount⟩
  have hleft : marked.splitTerms "(Mx_1)M(a)y2".toList =
      [⟨"(Mx_1)".toList, .compound⟩, ⟨"M(a)".toList, .name⟩, ⟨"y2".toList, .var⟩] :=
    (Splits.eq_splitTerms (.cut rfl (.cut rfl (.cut rfl (.done rfl))))).symm
  have hright : marked.splitTerms "<0>)(".toList =
      [⟨"<0>".toList, .name⟩, ⟨[')'], .symbol⟩, ⟨['('], .compound⟩] :=
    (Splits.eq_splitTerms (.cut rfl (.cut rfl (.cut rfl (.done rfl))))).symm
  rw [← hleft, ← hright]
  exact hsplit

end Basis

end Combinatory
