import Combinatory.Reduction.Trace
import Mathlib.Algebra.Group.Nat.Defs
import Mathlib.Algebra.GroupWithZero.Nat
import Mathlib.Data.List.Induction
import Mathlib.Data.List.Nodup

/-!
# The labels of a trace, counted

1. Counts are kept in a list of entries that tallies the labels so far (`Tallies`): every label has one
   entry with the number of its occurrences, and the entries stand in the order in which the labels
   first occur. One more label keeps this (`Tallies.concat`).
2. The entry that is taken for the summary has a greater count than those before it, and none behind it
   has a greater one (`exists_eq_append_mostCounted`). Since entries stand in the order of their labels,
   it belongs to the label that leads the trace (`Tallies.leads_mostCounted`).

`Trace.tallied` puts these together.
-/

namespace Combinatory

variable {label : Text} {labels : List Text} {entries : List (Text × Nat)}

/-! ## One more label -/

theorem countLabel_of_not_mem (h : label ∉ entries.map Prod.fst) :
    countLabel label entries = entries ++ [(label, 1)] := by
  induction entries with
  | nil => rfl
  | cons entry entries ih =>
    obtain ⟨hne, hrest⟩ := List.ne_and_not_mem_of_not_mem_cons h
    unfold countLabel
    rw [if_neg (Ne.symm hne), ih hrest, List.cons_append]

theorem countLabel_of_mem (h : label ∈ entries.map Prod.fst) :
    ∃ front n back, entries = front ++ (label, n) :: back ∧
      countLabel label entries = front ++ (label, n + 1) :: back := by
  induction entries with
  | nil => simp at h
  | cons entry entries ih =>
    obtain ⟨other, n⟩ := entry
    by_cases hother : other = label
    · subst hother
      exact ⟨[], n, entries, rfl, if_pos rfl⟩
    · rcases List.mem_cons.1 h with heq | hrest
      · exact absurd heq.symm hother
      · obtain ⟨front, m, back, rfl, hcount⟩ := ih hrest
        refine ⟨(other, n) :: front, m, back, rfl, ?_⟩
        unfold countLabel
        rw [if_neg hother, hcount, List.cons_append]

theorem sum_countLabel (label : Text) (entries : List (Text × Nat)) :
    ((countLabel label entries).map Prod.snd).sum = (entries.map Prod.snd).sum + 1 := by
  induction entries with
  | nil => rfl
  | cons entry entries ih =>
    unfold countLabel
    split
    · simp only [List.map_cons, List.sum_cons]
      omega
    · simp only [List.map_cons, List.sum_cons, ih]
      omega

/-- The entries count the labels: each of them once, in the order in which they first occur, with the
number of its occurrences. -/
structure Tallies (labels : List Text) (entries : List (Text × Nat)) : Prop where
  mem_iff : ∀ label n, (label, n) ∈ entries ↔ label ∈ labels ∧ n = labels.count label
  in_order : (entries.map Prod.fst).Pairwise fun a b => labels.idxOf a < labels.idxOf b

namespace Tallies

theorem nil : Tallies [] [] := ⟨by simp, .nil⟩

theorem mem_map_fst_iff (h : Tallies labels entries) :
    label ∈ entries.map Prod.fst ↔ label ∈ labels := by
  simp [h.mem_iff]

theorem nodup (h : Tallies labels entries) : (entries.map Prod.fst).Nodup := by
  refine List.Pairwise.imp (fun hlt => ?_) h.in_order
  rintro rfl
  exact Nat.lt_irrefl _ hlt

theorem not_mem_of_mem {front back : List (Text × Nat)} {n : Nat}
    (h : Tallies labels (front ++ (label, n) :: back)) (m : Nat) :
    (label, m) ∉ front ∧ (label, m) ∉ back := by
  have hnodup := h.nodup
  rw [List.map_append, List.map_cons, List.nodup_middle, ← List.map_append] at hnodup
  have hnot := (List.nodup_cons.1 hnodup).1
  exact ⟨fun hm => hnot (List.mem_map.2 ⟨_, List.mem_append_left back hm, rfl⟩),
    fun hm => hnot (List.mem_map.2 ⟨_, List.mem_append_right front hm, rfl⟩)⟩

theorem in_order_concat (h : Tallies labels entries) (label : Text) :
    (entries.map Prod.fst).Pairwise fun a b =>
      (labels ++ [label]).idxOf a < (labels ++ [label]).idxOf b := by
  refine h.in_order.imp_of_mem fun ha hb hlt => ?_
  rwa [List.idxOf_append_of_mem (h.mem_map_fst_iff.1 ha),
    List.idxOf_append_of_mem (h.mem_map_fst_iff.1 hb)]

theorem concat_of_not_mem (h : Tallies labels entries) (hl : label ∉ labels) :
    Tallies (labels ++ [label]) (entries ++ [(label, 1)]) := by
  refine ⟨fun other m => ?_, ?_⟩
  · rw [List.mem_append, List.mem_singleton, h.mem_iff, List.count_append]
    by_cases hother : other = label
    · subst hother
      simp [hl, List.count_eq_zero_of_not_mem hl]
    · simp [hother, Ne.symm hother]
  · rw [List.map_append]
    refine List.pairwise_append.2 ⟨h.in_order_concat label, List.pairwise_singleton _ _, ?_⟩
    intro a ha b hb
    obtain rfl := List.mem_singleton.1 hb
    have ha := h.mem_map_fst_iff.1 ha
    rw [List.idxOf_append_of_mem ha, List.idxOf_append_of_notMem hl]
    exact Nat.lt_add_right _ (List.idxOf_lt_length_iff.2 ha)

theorem concat_of_mem {front back : List (Text × Nat)} {n : Nat}
    (h : Tallies labels (front ++ (label, n) :: back)) :
    Tallies (labels ++ [label]) (front ++ (label, n + 1) :: back) := by
  have hnames : (front ++ (label, n + 1) :: back).map Prod.fst =
      (front ++ (label, n) :: back).map Prod.fst := by
    simp
  obtain ⟨hl, hn⟩ := (h.mem_iff label n).1 (by simp)
  refine ⟨fun other m => ?_, ?_⟩
  · by_cases hother : other = label
    · subst hother
      obtain ⟨hfront, hback⟩ := h.not_mem_of_mem m
      simp [hfront, hback, hn, List.count_append]
    · have hkept := h.mem_iff other m
      have hcount : (labels ++ [label]).count other = labels.count other := by
        simp [List.count_append, Ne.symm hother]
      rw [hcount]
      simpa [hother] using hkept
  · rw [hnames]
    exact h.in_order_concat label

/-- **One more label is counted.** -/
theorem concat (h : Tallies labels entries) (label : Text) :
    Tallies (labels ++ [label]) (countLabel label entries) := by
  by_cases hl : label ∈ labels
  · obtain ⟨front, n, back, rfl, hcount⟩ := countLabel_of_mem (h.mem_map_fst_iff.2 hl)
    rw [hcount]
    exact h.concat_of_mem
  · rw [countLabel_of_not_mem (mt h.mem_map_fst_iff.1 hl)]
    exact h.concat_of_not_mem hl

/-- **All labels are counted.** -/
theorem foldl_countLabel (labels : List Text) :
    Tallies labels (labels.foldl (fun entries label => countLabel label entries) []) := by
  induction labels using List.reverseRecOn with
  | nil => exact .nil
  | append_singleton labels label ih =>
    rw [List.foldl_concat]
    exact ih.concat label

end Tallies

theorem sum_foldl_countLabel (labels : List Text) :
    ((labels.foldl (fun entries label => countLabel label entries) []).map Prod.snd).sum =
      labels.length := by
  induction labels using List.reverseRecOn with
  | nil => rfl
  | append_singleton labels label ih =>
    rw [List.foldl_concat, sum_countLabel, ih, List.length_append, List.length_singleton]

/-! ## The greatest count -/

/-- The entry that is taken has a greater count than those before it, and none behind it has a greater
one. -/
theorem exists_eq_append_mostCounted (best : Text × Nat) (entries : List (Text × Nat)) :
    ∃ front back, best :: entries = front ++ mostCounted best entries :: back ∧
      (∀ entry ∈ front, entry.2 < (mostCounted best entries).2) ∧
      ∀ entry ∈ back, entry.2 ≤ (mostCounted best entries).2 := by
  induction entries generalizing best with
  | nil => exact ⟨[], [], rfl, List.forall_mem_nil _, List.forall_mem_nil _⟩
  | cons entry entries ih =>
    unfold mostCounted
    split
    · next hlt =>
      obtain ⟨front, back, heq, hfront, hback⟩ := ih entry
      refine ⟨best :: front, back, congrArg (best :: ·) heq, ?_, hback⟩
      refine List.forall_mem_cons.2 ⟨?_, hfront⟩
      cases front with
      | nil =>
        rw [← (List.cons.inj heq).1]
        exact hlt
      | cons first front =>
        obtain rfl : entry = first := (List.cons.inj heq).1
        exact Nat.lt_trans hlt (hfront entry List.mem_cons_self)
    · next hle =>
      obtain ⟨front, back, heq, hfront, hback⟩ := ih best
      cases front with
      | nil =>
        obtain ⟨hbest, rfl⟩ := List.cons.inj heq
        rw [← hbest] at hback ⊢
        exact ⟨[], entry :: entries, rfl, List.forall_mem_nil _,
          List.forall_mem_cons.2 ⟨Nat.le_of_not_lt hle, hback⟩⟩
      | cons first front =>
        obtain ⟨rfl, hrest⟩ := List.cons.inj heq
        refine ⟨best :: entry :: front, back, congrArg (best :: entry :: ·) hrest, ?_, hback⟩
        obtain ⟨hbest, hfront⟩ := List.forall_mem_cons.1 hfront
        exact List.forall_mem_cons.2 ⟨hbest, List.forall_mem_cons.2 ⟨by omega, hfront⟩⟩

/-- No label occurs more often, and of those that occur as often it is the first to occur. -/
structure Leads (labels : List Text) (label : Text) : Prop where
  mem : label ∈ labels
  count_le : ∀ other ∈ labels, labels.count other ≤ labels.count label
  first : ∀ other ∈ labels, labels.count other = labels.count label →
    labels.idxOf label ≤ labels.idxOf other

theorem Tallies.leads_mostCounted {best : Text × Nat} (h : Tallies labels (best :: entries)) :
    Leads labels (mostCounted best entries).1 ∧
      (mostCounted best entries).2 = labels.count (mostCounted best entries).1 := by
  obtain ⟨front, back, heq, hfront, hback⟩ := exists_eq_append_mostCounted best entries
  generalize mostCounted best entries = most at heq hfront hback ⊢
  obtain ⟨label, n⟩ := most
  rw [heq] at h
  obtain ⟨hmem, rfl⟩ := (h.mem_iff label n).1 (by simp)
  -- The entries behind belong to labels that occur later.
  have horder : ∀ entry ∈ back, labels.idxOf label < labels.idxOf entry.1 := by
    have hpairs := h.in_order
    rw [List.map_append, List.map_cons] at hpairs
    have hlabel := (List.pairwise_cons.1 (List.pairwise_append.1 hpairs).2.1).1
    exact fun entry hentry => hlabel entry.1 (List.mem_map_of_mem hentry)
  have hcases (other : Text) (hother : other ∈ labels) :
      labels.count other < labels.count label ∨ other = label ∨
        labels.count other ≤ labels.count label ∧ labels.idxOf label < labels.idxOf other := by
    have hentry := (h.mem_iff other _).2 ⟨hother, rfl⟩
    rcases List.mem_append.1 hentry with hentry | hentry
    · exact .inl (hfront _ hentry)
    · rcases List.mem_cons.1 hentry with heq | hentry
      · exact .inr (.inl (congrArg Prod.fst heq))
      · exact .inr (.inr ⟨hback _ hentry, horder _ hentry⟩)
  refine ⟨⟨hmem, fun other hother => ?_, fun other hother hcount => ?_⟩, rfl⟩
  · rcases hcases other hother with hlt | rfl | ⟨hle, -⟩
    · exact Nat.le_of_lt hlt
    · exact Nat.le_refl _
    · exact hle
  · rcases hcases other hother with hlt | rfl | ⟨-, hlt⟩
    · exact absurd hcount (Nat.ne_of_lt hlt)
    · exact Nat.le_refl _
    · exact Nat.le_of_lt hlt

/-! ## Traces -/

namespace Trace

theorem tallies_counts (t : Trace) : Tallies t.labels t.counts := Tallies.foldl_countLabel t.labels

/-- **The labels of a trace are counted as they occur.** Every label has one entry among the counts, with
the number of its occurrences; the entries stand in the order in which the labels first occur, and their
numbers add up to the number of steps. The summary of a trace with steps names the label that occurs most
often, and of several such labels the one that occurs first. -/
theorem tallied (t : Trace) :
    Tallies t.labels t.counts ∧ (t.counts.map Prod.snd).sum = t.steps.length ∧
      (t.steps = [] → t.summary = "No rewriting performed".toList) ∧
      (t.steps ≠ [] → ∃ label, Leads t.labels label ∧
        t.summary = Text.ofNat t.steps.length ++ " steps (".toList ++
          (if t.settled then "normal form".toList else "step limit reached".toList) ++
          "). Most used: ".toList ++ label ++ " (".toList ++ Text.ofNat (t.labels.count label) ++
          "x)".toList) := by
  have hlen : t.labels.length = t.steps.length := List.length_map _
  have htallies := t.tallies_counts
  have hsum : (t.counts.map Prod.snd).sum = t.steps.length :=
    (sum_foldl_countLabel t.labels).trans hlen
  refine ⟨htallies, hsum, fun hsteps => ?_, fun hsteps => ?_⟩
  · unfold summary counts labels
    rw [hsteps]
    rfl
  · cases hcounts : t.counts with
    | nil =>
      rw [hcounts] at hsum
      exact absurd (List.length_eq_zero_iff.1 hsum.symm) hsteps
    | cons best entries =>
      rw [hcounts] at htallies
      obtain ⟨hleads, hcount⟩ := htallies.leads_mostCounted
      refine ⟨_, hleads, ?_⟩
      rw [← hcount]
      unfold summary
      rw [hcounts]

/-- A step inside brackets, two with one combinator, and one with a combinator that is called as the
first step is labelled. -/
def tied : Trace :=
  ⟨"(Ia)".toList,
    [⟨.compound, some ⟨"(Ia)".toList, .compound⟩, "(Ia)".toList, ['a'], true, none⟩,
      ⟨.rule, some ⟨['K'], .name⟩, "KKab".toList, "Kb".toList, true, some .k⟩,
      ⟨.rule, some ⟨['K'], .name⟩, "Kab".toList, ['a'], true, some .k⟩,
      ⟨.rule, some ⟨"(...)".toList, .compound⟩, "(...)".toList, ['I'], true,
        some ⟨"(...)".toList, 0, ['I'], by decide⟩⟩],
    ['I'], false⟩

/-- Both labels occur twice, and the one that occurs first is named. -/
theorem tallied_tied :
    tied.counts = [("(...)".toList, 2), (['K'], 2)] ∧
      tied.summary = "4 steps (step limit reached). Most used: (...) (2x)".toList := by
  refine ⟨by decide, ?_⟩
  obtain ⟨label, hleads, hsummary⟩ := (tallied tied).2.2.2 (by decide)
  have hlabels : tied.labels = ["(...)".toList, ['K'], ['K'], "(...)".toList] := by decide
  have hmem := hleads.mem
  have hfirst := hleads.first "(...)".toList (by decide)
  rw [hlabels] at hmem hfirst
  simp only [List.mem_cons, List.not_mem_nil, or_false] at hmem
  have hlabel : label = "(...)".toList := by
    rcases hmem with rfl | rfl | rfl | rfl
    · rfl
    · exact absurd (hfirst (by decide)) (by decide)
    · exact absurd (hfirst (by decide)) (by decide)
    · rfl
  rw [hsummary, hlabel]
  decide

end Trace

end Combinatory
