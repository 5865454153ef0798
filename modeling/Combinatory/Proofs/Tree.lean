import Combinatory.Proofs.Boundary

/-!
# Buffers taken apart

A buffer is cut into terms, the inside of every compound is cut again, and so on until no compound is
left. `Basis.parse` gives the trees that come of it; it ends because what a compound holds is shorter
than the buffer. `Tree.printAll` writes trees down.

1. A tree is whole when its leaves hold no bracket and its compounds are closed (`Tree.Whole`). A
   balanced buffer is taken apart into whole trees (`Basis.whole_of_mem_parse`, by induction on the
   length).
2. Whole trees are written as the text that they were made of (`Tree.Whole.print_eq`), and they are the
   only ones that their terms are taken apart into (`Tree.Whole.eq_tree`), both by induction on the
   tree.

`Basis.parse_balanced` puts these together.
-/

namespace Combinatory

/-! ## Trees -/

/-- A term, and for a compound the trees of its inside. -/
inductive Tree
  | leaf (t : Term)
  | group (t : Term) (inside : List Tree)

namespace Tree

def term : Tree → Term
  | leaf t | group t _ => t

mutual

/-- A tree as it is written: a leaf as it stands, a compound in one pair of brackets. -/
def print : Tree → Text
  | leaf t => t.text
  | group _ inside => bracketed (printAll inside)

def printAll : List Tree → Text
  | [] => []
  | x :: xs => print x ++ printAll xs

end

end Tree

namespace Basis

/-- The trees of a buffer: those of its terms, where a compound has the trees of its inside. -/
def parse (R : Basis) (b : Text) : List Tree :=
  (R.splitTerms b).attach.map fun t =>
    if t.1.kind = .compound then .group t.1 (R.parse t.1.interior) else .leaf t.1
termination_by b.length
decreasing_by exact length_interior_lt t.2

def tree (R : Basis) (t : Term) : Tree :=
  if t.kind = .compound then .group t (R.parse t.interior) else .leaf t

theorem parse_eq (R : Basis) (b : Text) : R.parse b = (R.splitTerms b).map R.tree := by
  rw [parse]
  exact List.attach_map_val (f := R.tree)

theorem term_tree (R : Basis) (t : Term) : (R.tree t).term = t := by
  unfold tree
  split <;> rfl

theorem map_term_parse (R : Basis) (b : Text) : (R.parse b).map Tree.term = R.splitTerms b := by
  rw [parse_eq, List.map_map]
  exact List.map_id'' R.term_tree _

end Basis

/-! ## Texts without brackets -/

def BracketFree (t : Text) : Prop := ∀ c ∈ t, c ≠ '(' ∧ c ≠ ')'

instance (t : Text) : Decidable (BracketFree t) :=
  decidable_of_iff (t.all (fun c => c != '(' && c != ')') = true) (by simp [BracketFree])

namespace Basis

variable {R : Basis} {b rest : Text} {t : Term}

def BracketFreeNames (R : Basis) : Prop := ∀ d ∈ R.combinators, BracketFree d.name

instance (R : Basis) : Decidable R.BracketFreeNames := inferInstanceAs (Decidable (∀ d ∈ _, _))

theorem BracketFreeNames.balanced (hR : R.BracketFreeNames) : R.BalancedNames := fun d hd =>
  balanced_of_forall (hR d hd)

theorem Cut.bracketFree (h : R.Cut b t rest) (hR : R.BracketFreeNames) (ht : Balanced t.text)
    (hk : t.kind ≠ .compound) : BracketFree t.text := by
  cases h with
  | compound hb => exact absurd rfl hk
  | var hb hc =>
    intro x hx
    rcases List.mem_cons.1 hx with rfl | hx
    · exact not_bracket_of_isVariableStart hc
    · exact not_bracket_of_isSubscript (List.mem_takeWhile_imp hx)
  | name hb ho hc hd hr => exact hR _ (mem_of_findPrefix? hd)
  | symbol hb ho hc hd =>
    intro x hx
    obtain rfl := List.mem_singleton.1 hx
    exact ⟨ho, ht.ne_close⟩

end Basis

/-! ## Whole trees -/

/-- A tree that is taken apart as far as it goes: a leaf is a variable, a name or a symbol, as its text
is read on its own, and holds no bracket; a compound is closed around a balanced inside, of which it
has the terms, again as whole trees. -/
inductive Tree.Whole (R : Basis) : Tree → Prop
  | leaf {t : Term} (hk : t.kind ≠ .compound) (hne : t.text ≠ []) (hfree : BracketFree t.text)
      (hself : R.takeTerm? t.text = some (t, [])) : Whole R (.leaf t)
  | group {t : Term} {inside : List Tree} (hk : t.kind = .compound) (hclosed : t.Closed)
      (hinside : inside.map Tree.term = R.splitTerms t.interior)
      (hwhole : ∀ x ∈ inside, Whole R x) : Whole R (.group t inside)

namespace Tree

variable {R : Basis} {x : Tree} {xs : List Tree}

theorem printAll_eq_join (h : ∀ x ∈ xs, x.print = x.term.text) :
    printAll xs = Term.join (xs.map term) := by
  induction xs with
  | nil => rfl
  | cons x xs ih =>
    unfold printAll
    rw [h x List.mem_cons_self, ih fun y hy => h y (List.mem_cons_of_mem x hy), List.map_cons,
      Term.join_cons]

/-- **A whole tree is written as the text that it was made of.** -/
theorem Whole.print_eq (h : x.Whole R) : x.print = x.term.text := by
  induction h with
  | leaf => rfl
  | @group t inside _ hclosed hinside _ ih =>
    show bracketed (printAll inside) = t.text
    rw [printAll_eq_join ih, hinside, R.join_splitTerms, ← hclosed.1]

/-- **A whole tree is the one that its term is taken apart into.** -/
theorem Whole.eq_tree (h : x.Whole R) : x = R.tree x.term := by
  induction h with
  | leaf hk => exact (if_neg hk).symm
  | @group t inside hk _ hinside _ ih =>
    have hparse : R.parse t.interior = inside := by
      rw [R.parse_eq, ← hinside, List.map_map]
      exact (List.map_congr_left fun y hy => (ih y hy).symm).trans (List.map_id inside)
    show _ = R.tree t
    unfold Basis.tree
    rw [if_pos hk, hparse]

theorem printAll_of_whole {b : Text} (hb : xs.map term = R.splitTerms b)
    (h : ∀ x ∈ xs, x.Whole R) : printAll xs = b := by
  rw [printAll_eq_join fun x hx => (h x hx).print_eq, hb, R.join_splitTerms]

theorem eq_parse_of_whole {b : Text} (hb : xs.map term = R.splitTerms b)
    (h : ∀ x ∈ xs, x.Whole R) : xs = R.parse b := by
  rw [R.parse_eq, ← hb, List.map_map]
  exact (List.map_id xs).symm.trans (List.map_congr_left fun x hx => (h x hx).eq_tree)

end Tree

namespace Basis

variable {R : Basis} {b : Text}

/-- **A balanced buffer is taken apart into whole trees.** -/
theorem whole_of_mem_parse (hR : R.BracketFreeNames) (hb : Balanced b) :
    ∀ x ∈ R.parse b, x.Whole R := by
  induction hn : b.length using Nat.strong_induction_on generalizing b with
  | _ n ih =>
    rw [parse_eq]
    intro x hx
    obtain ⟨t, ht, rfl⟩ := List.mem_map.1 hx
    obtain ⟨htext, hclosed⟩ := forall_mem_splitTerms hR.balanced hb t ht
    unfold tree
    split
    · next hk =>
      -- The inside is balanced because the compound is closed, and shorter than the buffer.
      have hshort : t.interior.length < n := hn ▸ length_interior_lt ht
      exact .group hk (hclosed hk) (R.map_term_parse _) (ih _ hshort (hclosed hk).2 rfl)
    · next hk =>
      obtain ⟨_, _, _, -, hcut⟩ := exists_cut_of_mem_splitTerms ht
      exact .leaf hk hcut.text_ne_nil (hcut.bracketFree hR htext hk) hcut.self.takeTerm?_eq

/-- **A balanced buffer is taken apart completely, and printed back.** Over names without brackets, a
balanced buffer has trees that stand for its terms and are whole: every compound in them is closed
around a balanced inside and has the trees of this inside, and every leaf is a variable, a name or a
symbol, not empty and without brackets. These trees are written as the buffer, and no other trees are
whole and stand for its terms. -/
theorem parse_balanced (hR : R.BracketFreeNames) (hb : Balanced b) :
    (R.parse b).map Tree.term = R.splitTerms b ∧ (∀ x ∈ R.parse b, x.Whole R) ∧
      Tree.printAll (R.parse b) = b ∧
      ∀ xs : List Tree, xs.map Tree.term = R.splitTerms b → (∀ x ∈ xs, x.Whole R) →
        xs = R.parse b := by
  have hterms := R.map_term_parse b
  have hwhole := whole_of_mem_parse hR hb
  exact ⟨hterms, hwhole, Tree.printAll_of_whole hterms hwhole, fun _ => Tree.eq_parse_of_whole⟩

/-- Brackets around nothing are a tree without trees inside, and a variable keeps its subscripts. -/
theorem parse_balanced_nested :
    standard.parse "(K())a_1".toList =
        [.group ⟨"(K())".toList, .compound⟩
            [.leaf ⟨['K'], .name⟩, .group ⟨"()".toList, .compound⟩ []],
          .leaf ⟨"a_1".toList, .var⟩] ∧
      Tree.printAll (standard.parse "(K())a_1".toList) = "(K())a_1".toList := by
  obtain ⟨-, -, hprint, honly⟩ := parse_balanced (R := standard) (b := "(K())a_1".toList)
    (by decide) (by decide)
  have hgroup : standard.Cut "(K())a_1".toList ⟨"(K())".toList, .compound⟩ "a_1".toList :=
    cut_iff.1 rfl
  have hvar : standard.Cut "a_1".toList ⟨"a_1".toList, .var⟩ [] := cut_iff.1 rfl
  have houter : standard.splitTerms "(K())a_1".toList =
      [⟨"(K())".toList, .compound⟩, ⟨"a_1".toList, .var⟩] := by
    rw [hgroup.splitTerms_eq, hvar.splitTerms_eq, splitTerms_nil]
  have hname : standard.Cut "K()".toList ⟨['K'], .name⟩ "()".toList := cut_iff.1 rfl
  have hpair : standard.Cut "()".toList ⟨"()".toList, .compound⟩ [] := cut_iff.1 rfl
  have hinner : standard.splitTerms "K()".toList = [⟨['K'], .name⟩, ⟨"()".toList, .compound⟩] := by
    rw [hname.splitTerms_eq, hpair.splitTerms_eq, splitTerms_nil]
  have hempty : (Tree.group ⟨"()".toList, .compound⟩ []).Whole standard :=
    .group rfl ⟨rfl, by decide⟩ (splitTerms_nil _).symm (by simp)
  have hk : (Tree.leaf ⟨['K'], .name⟩).Whole standard :=
    .leaf (by decide) (by decide) (by decide) rfl
  have hx : (Tree.leaf ⟨"a_1".toList, .var⟩).Whole standard :=
    .leaf (by decide) (by decide) (by decide) rfl
  refine ⟨Eq.symm (honly _ houter.symm ?_), hprint⟩
  refine List.forall_mem_cons.2 ⟨?_, List.forall_mem_singleton.2 hx⟩
  refine .group rfl ⟨rfl, by decide⟩ hinner.symm ?_
  exact List.forall_mem_cons.2 ⟨hk, List.forall_mem_singleton.2 hempty⟩

end Basis

end Combinatory
