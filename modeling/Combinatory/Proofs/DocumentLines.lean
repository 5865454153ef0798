import Combinatory.Definition.Document
import Combinatory.Proofs.Parts
import Combinatory.Proofs.StepCases

/-!
# What a document defines

A line of a document is blank, or a comment, or the definition of a combinator, or it is at fault
(`Document.Defines`).

1. The fields of a definition are the name, the arity unless the combinator is a constant, and the
   template (`Combinator.GivenBy`). The arity is what `Text.toInt?` reads; a name that is empty and an
   arity that is negative belong to no combinator.
2. A line without breaks is read as what it defines (`Document.combinator?_eq_ok_iff`), and the lines of
   a text hold no breaks.
3. A document is read if every line defines something or is passed over, and what it defines is read in
   order (`Document.read_eq_ok_iff`). Otherwise the first line at fault is told, where all lines count
   (`Document.exists_of_read_error`).
-/

namespace Combinatory

/-! ## Fields -/

namespace Combinator

variable {d : Combinator} {r : Record}

theorem make_eq_ok_iff {name template : Text} {arity : Int} :
    make name arity template = .ok d ↔
      d.name = name ∧ (d.arity : Int) = arity ∧ d.template = template := by
  unfold make
  constructor
  · intro h
    split at h
    · simp at h
    · split at h
      · simp at h
      · obtain rfl := Except.ok.inj h
        exact ⟨rfl, by dsimp only; omega, rfl⟩
  · rintro ⟨rfl, rfl, rfl⟩
    rw [dif_neg d.name_ne_nil, if_neg (by omega)]
    rfl

theorem ofRecord_eq_ok_iff :
    ofRecord r = .ok d ↔
      d.name = r.name ∧ Text.toInt? r.arity = some (d.arity : Int) ∧ d.template = r.template := by
  unfold ofRecord
  cases Text.toInt? r.arity with
  | none => simp
  | some n =>
    show make r.name n r.template = .ok d ↔ _
    rw [make_eq_ok_iff, Option.some_inj, eq_comm (a := n)]

/-- The fields are those of a definition of the combinator. -/
def GivenBy (d : Combinator) (fields : List Text) : Prop :=
  d.arity = 0 ∧ fields = [d.name, d.template] ∨
    ∃ arity, Text.toInt? arity = some (d.arity : Int) ∧ fields = [d.name, arity, d.template]

theorem ofFields_bind_eq_ok_iff {fields : List Field} :
    (Record.ofFields fields >>= ofRecord) = .ok d ↔ d.GivenBy (fields.map Field.plain) := by
  constructor
  · intro h
    cases hr : Record.ofFields fields with
    | error e => simp [hr, bind, Except.bind] at h
    | ok r =>
      rw [hr] at h
      obtain ⟨hname, harity, htemplate⟩ := ofRecord_eq_ok_iff.1 h
      unfold Record.ofFields at hr
      split at hr
      · obtain rfl := Except.ok.inj hr
        have hzero : (0 : Int) = d.arity := Option.some.inj harity
        exact .inl ⟨by omega, by rw [hname, htemplate]; rfl⟩
      · obtain rfl := Except.ok.inj hr
        exact .inr ⟨_, harity, by rw [hname, htemplate]; rfl⟩
      · simp at hr
  · rintro (⟨hzero, h⟩ | ⟨arity, harity, h⟩)
    · obtain ⟨name, _, rfl, hname, h⟩ := List.map_eq_cons_iff.1 h
      obtain ⟨template, _, rfl, htemplate, h⟩ := List.map_eq_cons_iff.1 h
      obtain rfl := List.map_eq_nil_iff.1 h
      show ofRecord ⟨name.plain, ['0'], template.plain⟩ = .ok d
      refine ofRecord_eq_ok_iff.2 ⟨hname.symm, ?_, htemplate.symm⟩
      rw [hzero]
      rfl
    · obtain ⟨name, _, rfl, hname, h⟩ := List.map_eq_cons_iff.1 h
      obtain ⟨field, _, rfl, hfield, h⟩ := List.map_eq_cons_iff.1 h
      obtain ⟨template, _, rfl, htemplate, h⟩ := List.map_eq_cons_iff.1 h
      obtain rfl := List.map_eq_nil_iff.1 h
      exact ofRecord_eq_ok_iff.2 ⟨hname.symm, hfield ▸ harity, htemplate.symm⟩

theorem ofFields_map_text_bind_eq_ok_iff {fields : List Text} :
    (Record.ofFields (fields.map .text) >>= ofRecord) = .ok d ↔ d.GivenBy fields := by
  have hplain : (fields.map .text).map Field.plain = fields := by
    rw [List.map_map]
    exact List.map_id fields
  rw [ofFields_bind_eq_ok_iff, hplain]

theorem GivenBy.exists_eq_cons {fields : List Text} (h : d.GivenBy fields) :
    ∃ others, fields = d.name :: others := by
  rcases h with ⟨-, rfl⟩ | ⟨arity, -, rfl⟩
  · exact ⟨_, rfl⟩
  · exact ⟨_, rfl⟩

theorem GivenBy.mem {fields : List Text} (h : d.GivenBy fields) :
    d.name ∈ fields ∧ d.template ∈ fields := by
  rcases h with ⟨-, rfl⟩ | ⟨arity, -, rfl⟩
  · simp
  · simp

end Combinator

/-! ## Lines -/

namespace Document

variable {line : Text} {o : Option Combinator} {d : Combinator} {n : Nat} {ls : List Text}
  {ds : List Combinator}

/-- What a line of a document defines, or that it is passed over. -/
inductive Defines (line : Text) : Option Combinator → Prop
  | blank (h : Text.withoutFieldBlanks line = []) : Defines line none
  | comment {cs : Text} (h : Text.withoutFieldBlanks line = '#' :: cs) : Defines line none
  /-- Without its blanks the line is made up of the fields, with commas between them. -/
  | definition {d : Combinator} {fields : List Text} (hd : d.GivenBy fields)
      (hcomma : ∀ field ∈ fields, ',' ∉ field) (hname : d.name.head? ≠ some '#')
      (h : Text.withoutFieldBlanks line = [','].intercalate fields) : Defines line (some d)

theorem dropWhile_ending (h : ∀ c ∈ line, Text.isBreak c = false) :
    (line.reverse.dropWhile fun c => c = '\r' || c = '\n') = line.reverse := by
  cases hl : line.reverse with
  | nil => rfl
  | cons c cs =>
    have hc := h c (List.mem_reverse.1 (hl ▸ List.mem_cons_self))
    refine List.dropWhile_cons_of_neg ?_
    rw [Bool.or_eq_true, decide_eq_true_eq, decide_eq_true_eq]
    rintro (rfl | rfl) <;> exact absurd hc (by decide)

theorem combinator?_of_blank (hline : ∀ c ∈ line, Text.isBreak c = false)
    (h : Text.withoutFieldBlanks line = []) : combinator? line = .ok none := by
  unfold combinator? record?
  dsimp only
  rw [dropWhile_ending hline, List.reverse_reverse, h]
  rfl

theorem combinator?_of_comment {cs : Text} (hline : ∀ c ∈ line, Text.isBreak c = false)
    (h : Text.withoutFieldBlanks line = '#' :: cs) : combinator? line = .ok none := by
  unfold combinator? record?
  dsimp only
  rw [dropWhile_ending hline, List.reverse_reverse, h]
  rfl

theorem combinator?_of_fields {c : Char} {cs : Text} (hline : ∀ c ∈ line, Text.isBreak c = false)
    (h : Text.withoutFieldBlanks line = c :: cs) (hc : c ≠ '#') :
    combinator? line =
      (Record.ofFields ((Text.split ',' (c :: cs)).map .text) >>= Combinator.ofRecord).map some := by
  unfold combinator? record?
  dsimp only
  rw [dropWhile_ending hline, List.reverse_reverse, h]
  split
  · next heq => simp at heq
  · next heq => exact absurd (List.cons.inj heq).1 hc
  · cases Record.ofFields ((Text.split ',' (c :: cs)).map .text) <;> rfl

theorem head?_intercalate_of_givenBy {fields : List Text} (h : d.GivenBy fields) :
    ([','].intercalate fields).head? = d.name.head? := by
  obtain ⟨c, cs, hname⟩ := List.exists_cons_of_ne_nil d.name_ne_nil
  obtain ⟨others, rfl⟩ := h.exists_eq_cons
  rw [hname]
  cases others with
  | nil => rw [List.intercalate_singleton]
  | cons x xs => rw [List.intercalate_cons_cons]; rfl

/-- **A line without breaks is read as what it defines.** -/
theorem combinator?_eq_ok_iff (hline : ∀ c ∈ line, Text.isBreak c = false) :
    combinator? line = .ok o ↔ Defines line o := by
  constructor
  · intro h
    cases hfields : Text.withoutFieldBlanks line with
    | nil =>
      rw [combinator?_of_blank hline hfields] at h
      obtain rfl := Except.ok.inj h
      exact .blank hfields
    | cons c cs =>
      by_cases hc : c = '#'
      · subst hc
        rw [combinator?_of_comment hline hfields] at h
        obtain rfl := Except.ok.inj h
        exact .comment hfields
      · rw [combinator?_of_fields hline hfields hc] at h
        obtain ⟨d, hd, rfl⟩ := exists_of_map_ok h
        have hgiven := Combinator.ofFields_map_text_bind_eq_ok_iff.1 hd
        have hjoin := Text.intercalate_split ',' (c :: cs)
        refine .definition hgiven (fun field hfield hmem => ?_) ?_ (hfields.trans hjoin.symm)
        · exact (Text.mem_of_mem_split hfield hmem).2 rfl
        · rw [← head?_intercalate_of_givenBy hgiven, hjoin]
          simpa using hc
  · intro h
    cases h with
    | blank h => exact combinator?_of_blank hline h
    | comment h => exact combinator?_of_comment hline h
    | @definition d fields hd hcomma hname h =>
      obtain ⟨others, hothers⟩ := hd.exists_eq_cons
      have hsplit : Text.split ',' ([','].intercalate fields) = fields :=
        Text.split_intercalate (by simp [hothers]) hcomma
      have hhead := head?_intercalate_of_givenBy hd
      obtain ⟨c, cs, hcs⟩ : ∃ c cs, [','].intercalate fields = c :: cs := by
        refine List.exists_cons_of_ne_nil fun hnil => d.name_ne_nil ?_
        rw [hnil] at hhead
        exact List.head?_eq_none_iff.1 hhead.symm
      rw [hcs] at h hsplit hhead
      have hc : c ≠ '#' := by
        rintro rfl
        exact hname hhead.symm
      rw [combinator?_of_fields hline h hc, hsplit]
      rw [Combinator.ofFields_map_text_bind_eq_ok_iff.2 hd]
      rfl

/-! ## Documents -/

/-- The lines define the combinators, in this order. -/
inductive DefineAll : List Text → List Combinator → Prop
  | nil : DefineAll [] []
  | cons {line : Text} {o : Option Combinator} {rest : List Text} {ds : List Combinator}
      (h : Defines line o) (hrest : DefineAll rest ds) : DefineAll (line :: rest) (o.toList ++ ds)

theorem exists_defineAll_iff : (∃ ds, DefineAll ls ds) ↔ ∀ line ∈ ls, ∃ o, Defines line o := by
  constructor
  · rintro ⟨ds, h⟩
    induction h with
    | nil => exact List.forall_mem_nil _
    | cons h _ ih => exact List.forall_mem_cons.2 ⟨⟨_, h⟩, ih⟩
  · intro h
    induction ls with
    | nil => exact ⟨[], .nil⟩
    | cons line ls ih =>
      obtain ⟨⟨o, ho⟩, hrest⟩ := List.forall_mem_cons.1 h
      obtain ⟨ds, hds⟩ := ih hrest
      exact ⟨o.toList ++ ds, .cons ho hds⟩

theorem DefineAll.exists_of_mem (h : DefineAll ls ds) (hd : d ∈ ds) :
    ∃ line ∈ ls, Defines line (some d) := by
  induction h with
  | nil => simp at hd
  | @cons line o ls ds h _ ih =>
    rcases List.mem_append.1 hd with hd | hd
    · obtain rfl : o = some d := Option.mem_toList.1 hd
      exact ⟨line, List.mem_cons_self, h⟩
    · obtain ⟨l, hl, hld⟩ := ih hd
      exact ⟨l, List.mem_cons_of_mem line hl, hld⟩

theorem readLines_cons (n : Nat) (l : Text) (ls : List Text) :
    readLines n (l :: ls) = (combinator? l).mapError (DocumentError.mk n) >>= fun o =>
      (readLines (n + 1) ls).map (o.toList ++ ·) := by
  conv_lhs => unfold readLines
  cases combinator? l <;> rfl

theorem readLines_eq_ok_iff (hls : ∀ line ∈ ls, ∀ c ∈ line, Text.isBreak c = false) :
    readLines n ls = .ok ds ↔ DefineAll ls ds := by
  constructor
  · intro h
    induction ls generalizing n ds with
    | nil =>
      obtain rfl : [] = ds := Except.ok.inj h
      exact .nil
    | cons line ls ih =>
      obtain ⟨hline, hls⟩ := List.forall_mem_cons.1 hls
      unfold readLines at h
      split at h
      · simp at h
      · next o ho =>
        obtain ⟨rest, hrest, rfl⟩ := exists_of_map_ok h
        exact .cons ((combinator?_eq_ok_iff hline).1 ho) (ih hls hrest)
  · intro h
    induction h generalizing n with
    | nil => rfl
    | cons h _ ih =>
      obtain ⟨hline, hls⟩ := List.forall_mem_cons.1 hls
      unfold readLines
      rw [(combinator?_eq_ok_iff hline).2 h]
      dsimp only
      rw [ih hls]
      rfl

theorem readLines_eq_error_iff {e : DocumentError} :
    readLines n ls = .error e ↔
      ∃ front line rest, ls = front ++ line :: rest ∧
        (∀ l ∈ front, ∃ o, combinator? l = .ok o) ∧ combinator? line = .error e.reason ∧
        e.line = n + front.length := by
  constructor
  · intro h
    induction ls generalizing n with
    | nil => simp [readLines] at h
    | cons line ls ih =>
      unfold readLines at h
      split at h
      · next reason hreason =>
        obtain rfl := Except.error.inj h
        exact ⟨[], line, ls, rfl, List.forall_mem_nil _, hreason, rfl⟩
      · next o ho =>
        obtain ⟨front, bad, rest, rfl, hfront, hbad, hn⟩ := ih (error_of_map_error h)
        refine ⟨line :: front, bad, rest, rfl, List.forall_mem_cons.2 ⟨⟨o, ho⟩, hfront⟩, hbad, ?_⟩
        rw [hn, List.length_cons]
        omega
  · rintro ⟨front, line, rest, rfl, hfront, hline, hn⟩
    induction front generalizing n with
    | nil =>
      obtain ⟨k, reason⟩ := e
      obtain rfl : k = n := hn
      rw [List.nil_append]
      unfold readLines
      rw [hline]
    | cons l front ih =>
      obtain ⟨⟨o, ho⟩, hfront⟩ := List.forall_mem_cons.1 hfront
      rw [List.cons_append]
      unfold readLines
      rw [ho]
      dsimp only
      rw [ih hfront (by rw [hn, List.length_cons]; omega)]
      rfl

theorem not_isBreak_of_mem_lines (t : Text) :
    ∀ line ∈ Text.lines t, ∀ c ∈ line, Text.isBreak c = false :=
  fun _ hline _ hc => Text.not_isBreak_of_mem_lines hline hc

/-- **What the lines of a document define is read**, in order. -/
theorem read_eq_ok_iff {t : Text} : read t = .ok ds ↔ DefineAll (Text.lines t) ds :=
  readLines_eq_ok_iff (not_isBreak_of_mem_lines t)

/-- **The first line at fault is told** by its place among all lines. -/
theorem exists_of_read_error {t : Text} {e : DocumentError} (h : read t = .error e) :
    ∃ front line rest, Text.lines t = front ++ line :: rest ∧
      (∀ l ∈ front, ∃ o, Defines l o) ∧ (¬ ∃ o, Defines line o) ∧ e.line = front.length + 1 := by
  obtain ⟨front, line, rest, hlines, hfront, hline, hn⟩ := readLines_eq_error_iff.1 h
  have hbreak := not_isBreak_of_mem_lines t
  rw [hlines] at hbreak
  refine ⟨front, line, rest, hlines, fun l hl => ?_, ?_, by omega⟩
  · obtain ⟨o, ho⟩ := hfront l hl
    exact ⟨o, (combinator?_eq_ok_iff (hbreak l (List.mem_append_left _ hl))).1 ho⟩
  · rintro ⟨o, ho⟩
    have hok := (combinator?_eq_ok_iff (hbreak line (by simp))).2 ho
    rw [hline] at hok
    simp at hok

end Document

end Combinatory
