import Combinatory.Basis
import Combinatory.Proofs.DocumentLines
import Combinatory.Proofs.Numeral

/-!
# Writing a basis as a document and reading it again

1. The line of a combinator defines this combinator, if its name and template hold nothing that has a
   meaning of its own in a document (`Document.defines_line`), and the heading is passed over
   (`Document.defines_heading`).
2. Nothing else is ever read: what a line defines holds no blank, comma or break, is not hidden behind
   `#`, and has an arity of few enough digits (`Document.legible_of_read`).

`Basis.read_document_iff`: a basis is read as it was written exactly when its names and templates allow
it.
-/

namespace Combinatory

/-! ## What a document can hold -/

/-- Whether a character has no meaning of its own in a definition: it is neither a blank that is left
out, nor the comma between fields, nor a line break. -/
def isFieldChar (c : Char) : Bool := !Text.isFieldBlank c && c != ',' && !Text.isBreak c

theorem isFieldChar_iff {c : Char} :
    isFieldChar c = true ↔ Text.isFieldBlank c = false ∧ c ≠ ',' ∧ Text.isBreak c = false := by
  simp [isFieldChar, and_assoc]

theorem isFieldChar_of_isDigit {c : Char} (h : c.isDigit = true) : isFieldChar c = true := by
  obtain ⟨hlo, hhi⟩ := Text.toNat_of_isDigit h
  have hne : ∀ x : Char, x.toNat < 48 ∨ 57 < x.toNat → c ≠ x := by
    rintro x hx rfl
    omega
  have hbreak : Text.isBreak c = false := by
    rw [← Bool.not_eq_true]
    intro hb
    simp only [Text.isBreak, Bool.or_eq_true, Bool.and_eq_true, decide_eq_true_eq,
      UInt32.le_iff_toNat_le, ← UInt32.toNat_inj] at hb
    unfold Char.toNat at hlo hhi
    simp only [UInt32.reduceToNat] at hb
    omega
  have hblank : Text.isFieldBlank c = false := by
    simp [Text.isFieldBlank, hne ' ' (by decide), hne '\u3000' (by decide), hne '\t' (by decide)]
  exact isFieldChar_iff.2 ⟨hblank, hne ',' (by decide), hbreak⟩

namespace Combinator

/-- The combinator can stand in a document. -/
structure Writable (d : Combinator) : Prop where
  name : ∀ c ∈ d.name, isFieldChar c = true
  template : ∀ c ∈ d.template, isFieldChar c = true
  /-- The name does not make a comment of the line. -/
  not_comment : d.name.head? ≠ some '#'

instance (d : Combinator) : Decidable d.Writable :=
  decidable_of_iff
    (d.name.all isFieldChar = true ∧ d.template.all isFieldChar = true ∧ d.name.head? ≠ some '#')
    ⟨fun ⟨hn, ht, hc⟩ => ⟨List.all_eq_true.1 hn, List.all_eq_true.1 ht, hc⟩,
      fun ⟨hn, ht, hc⟩ => ⟨List.all_eq_true.2 hn, List.all_eq_true.2 ht, hc⟩⟩

/-- Whether the arity of the combinator can be read from a document. -/
def ArityLegible (d : Combinator) : Prop := (Text.ofNat d.arity).length ≤ Text.maxDigits

theorem Writable.of_record_eq {d d' : Combinator} (h : d.Writable) (hr : d.record = d'.record) :
    d'.Writable := by
  have hname : d.name = d'.name := congrArg Record.name hr
  have htemplate : d.template = d'.template := congrArg Record.template hr
  exact ⟨hname ▸ h.name, htemplate ▸ h.template, hname ▸ h.not_comment⟩

end Combinator

namespace Document

variable {line : Text} {d : Combinator}

/-! ## The lines of a combinator and of a heading -/

theorem not_isBreak_of_mem {t : Text} (h : t.any Text.isBreak = false) :
    ∀ c ∈ t, Text.isBreak c = false := by
  intro c hc
  simpa using List.any_eq_false.1 h c hc

theorem not_isBreak_of_mem_heading {t : Text} (h : ∀ c ∈ t, Text.isBreak c = false) :
    ∀ c ∈ "# ".toList ++ t, Text.isBreak c = false := by
  intro c hc
  rcases List.mem_append.1 hc with hc | hc
  · exact not_isBreak_of_mem (by decide) c hc
  · exact h c hc

theorem defines_heading (t : Text) : Defines ("# ".toList ++ t) none := by
  have h : Text.withoutFieldBlanks ("# ".toList ++ t) = '#' :: Text.withoutFieldBlanks t := rfl
  exact .comment h

theorem withoutFieldBlanks_eq_self {t : Text} (h : ∀ c ∈ t, isFieldChar c = true) :
    Text.withoutFieldBlanks t = t :=
  List.filter_eq_self.2 fun c hc => by simp [(isFieldChar_iff.1 (h c hc)).1]

theorem withoutFieldBlanks_append (t u : Text) :
    Text.withoutFieldBlanks (t ++ u) = Text.withoutFieldBlanks t ++ Text.withoutFieldBlanks u :=
  List.filter_append ..

theorem isFieldChar_of_mem_ofNat {n : Nat} {c : Char} (h : c ∈ Text.ofNat n) :
    isFieldChar c = true := isFieldChar_of_isDigit (Text.isDigit_of_mem_ofNat h)

theorem not_isBreak_of_mem_line (hd : d.Writable) : ∀ c ∈ d.line, Text.isBreak c = false := by
  have hfield : ∀ {c}, isFieldChar c = true → Text.isBreak c = false := fun h =>
    (isFieldChar_iff.1 h).2.2
  have hcomma : ∀ c ∈ ", ".toList, Text.isBreak c = false := not_isBreak_of_mem (by decide)
  intro c hc
  simp only [Combinator.line, List.mem_append] at hc
  rcases hc with (((hc | hc) | hc) | hc) | hc
  · exact hfield (hd.name c hc)
  · exact hcomma c hc
  · exact hfield (isFieldChar_of_mem_ofNat hc)
  · exact hcomma c hc
  · exact hfield (hd.template c hc)

/-- **The line of a combinator defines this combinator.** -/
theorem defines_line (hd : d.Writable) (ha : d.ArityLegible) : Defines d.line (some d) := by
  have hcomma : ∀ {t : Text}, (∀ c ∈ t, isFieldChar c = true) → ',' ∉ t := fun h hc =>
    (isFieldChar_iff.1 (h _ hc)).2.1 rfl
  have hdigits : ∀ c ∈ Text.ofNat d.arity, isFieldChar c = true := fun c =>
    isFieldChar_of_mem_ofNat
  have hgiven : d.GivenBy [d.name, Text.ofNat d.arity, d.template] :=
    .inr ⟨_, Text.toInt?_ofNat ha, rfl⟩
  have hfields : Text.withoutFieldBlanks d.line =
      [','].intercalate [d.name, Text.ofNat d.arity, d.template] := by
    unfold Combinator.line
    rw [withoutFieldBlanks_append, withoutFieldBlanks_append, withoutFieldBlanks_append,
      withoutFieldBlanks_append, withoutFieldBlanks_eq_self hd.name,
      withoutFieldBlanks_eq_self hdigits, withoutFieldBlanks_eq_self hd.template]
    simp [Text.withoutFieldBlanks, Text.isFieldBlank, List.intercalate]
  refine .definition hgiven (fun field hfield => ?_) hd.not_comment hfields
  simp only [List.mem_cons, List.not_mem_nil, or_false] at hfield
  rcases hfield with rfl | rfl | rfl
  · exact hcomma hd.name
  · exact hcomma hdigits
  · exact hcomma hd.template

/-! ## What a line can define -/

theorem arityLegible_of_givenBy {fields : List Text} (h : d.GivenBy fields) : d.ArityLegible := by
  rcases h with ⟨hzero, -⟩ | ⟨arity, harity, -⟩
  · unfold Combinator.ArityLegible
    rw [hzero]
    decide
  · exact Text.length_ofNat_le_of_toInt? harity

/-- **What a line defines can be written**, in few enough digits. -/
theorem Defines.legible (hline : ∀ c ∈ line, Text.isBreak c = false) (h : Defines line (some d)) :
    d.Writable ∧ d.ArityLegible := by
  cases h with
  | @definition _ fields hd hcomma hname h =>
    have hfield : ∀ field ∈ fields, ∀ c ∈ field, isFieldChar c = true := by
      intro field hfield c hc
      have hsplit := Text.split_intercalate (List.ne_nil_of_mem hfield) hcomma
      obtain ⟨hmem, hne⟩ := Text.mem_of_mem_split (hsplit ▸ hfield) hc
      rw [← h] at hmem
      obtain ⟨hmem, hblank⟩ := List.mem_filter.1 hmem
      exact isFieldChar_iff.2 ⟨by simpa using hblank, hne, hline c hmem⟩
    obtain ⟨hname', htemplate⟩ := hd.mem
    exact ⟨⟨hfield _ hname', hfield _ htemplate, hname⟩, arityLegible_of_givenBy hd⟩

/-! ## Whole documents -/

theorem read_intercalate {ls : List Text} {ds : List Combinator}
    (h : ∀ l ∈ ls, l ≠ [] ∧ ∀ c ∈ l, Text.isBreak c = false) (hall : DefineAll ls ds) :
    read (['\n'].intercalate ls) = .ok ds := by
  rw [read_eq_ok_iff, Text.lines_intercalate h]
  exact hall

theorem forall_mem_map_line {ds : List Combinator} (hd : ∀ d ∈ ds, d.Writable) :
    ∀ l ∈ ds.map Combinator.line, l ≠ [] ∧ ∀ c ∈ l, Text.isBreak c = false := by
  intro l hl
  obtain ⟨d, hmem, rfl⟩ := List.mem_map.1 hl
  exact ⟨by simp [Combinator.line], not_isBreak_of_mem_line (hd d hmem)⟩

theorem defineAll_map_line {ds : List Combinator} (hd : ∀ d ∈ ds, d.Writable ∧ d.ArityLegible) :
    DefineAll (ds.map Combinator.line) ds := by
  induction ds with
  | nil => exact .nil
  | cons d ds ih =>
    obtain ⟨⟨hwrite, harity⟩, hrest⟩ := List.forall_mem_cons.1 hd
    exact .cons (defines_line hwrite harity) (ih hrest)

/-- **What a document defines can be written**, in few enough digits. -/
theorem legible_of_read {t : Text} {ds : List Combinator} (h : read t = .ok ds) :
    ∀ d ∈ ds, d.Writable ∧ d.ArityLegible := by
  intro d hd
  obtain ⟨l, hl, hld⟩ := (read_eq_ok_iff.1 h).exists_of_mem hd
  exact hld.legible fun c hc => Text.not_isBreak_of_mem_lines hl hc

end Document

namespace Basis

variable {R : Basis}

/-- **A basis that can be written is read as it was written**, whatever its title. -/
theorem read_document (hd : ∀ d ∈ R.combinators, d.Writable ∧ d.ArityLegible) {title : Option Text}
    (ht : ∀ t ∈ title, ∀ c ∈ t, Text.isBreak c = false) :
    Document.read (R.document title) = .ok R.combinators := by
  have hlines := Document.forall_mem_map_line fun d hmem => (hd d hmem).1
  have hall := Document.defineAll_map_line hd
  match title with
  | none => exact Document.read_intercalate hlines hall
  | some [] => exact Document.read_intercalate hlines hall
  | some (c :: cs) =>
    have hc : ∀ x ∈ c :: cs, Text.isBreak x = false := ht _ rfl
    refine Document.read_intercalate (List.forall_mem_cons.2 ⟨⟨by simp, ?_⟩, hlines⟩)
      (.cons (Document.defines_heading (c :: cs)) hall)
    exact Document.not_isBreak_of_mem_heading hc

/-- The bases that are made of the standard one or the empty one by appending documents. -/
inductive Loaded : Basis → Prop
  | initial (builtins : Bool) : Loaded (initial builtins)
  | extendDocument {R R' : Basis} {t : Text} (h : Loaded R) (ht : R.extendDocument t = .ok R') :
      Loaded R'

theorem Loaded.legible (h : R.Loaded) : ∀ d ∈ R.combinators, d.Writable ∧ d.ArityLegible := by
  induction h with
  | initial builtins =>
    cases builtins with
    | false => simp [Basis.initial, Basis.empty]
    | true =>
      unfold Combinator.ArityLegible
      decide
  | extendDocument _ ht ih =>
    obtain ⟨ds, hds, rfl⟩ := exists_of_map_ok ht
    intro d hd
    rcases List.mem_append.1 hd with hd | hd
    · exact ih d hd
    · exact Document.legible_of_read hds d hd

/-- **A basis is read as it was written exactly when it can be written.** Let the title hold no line
break. Over the empty basis, the document of a basis whose arities have few enough digits is read, with
the records of this basis, if and only if no name and no template holds a space, a full-width space, a
tab, a comma or a line break and no name begins with `#`. So it is for every basis that was made by
reading documents. -/
theorem read_document_iff {title : Option Text}
    (ht : ∀ t ∈ title, ∀ c ∈ t, Text.isBreak c = false) :
    (∀ R : Basis, (∀ d ∈ R.combinators, d.ArityLegible) →
      ((empty.extendDocument (R.document title)).map records = .ok R.records ↔
        ∀ d ∈ R.combinators, d.Writable)) ∧
    ∀ R : Basis, R.Loaded →
      (empty.extendDocument (R.document title)).map records = .ok R.records := by
  have hread : ∀ R : Basis, (∀ d ∈ R.combinators, d.Writable ∧ d.ArityLegible) →
      (empty.extendDocument (R.document title)).map records = .ok R.records := by
    intro R hR
    unfold extendDocument
    rw [read_document hR ht]
    rfl
  refine ⟨fun R harity => ⟨fun h => ?_, fun hR => hread R fun d hd => ⟨hR d hd, harity d hd⟩⟩,
    fun R hR => hread R hR.legible⟩
  obtain ⟨R', hR', hrecords⟩ := exists_of_map_ok h
  obtain ⟨ds, hds, rfl⟩ := exists_of_map_ok hR'
  intro d hd
  have hmem : d.record ∈ (empty.extend ds).records := hrecords ▸ List.mem_map_of_mem hd
  obtain ⟨d', hd', heq⟩ := List.mem_map.1 hmem
  exact (Document.legible_of_read hds d' hd').1.of_record_eq heq

/-- A title and a further constant do no harm; a comma in a template does. -/
theorem read_document_iff_numerals :
    (empty.extendDocument ((standard.append ⟨"<zero>".toList, 0, "(KI)".toList, by decide⟩).document
        (some "numerals".toList))).map records =
      .ok (standard.append ⟨"<zero>".toList, 0, "(KI)".toList, by decide⟩).records ∧
    (empty.extendDocument ((standard.append ⟨['T'], 0, "K,I".toList, by decide⟩).document none)).map
        records ≠
      .ok (standard.append ⟨['T'], 0, "K,I".toList, by decide⟩).records ∧
    (empty.extendDocument (standard.document none)).map records = .ok standard.records := by
  have htitle : ∀ t ∈ some "numerals".toList, ∀ c ∈ t, Text.isBreak c = false := by
    rintro t ⟨⟩
    exact Document.not_isBreak_of_mem (by decide)
  have hnone : ∀ t ∈ (none : Option Text), ∀ c ∈ t, Text.isBreak c = false := by simp
  refine ⟨?_, ?_, (read_document_iff hnone).2 standard (.initial true)⟩
  · refine ((read_document_iff htitle).1 _ ?_).2 (by decide)
    unfold Combinator.ArityLegible
    decide
  · intro h
    refine absurd (((read_document_iff hnone).1 _ ?_).1 h) (by decide)
    unfold Combinator.ArityLegible
    decide

end Basis

end Combinatory
