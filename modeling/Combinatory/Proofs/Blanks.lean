import Combinatory.Proofs.DocumentLines

/-!
# Blanks in documents

Space, full-width space and tab have no meaning in a document, wherever they stand: in names, in numbers
and in comments as well as between the two characters of a line break. There they make two breaks of one,
but the line between the two is blank, and it is passed over.

1. What lines hold are the lines without their blanks, blank lines left out (`Document.contents`). It is
   the same whether the blanks are left out of a text before it is cut into lines, or out of the lines
   (`Document.contents_lines`). The proof compares the first lines apart from the others, because what
   stands before a text becomes a part of its first line.
2. What lines are read as depends on nothing but what they hold, the number of the line at fault aside
   (`Document.mapError_readLines`).

`Document.blanks_never_matter` puts these together.
-/

namespace Combinatory

namespace Text

variable {t : Text} {c : Char}

theorem withoutFieldBlanks_cons_of_blank (h : isFieldBlank c = true) (t : Text) :
    withoutFieldBlanks (c :: t) = withoutFieldBlanks t :=
  List.filter_cons_of_neg (by simp [h])

theorem withoutFieldBlanks_cons_of_not_blank (h : isFieldBlank c = false) (t : Text) :
    withoutFieldBlanks (c :: t) = c :: withoutFieldBlanks t :=
  List.filter_cons_of_pos (by simp [h])

theorem withoutFieldBlanks_withoutFieldBlanks (t : Text) :
    withoutFieldBlanks (withoutFieldBlanks t) = withoutFieldBlanks t := by
  unfold withoutFieldBlanks
  rw [List.filter_filter]
  simp only [Bool.and_self]

theorem isFieldBlank_eq_false_of_isBreak (h : isBreak c = true) : isFieldBlank c = false := by
  by_contra hblank
  simp only [isFieldBlank, Bool.not_eq_false, Bool.or_eq_true, decide_eq_true_eq] at hblank
  rcases hblank with (rfl | rfl) | rfl <;> exact absurd h (by decide)

end Text

namespace Document

variable {t u l : Text} {ls ms : List Text} {c : Char}

/-! ## What lines hold -/

/-- What lines hold: each of them without its blanks, unless it is blank. -/
def contents (ls : List Text) : List Text := (ls.map Text.withoutFieldBlanks).filter (· ≠ [])

theorem contents_cons_of_blank (h : Text.withoutFieldBlanks l = []) (ls : List Text) :
    contents (l :: ls) = contents ls := by
  unfold contents
  rw [List.map_cons, h]
  exact List.filter_cons_of_neg (by simp)

theorem contents_cons_of_ne_nil (h : Text.withoutFieldBlanks l ≠ []) (ls : List Text) :
    contents (l :: ls) = Text.withoutFieldBlanks l :: contents ls :=
  List.filter_cons_of_pos (by simpa using h)

theorem contents_eq_headD (ls : List Text) : contents ls = contents (ls.headD [] :: ls.tail) := by
  cases ls with
  | nil => exact (contents_cons_of_blank rfl []).symm
  | cons l ls => rfl

theorem contents_congr
    (hhead : Text.withoutFieldBlanks (ls.headD []) = Text.withoutFieldBlanks (ms.headD []))
    (htail : contents ls.tail = contents ms.tail) : contents ls = contents ms := by
  rw [contents_eq_headD ls, contents_eq_headD ms]
  by_cases h : Text.withoutFieldBlanks (ms.headD []) = []
  · rw [contents_cons_of_blank h, contents_cons_of_blank (hhead.trans h), htail]
  · rw [contents_cons_of_ne_nil h, contents_cons_of_ne_nil (hhead ▸ h), hhead, htail]

/-- Behind a break, the lines hold what those of the rest hold: a line feed that belongs to a carriage
return would only have ended a blank line. -/
theorem exists_lines_of_isBreak (hc : Text.isBreak c = true) (t : Text) :
    ∃ ls, Text.lines (c :: t) = [] :: ls ∧ contents ls = contents (Text.lines t) := by
  by_cases h : c = '\r' ∧ t.head? = some '\n'
  · obtain ⟨rfl, hlf⟩ := h
    obtain ⟨u, rfl⟩ := List.head?_eq_some_iff.1 hlf
    exact ⟨Text.lines u, rfl, (contents_cons_of_blank rfl (Text.lines u)).symm⟩
  · exact ⟨Text.lines t, Text.lines_of_isBreak hc fun hr hlf => h ⟨hr, hlf⟩, rfl⟩

theorem lines_withoutFieldBlanks (t : Text) :
    Text.withoutFieldBlanks ((Text.lines (Text.withoutFieldBlanks t)).headD []) =
        Text.withoutFieldBlanks ((Text.lines t).headD []) ∧
      contents (Text.lines (Text.withoutFieldBlanks t)).tail = contents (Text.lines t).tail := by
  induction t with
  | nil => exact ⟨rfl, rfl⟩
  | cons c t ih =>
    obtain ⟨hhead, htail⟩ := ih
    by_cases hbreak : Text.isBreak c = true
    · obtain ⟨ls, hls, hheld⟩ := exists_lines_of_isBreak hbreak t
      obtain ⟨ms, hms, hheld'⟩ := exists_lines_of_isBreak hbreak (Text.withoutFieldBlanks t)
      rw [Text.withoutFieldBlanks_cons_of_not_blank (Text.isFieldBlank_eq_false_of_isBreak hbreak),
        hls, hms]
      refine ⟨rfl, ?_⟩
      calc contents ms = contents (Text.lines (Text.withoutFieldBlanks t)) := hheld'
        _ = contents (Text.lines t) := contents_congr hhead htail
        _ = contents ls := hheld.symm
    · rw [Bool.not_eq_true] at hbreak
      cases hblank : Text.isFieldBlank c with
      | true =>
        rw [Text.withoutFieldBlanks_cons_of_blank hblank, Text.lines_of_not_isBreak hbreak]
        refine ⟨?_, htail⟩
        rw [List.headD_cons, Text.withoutFieldBlanks_cons_of_blank hblank, hhead]
      | false =>
        rw [Text.withoutFieldBlanks_cons_of_not_blank hblank, Text.lines_of_not_isBreak hbreak,
          Text.lines_of_not_isBreak hbreak]
        refine ⟨?_, htail⟩
        rw [List.headD_cons, List.headD_cons, Text.withoutFieldBlanks_cons_of_not_blank hblank,
          Text.withoutFieldBlanks_cons_of_not_blank hblank, hhead]

/-- **Blanks may be left out before a text is cut into lines**, and its lines hold the same. -/
theorem contents_lines (t : Text) :
    contents (Text.lines (Text.withoutFieldBlanks t)) = contents (Text.lines t) :=
  contents_congr (lines_withoutFieldBlanks t).1 (lines_withoutFieldBlanks t).2

/-! ## What lines are read as -/

theorem combinator?_withoutFieldBlanks (hl : ∀ c ∈ l, Text.isBreak c = false) :
    combinator? (Text.withoutFieldBlanks l) = combinator? l := by
  have hkept : ∀ c ∈ Text.withoutFieldBlanks l, Text.isBreak c = false :=
    fun c hc => hl c (List.mem_filter.1 hc).1
  unfold combinator? record?
  dsimp only
  rw [dropWhile_ending hl, dropWhile_ending hkept, List.reverse_reverse, List.reverse_reverse,
    Text.withoutFieldBlanks_withoutFieldBlanks]

theorem mapError_readLines_cons (n : Nat) (l : Text) (ls : List Text) :
    (readLines n (l :: ls)).mapError DocumentError.reason =
      combinator? l >>= fun o =>
        ((readLines (n + 1) ls).mapError DocumentError.reason).map (o.toList ++ ·) := by
  rw [readLines_cons]
  cases combinator? l with
  | error reason => rfl
  | ok o =>
    show ((readLines (n + 1) ls).map (o.toList ++ ·)).mapError DocumentError.reason =
      ((readLines (n + 1) ls).mapError DocumentError.reason).map (o.toList ++ ·)
    cases readLines (n + 1) ls <;> rfl

/-- **What lines are read as depends on nothing but what they hold**, the number of the line at fault
aside. -/
theorem mapError_readLines (hls : ∀ l ∈ ls, ∀ c ∈ l, Text.isBreak c = false) (n m : Nat) :
    (readLines n ls).mapError DocumentError.reason =
      (readLines m (contents ls)).mapError DocumentError.reason := by
  induction ls generalizing n m with
  | nil => rfl
  | cons l ls ih =>
    obtain ⟨hl, hls⟩ := List.forall_mem_cons.1 hls
    rw [mapError_readLines_cons]
    by_cases hblank : Text.withoutFieldBlanks l = []
    · rw [contents_cons_of_blank hblank, combinator?_of_blank hl hblank, ih hls (n + 1) m]
      cases readLines m (contents ls) <;> rfl
    · rw [contents_cons_of_ne_nil hblank, mapError_readLines_cons,
        combinator?_withoutFieldBlanks hl, ih hls (n + 1) (m + 1)]

/-- The texts are read as the same combinators, or they are at fault for the same reason, though the line
at fault need not have the same number. -/
def ReadAlike (t u : Text) : Prop :=
  (∃ ds, read t = .ok ds ∧ read u = .ok ds) ∨
    ∃ reason n m, read t = .error ⟨n, reason⟩ ∧ read u = .error ⟨m, reason⟩

theorem readAlike_of_mapError_eq
    (h : (read t).mapError DocumentError.reason = (read u).mapError DocumentError.reason) :
    ReadAlike t u := by
  rcases ht : read t with ⟨n, reason⟩ | ds <;> rcases hu : read u with ⟨m, reason'⟩ | ds' <;>
    rw [ht, hu] at h
  · obtain rfl : reason = reason' := Except.error.inj h
    exact .inr ⟨reason, n, m, ht, hu⟩
  · simp [Except.mapError] at h
  · simp [Except.mapError] at h
  · obtain rfl : ds = ds' := Except.ok.inj h
    exact .inl ⟨ds, ht, hu⟩

/-- **Blanks never matter.** A document is read like the text without any space, full-width space and
tab. So it is read like any text that differs from it in such blanks only, wherever they are put in or
left out. -/
theorem blanks_never_matter (t : Text) :
    ReadAlike t (Text.withoutFieldBlanks t) ∧
      ∀ u, Text.withoutFieldBlanks u = Text.withoutFieldBlanks t → ReadAlike t u := by
  have hheld (u : Text) : (read u).mapError DocumentError.reason =
      (readLines 1 (contents (Text.lines (Text.withoutFieldBlanks u)))).mapError
        DocumentError.reason := by
    rw [contents_lines]
    exact mapError_readLines (not_isBreak_of_mem_lines u) 1 1
  constructor
  · apply readAlike_of_mapError_eq
    rw [hheld t, hheld (Text.withoutFieldBlanks t), Text.withoutFieldBlanks_withoutFieldBlanks]
  · intro u hu
    apply readAlike_of_mapError_eq
    rw [hheld t, hheld u, hu]

/-- Blanks in a line break, in a name and in a number. The line at fault has another number where the
break is not divided. -/
theorem blanks_never_matter_break :
    read "K c,\u30001 0,a\r \n,\t".toList = .error ⟨3, .emptyName⟩ ∧
      read "Kc,10,a\r\n,".toList = .error ⟨2, .emptyName⟩ ∧
      ReadAlike "K c,\u30001 0,a\r \n,\t".toList "Kc,10,a\r\n,".toList :=
  ⟨rfl, rfl, (blanks_never_matter _).2 _ (by decide)⟩

end Document

end Combinatory
