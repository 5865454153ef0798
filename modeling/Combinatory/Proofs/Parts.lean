import Combinatory.Text.Line

/-!
# Parts and lines

Texts that are put side by side with separators between them are found again where the text is cut at
the separators: as the parts between commas (`Text.split_intercalate`) and as lines
(`Text.lines_append_break`, `Text.lines_intercalate`). What is cut out holds no separator
(`Text.mem_of_mem_split`, `Text.not_isBreak_of_mem_lines`).
-/

namespace Combinatory.Text

/-! ## Parts between separators -/

section Split

variable {sep : Char} {t u : Text}

theorem split_cons_self (sep : Char) (t : Text) : split sep (sep :: t) = [] :: split sep t :=
  if_pos rfl

theorem split_cons_of_ne {c : Char} {us : List Text} (hc : c ≠ sep) (h : split sep t = u :: us) :
    split sep (c :: t) = (c :: u) :: us := by
  rw [split, if_neg hc, h]

theorem split_of_not_mem (h : sep ∉ u) : split sep u = [u] := by
  induction u with
  | nil => rfl
  | cons c cs ih =>
    obtain ⟨hc, hcs⟩ := List.ne_and_not_mem_of_not_mem_cons h
    exact split_cons_of_ne (Ne.symm hc) (ih hcs)

theorem split_append (h : sep ∉ u) (t : Text) : split sep (u ++ sep :: t) = u :: split sep t := by
  induction u with
  | nil => exact split_cons_self sep t
  | cons c cs ih =>
    obtain ⟨hc, hcs⟩ := List.ne_and_not_mem_of_not_mem_cons h
    exact split_cons_of_ne (Ne.symm hc) (ih hcs)

theorem split_intercalate {us : List Text} (hne : us ≠ []) (h : ∀ u ∈ us, sep ∉ u) :
    split sep ([sep].intercalate us) = us := by
  induction us with
  | nil => exact absurd rfl hne
  | cons u us ih =>
    obtain ⟨hu, hus⟩ := List.forall_mem_cons.1 h
    cases us with
    | nil =>
      rw [List.intercalate_singleton]
      exact split_of_not_mem hu
    | cons v vs =>
      rw [List.intercalate_cons_cons, List.append_assoc, List.singleton_append, split_append hu,
        ih (List.cons_ne_nil v vs) hus]

theorem mem_of_mem_split {c : Char} (hu : u ∈ split sep t) (hc : c ∈ u) : c ∈ t ∧ c ≠ sep := by
  induction t generalizing u with
  | nil =>
    obtain rfl := List.mem_singleton.1 hu
    simp at hc
  | cons x xs ih =>
    have hrest : ∀ {v}, v ∈ split sep xs → c ∈ v → c ∈ x :: xs ∧ c ≠ sep :=
      fun hv hcv => (ih hv hcv).imp_left (List.mem_cons_of_mem x)
    unfold split at hu
    split at hu
    · rcases List.mem_cons.1 hu with rfl | hu
      · simp at hc
      · exact hrest hu hc
    · next hx =>
      cases hs : split sep xs with
      | nil => exact absurd hs (split_ne_nil sep xs)
      | cons part parts =>
        rw [hs] at hu hrest
        rcases List.mem_cons.1 hu with rfl | hu
        · rcases List.mem_cons.1 hc with rfl | hc
          · exact ⟨List.mem_cons_self, hx⟩
          · exact hrest List.mem_cons_self hc
        · exact hrest (List.mem_cons_of_mem part hu) hc

end Split

/-! ## Lines -/

section Lines

variable {t l : Text}

theorem ne_cr_of_not_isBreak {c : Char} (h : isBreak c = false) : c ≠ '\r' := by
  rintro rfl
  exact absurd h (by decide)

theorem lines_of_not_isBreak {c : Char} (hc : isBreak c = false) (t : Text) :
    lines (c :: t) = (c :: (lines t).headD []) :: (lines t).tail := by
  rw [lines.eq_3 c t fun _ hr => absurd hr (ne_cr_of_not_isBreak hc), hc]
  cases lines t <;> rfl

theorem lines_cons {c : Char} {l : Text} {ls : List Text} (hc : isBreak c = false)
    (h : lines t = l :: ls) : lines (c :: t) = (c :: l) :: ls := by
  rw [lines_of_not_isBreak hc, h]
  rfl

/-- A carriage return before a line feed is a part of the break that the line feed is. -/
theorem lines_cr_cons (h : t.head? = some '\n') : lines ('\r' :: t) = lines t := by
  obtain ⟨u, rfl⟩ := List.head?_eq_some_iff.1 h
  rfl

theorem lines_of_isBreak {c : Char} (hc : isBreak c = true) (h : c = '\r' → t.head? ≠ some '\n') :
    lines (c :: t) = [] :: lines t := by
  rw [lines.eq_3 c t fun u hr ht => h hr (ht ▸ rfl), if_pos hc]

theorem lines_of_isBreak_of_ne_cr {c : Char} (hc : isBreak c = true) (hr : c ≠ '\r') (t : Text) :
    lines (c :: t) = [] :: lines t :=
  lines_of_isBreak hc fun h => absurd h hr

theorem exists_lines_eq_cons (h : t ≠ []) : ∃ l ls, lines t = l :: ls := by
  induction t with
  | nil => exact absurd rfl h
  | cons c cs ih =>
    cases hc : isBreak c with
    | false => exact ⟨_, _, lines_of_not_isBreak hc cs⟩
    | true =>
      by_cases hcr : c = '\r' ∧ cs.head? = some '\n'
      · obtain ⟨rfl, hlf⟩ := hcr
        rw [lines_cr_cons hlf]
        exact ih (by rintro rfl; simp at hlf)
      · exact ⟨_, _, lines_of_isBreak hc fun hr hlf => hcr ⟨hr, hlf⟩⟩

theorem lines_append_break (h : ∀ c ∈ l, isBreak c = false) (t : Text) :
    lines (l ++ '\n' :: t) = l :: lines t := by
  induction l with
  | nil => rfl
  | cons c cs ih =>
    exact lines_cons (h c List.mem_cons_self) (ih fun x hx => h x (List.mem_cons_of_mem c hx))

theorem lines_of_forall (hne : l ≠ []) (h : ∀ c ∈ l, isBreak c = false) : lines l = [l] := by
  induction l with
  | nil => exact absurd rfl hne
  | cons c cs ih =>
    have hc := h c List.mem_cons_self
    cases cs with
    | nil => exact lines_of_not_isBreak hc []
    | cons x xs =>
      exact lines_cons hc (ih (List.cons_ne_nil x xs) fun y hy => h y (List.mem_cons_of_mem c hy))

/-- **Lines that are written are found again**, if none of them is empty or holds a break. -/
theorem lines_intercalate {ls : List Text}
    (h : ∀ l ∈ ls, l ≠ [] ∧ ∀ c ∈ l, isBreak c = false) : lines (['\n'].intercalate ls) = ls := by
  induction ls with
  | nil => rfl
  | cons l ls ih =>
    obtain ⟨hne, hl⟩ := h l List.mem_cons_self
    have hls : lines (['\n'].intercalate ls) = ls := ih fun x hx => h x (List.mem_cons_of_mem l hx)
    cases ls with
    | nil => simpa [List.intercalate] using lines_of_forall hne hl
    | cons x xs =>
      have hjoin : ['\n'].intercalate (l :: x :: xs) = l ++ '\n' :: ['\n'].intercalate (x :: xs) := by
        simp [List.intercalate]
      rw [hjoin, lines_append_break hl, hls]

theorem not_isBreak_of_mem_lines {c : Char} (hl : l ∈ lines t) (hc : c ∈ l) : isBreak c = false := by
  fun_induction lines t generalizing l with
  | case1 => simp at hl
  | case2 cs ih =>
    rcases List.mem_cons.1 hl with rfl | hl
    · simp at hc
    · exact ih hl hc
  | case3 x xs _ hx ih =>
    rcases List.mem_cons.1 hl with rfl | hl
    · simp at hc
    · exact ih hl hc
  | case4 x xs _ hx hs ih =>
    obtain rfl := List.mem_singleton.1 hl
    obtain rfl := List.mem_singleton.1 hc
    exact Bool.not_eq_true _ ▸ hx
  | case5 x xs _ hx line rest hs ih =>
    rw [hs] at ih
    rcases List.mem_cons.1 hl with rfl | hl
    · rcases List.mem_cons.1 hc with rfl | hc
      · exact Bool.not_eq_true _ ▸ hx
      · exact ih List.mem_cons_self hc
    · exact ih (List.mem_cons_of_mem line hl) hc

end Lines

end Combinatory.Text
