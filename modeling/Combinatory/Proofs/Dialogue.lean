import Combinatory.Console.Session
import Mathlib.Data.List.DropRight

/-!
# Comments in a dialogue

A dialogue goes from prompt to prompt (`Session.Reaches`), and what follows a prompt depends on nothing
but the session at it (`Session.Reaches.run_append`).

A line is answered when no bracket is open, and is kept pending else. A comment that leaves no bracket
open is answered with silence, and the dialogue is at the same prompt again (`Session.take_comment`).
But the brackets are counted before the console is asked, also those of a comment: one that leaves a
bracket open is kept pending, and the lines after it become a part of it (`Session.take_pending`).

`Session.transparent_iff`: a comment makes no difference to whatever follows exactly if it leaves no
bracket open.
-/

namespace Combinatory

/-! ## The ends of a line -/

namespace Text

theorem trim_eq_rdropWhile (t : Text) : trim t = (trimLeft t).rdropWhile isBlank := rfl

theorem not_isBlank_of_trimLeft {t cs : Text} {c : Char} (h : trimLeft t = c :: cs) :
    isBlank c = false := by
  have hhead := List.head?_dropWhile_not isBlank t
  rw [show t.dropWhile isBlank = c :: cs from h] at hhead
  exact hhead

theorem head?_trim (t : Text) : (trim t).head? = (trimLeft t).head? := by
  rw [trim_eq_rdropWhile]
  cases hleft : trimLeft t with
  | nil => rw [List.rdropWhile_nil]
  | cons c cs =>
    have hne : (c :: cs).rdropWhile isBlank ≠ [] := by
      intro hnil
      have hblank := List.rdropWhile_eq_nil_iff.1 hnil c List.mem_cons_self
      rw [not_isBlank_of_trimLeft hleft] at hblank
      simp at hblank
    rw [List.head?_eq_some_head hne, (List.rdropWhile_prefix isBlank (c :: cs)).head hne]
    rfl

theorem head?_trimLeft_append {t : Text} {c : Char} (h : (trimLeft t).head? = some c) (u : Text) :
    (trimLeft (t ++ u)).head? = some c := by
  unfold trimLeft at h ⊢
  rw [List.dropWhile_append]
  split
  · next hnil =>
    rw [List.isEmpty_iff.1 hnil] at h
    simp at h
  · rw [List.head?_append, h, Option.some_or]

end Text

/-! ## Comments -/

namespace Repl

variable {fs : FileSystem} {c : Repl} {line : Text}

theorem classify_of_comment (h : (Text.trimLeft line).head? = some '#') :
    classify line = .comment := by
  rw [← Text.head?_trim] at h
  obtain ⟨cs, hcs⟩ : ∃ cs, Text.trim line = '#' :: cs := List.head?_eq_some_iff.1 h
  unfold classify
  rw [hcs]
  rfl

theorem evaluate_of_comment (h : classify line = .comment) (fs : FileSystem) (c : Repl) :
    c.evaluate fs line = (c, .ok .silence) := by
  unfold evaluate
  rw [h]

theorem events_of_comment (h : classify line = .comment) (fs : FileSystem) (c : Repl) :
    c.events fs line = [] := by
  unfold events
  rw [h]

end Repl

namespace Session

variable {fs : FileSystem} {verbose : Bool} {s s' mid last : Session} {t : Text}

/-! ## One prompt -/

theorem isOpen_eq_true_iff :
    isOpen t = true ↔ 0 < depth t ∧ (Text.trimLeft t).head? ≠ some ':' := by
  simp [isOpen]

theorem isOpen_eq_false_iff :
    isOpen t = false ↔ (Text.trimLeft t).head? = some ':' ∨ depth t ≤ 0 := by
  rw [Bool.eq_false_iff, ne_eq, isOpen_eq_true_iff]
  constructor
  · intro h
    by_cases hcolon : (Text.trimLeft t).head? = some ':'
    · exact .inl hcolon
    · exact .inr (by by_contra hdepth; exact h ⟨by omega, hcolon⟩)
  · rintro (hcolon | hdepth) ⟨hpos, hne⟩
    · exact hne hcolon
    · omega

theorem take_of_isOpen (fs : FileSystem) (verbose : Bool) (h : isOpen (s.pending ++ t) = true) :
    s.take fs verbose (.line t) = ({ s with pending := s.pending ++ t }, [], none) := if_pos h

theorem take_of_evaluate (verbose : Bool) {c : Repl} {reply : Reply}
    (h : isOpen (s.pending ++ t) = false)
    (hreply : s.repl.evaluate fs (s.pending ++ t) = (c, .ok reply)) :
    s.take fs verbose (.line t) =
      (⟨c, []⟩, logOf fs verbose s.repl (s.pending ++ t) ++ shown reply, none) := by
  unfold take
  dsimp only
  rw [if_neg (Bool.eq_false_iff.1 h), hreply]

theorem take_quit (fs : FileSystem) (verbose : Bool) (hs : s.pending = []) :
    s.take fs verbose (.line ":quit".toList) =
      (⟨{ s.repl with running := false }, []⟩, [], none) := by
  have hlog : logOf fs verbose s.repl ":quit".toList = [] := ite_self []
  rw [← List.nil_append ":quit".toList, ← hs] at hlog
  rw [take_of_evaluate verbose (by rw [hs]; rfl) (by rw [hs]; rfl), hlog]
  rfl

theorem logOf_of_comment (h : Repl.classify t = .comment) (fs : FileSystem) (verbose : Bool)
    (c : Repl) : logOf fs verbose c t = [] := by
  unfold logOf
  rw [Repl.events_of_comment h]
  exact ite_self []

theorem take_of_comment (fs : FileSystem) (verbose : Bool) (h : isOpen (s.pending ++ t) = false)
    (hline : Repl.classify (s.pending ++ t) = .comment) :
    s.take fs verbose (.line t) = (⟨s.repl, []⟩, [], none) := by
  rw [take_of_evaluate verbose h (Repl.evaluate_of_comment hline fs s.repl), logOf_of_comment hline]
  rfl

/-- **A comment that leaves no bracket open is answered with silence**, and nothing has changed. -/
theorem take_comment (fs : FileSystem) (verbose : Bool) (hs : s.pending = [])
    (ht : (Text.trimLeft t).head? = some '#') (hdepth : depth t ≤ 0) :
    s.take fs verbose (.line t) = (s, [], none) := by
  have hopen : isOpen (s.pending ++ t) = false := by
    rw [hs, List.nil_append]
    exact isOpen_eq_false_iff.2 (.inr hdepth)
  have hline : Repl.classify (s.pending ++ t) = .comment := by
    rw [hs, List.nil_append]
    exact Repl.classify_of_comment ht
  rw [take_of_comment fs verbose hopen hline, ← hs]

/-- **While a comment is pending, whatever line follows becomes a part of it**: nothing is told, and the
console does not change. -/
theorem take_pending (fs : FileSystem) (verbose : Bool)
    (hs : (Text.trimLeft s.pending).head? = some '#') (t : Text) :
    ∃ pending, s.take fs verbose (.line t) = (⟨s.repl, pending⟩, [], none) := by
  cases hopen : isOpen (s.pending ++ t) with
  | true => exact ⟨s.pending ++ t, take_of_isOpen fs verbose hopen⟩
  | false =>
    have hline := Repl.classify_of_comment (Text.head?_trimLeft_append hs t)
    exact ⟨[], take_of_comment fs verbose hopen hline⟩

/-! ## From prompt to prompt -/

/-- What is typed brings the dialogue from the prompt of `s` to that of `s'`, with the output `out`. -/
inductive Reaches (fs : FileSystem) (verbose : Bool) :
    Session → List Typed → Session → List Output → Prop
  | nil (s : Session) : Reaches fs verbose s [] s []
  | cons {s mid last : Session} {typed : Typed} {rest : List Typed} {out more : List Output}
      (hs : s.repl.running = true) (h : s.take fs verbose typed = (mid, out, none))
      (hrest : Reaches fs verbose mid rest last more) :
      Reaches fs verbose s (typed :: rest) last (.prompt (s.pending ≠ []) :: out ++ more)

theorem run_cons {typed : Typed} {out : List Output} (hs : s.repl.running = true)
    (h : s.take fs verbose typed = (mid, out, none)) (rest : List Typed) :
    s.run fs verbose (typed :: rest) =
      ((mid.run fs verbose rest).1,
        .prompt (s.pending ≠ []) :: out ++ (mid.run fs verbose rest).2.1,
        (mid.run fs verbose rest).2.2) := by
  conv_lhs => unfold run
  rw [if_pos hs, h]

/-- **A dialogue goes on from the prompt that it has come to.** -/
theorem Reaches.run_append {before : List Typed} {out : List Output}
    (h : s.Reaches fs verbose before s' out) (after : List Typed) :
    s.run fs verbose (before ++ after) =
      ((s'.run fs verbose after).1, out ++ (s'.run fs verbose after).2.1,
        (s'.run fs verbose after).2.2) := by
  induction h with
  | nil s => rfl
  | cons hs h _ ih => rw [List.cons_append, run_cons hs h, ih, List.append_assoc]

theorem Reaches.append {before after : List Typed} {out more : List Output}
    (h : s.Reaches fs verbose before mid out) (h' : mid.Reaches fs verbose after last more) :
    s.Reaches fs verbose (before ++ after) last (out ++ more) := by
  induction h with
  | nil s => exact h'
  | cons hs h _ ih =>
    rw [List.append_assoc]
    exact .cons hs h (ih h')

theorem Reaches.run_fst {before : List Typed} {out : List Output}
    (h : s.Reaches fs verbose before s' out) : (s.run fs verbose before).1 = s' := by
  have hend := h.run_append []
  rw [List.append_nil] at hend
  rw [hend]
  unfold run
  split <;> rfl

/-! ## Comments make no difference -/

/-- The line makes no difference where it is typed after `before`, when `out` has been told: one prompt
is told more, and whatever is typed after it, all other output, the session that is left and the failure
are the same. -/
def Transparent (fs : FileSystem) (verbose : Bool) (s : Session) (before : List Typed)
    (out : List Output) (line : Text) : Prop :=
  ∀ after, ∃ last more failure,
    s.run fs verbose (before ++ after) = (last, out ++ more, failure) ∧
    s.run fs verbose (before ++ .line line :: after) = (last, out ++ .prompt false :: more, failure)

/-- **Which comments make no difference.** At a prompt of a dialogue where nothing is pending, a comment
makes no difference to whatever follows exactly if it leaves no bracket open. -/
theorem transparent_iff {before : List Typed} {out : List Output}
    (hbefore : s.Reaches fs verbose before s' out) (hs' : s'.repl.running = true)
    (hpending : s'.pending = []) (ht : (Text.trimLeft t).head? = some '#') :
    Transparent fs verbose s before out t ↔ depth t ≤ 0 := by
  constructor
  · intro h
    by_contra hdepth
    have hopen : isOpen (s'.pending ++ t) = true := by
      rw [hpending, List.nil_append]
      exact isOpen_eq_true_iff.2 ⟨by omega, by simp [ht]⟩
    have htake := take_of_isOpen fs verbose hopen
    rw [hpending, List.nil_append] at htake
    -- The line that would end the dialogue becomes a part of the comment.
    obtain ⟨pending, hswallow⟩ := take_pending fs verbose (s := ⟨s'.repl, t⟩) ht ":quit".toList
    have hquit := take_quit fs verbose hpending
    obtain ⟨last, more, failure, hwithout, hwith⟩ := h [.line ":quit".toList]
    have hstopped := (hbefore.append (.cons hs' hquit (.nil _))).run_fst
    have hrunning := (hbefore.append (.cons hs' htake (.cons hs' hswallow (.nil _)))).run_fst
    rw [hwithout] at hstopped
    rw [hwith] at hrunning
    have hsame := congrArg (fun q => q.repl.running) (hstopped.symm.trans hrunning)
    exact Bool.false_ne_true (hsame.trans hs')
  · intro hdepth after
    refine ⟨(s'.run fs verbose after).1, (s'.run fs verbose after).2.1,
      (s'.run fs verbose after).2.2, hbefore.run_append after, ?_⟩
    rw [hbefore.run_append, run_cons hs' (take_comment fs verbose hpending ht hdepth), hpending]
    rfl

/-- After a comment that leaves a bracket open, an expression is not answered any more. -/
theorem open_comment_swallows :
    ((⟨{}, []⟩ : Session).run (.ofList []) false [.line "Sabc".toList]).2.1 =
        [.prompt false, .result "Sabc\n  --(S)-->\nac(bc)".toList, .prompt false, .newline] ∧
      ((⟨{}, []⟩ : Session).run (.ofList []) false
        [.line "# (".toList, .line "Sabc".toList]).2.1 = [.prompt false, .prompt true, .prompt true, .newline] :=
  ⟨rfl, rfl⟩

/-- The comment is typed after an expression on two lines. -/
theorem transparent_iff_balanced :
    Reaches (.ofList []) false ⟨{}, []⟩ [.line "K(Ia)".toList, .line "(b".toList, .line "c)".toList]
      ⟨{}, []⟩ [.prompt false, .result "K(Ia)".toList, .prompt false, .prompt true,
        .result "(bc)\n  --((...))-->\nbc".toList] ∧
    (Text.trimLeft " # (S) ".toList).head? = some '#' ∧
    Transparent (.ofList []) false ⟨{}, []⟩
      [.line "K(Ia)".toList, .line "(b".toList, .line "c)".toList]
      [.prompt false, .result "K(Ia)".toList, .prompt false, .prompt true,
        .result "(bc)\n  --((...))-->\nbc".toList] " # (S) ".toList := by
  have hexpr : (⟨{}, []⟩ : Session).take (.ofList []) false (.line "K(Ia)".toList) =
    (⟨{}, []⟩, [.result "K(Ia)".toList], none) := rfl
  have hopen : (⟨{}, []⟩ : Session).take (.ofList []) false (.line "(b".toList) =
    (⟨{}, "(b".toList⟩, [], none) := rfl
  have hclose : (⟨{}, "(b".toList⟩ : Session).take (.ofList []) false (.line "c)".toList) =
    (⟨{}, []⟩, [.result "(bc)\n  --((...))-->\nbc".toList], none) := rfl
  have hbefore := Reaches.cons rfl hexpr (.cons rfl hopen (.cons rfl hclose (.nil _)))
  exact ⟨hbefore, rfl, (transparent_iff hbefore rfl rfl rfl).2 (by decide)⟩

end Session

end Combinatory
