import Combinatory.Proofs.Answering
import Combinatory.Proofs.Dialogue

/-!
# The dialogue and the filter

The dialogue takes a line as it was typed, and the filter without the blanks around it; the dialogue
hands blank lines and comments to the console, and the filter passes over them; the dialogue waits
where a bracket is open, and the filter never does; the filter stops at the first expression that cannot
be reduced, and the dialogue never does.

1. The blanks around a line have no part in its answer (`Session.answer_trim`), and what is passed over
   would have been answered with silence (`Repl.classify_eq_comment_iff`).
2. The filter tells of lines that are answered well, and goes on behind them (`Session.filter_append`);
   at the first that is not it stops (`Session.filter_of_not_ok`).
3. The dialogue tells the same of them, between its prompts, when each is answered at once
   (`Session.reaches_of_answers`).

`Session.filter_agrees`: the filter and the dialogue tell the same and leave the same console.
-/

namespace Combinatory

namespace Text

theorem trimLeft_trim (t : Text) : trimLeft (trim t) = trim t := by
  refine List.dropWhile_eq_self_iff.2 fun hpos => ?_
  obtain ⟨c, cs, hcs⟩ := List.exists_cons_of_length_pos hpos
  have hhead : (trimLeft t).head? = some c := by rw [← head?_trim, hcs, List.head?_cons]
  obtain ⟨ds, hds⟩ := List.head?_eq_some_iff.1 hhead
  simp only [hcs, List.getElem_cons_zero]
  exact Bool.eq_false_iff.1 (not_isBlank_of_trimLeft hds)

theorem trim_trim (t : Text) : trim (trim t) = trim t := by
  rw [trim_eq_rdropWhile, trimLeft_trim, trim_eq_rdropWhile, List.rdropWhile_idempotent]

end Text

/-! ## Blanks around a line -/

namespace Repl

variable {fs : FileSystem} {c last : Repl} {line : Text} {lines : List Text} {replies : List Reply}

theorem classify_trim (line : Text) : classify (Text.trim line) = classify line := by
  unfold classify
  rw [Text.trim_trim]

theorem evaluate_trim (fs : FileSystem) (c : Repl) (line : Text) :
    c.evaluate fs (Text.trim line) = c.evaluate fs line := by
  unfold evaluate
  rw [classify_trim]

theorem events_trim (fs : FileSystem) (c : Repl) (line : Text) :
    c.events fs (Text.trim line) = c.events fs line := by
  unfold events
  rw [classify_trim]

theorem classify_eq_comment_iff :
    classify line = .comment ↔ Text.trim line = [] ∨ (Text.trim line).head? = some '#' := by
  unfold classify
  split
  · next h => simp [h]
  · next h => simp [h]
  · next h => simp [h]
  · next hnil hcomment _ =>
    simp only [reduceCtorEq, false_iff, not_or]
    refine ⟨hnil, fun h => ?_⟩
    obtain ⟨cs, hcs⟩ := List.head?_eq_some_iff.1 h
    exact hcomment cs hcs

theorem Answers.running (h : Answers fs c lines replies last)
    (hlines : ∀ line ∈ lines, classify line ≠ .command .quit) : last.running = c.running := by
  induction h with
  | nil c => rfl
  | cons h _ ih =>
    obtain ⟨hline, hlines⟩ := List.forall_mem_cons.1 hlines
    rw [ih hlines, running_of_evaluate h hline]

end Repl

/-- Whether a piece of output belongs to the dialogue and tells nothing of an answer. -/
def Output.isFrame : Output → Bool
  | .banner | .prompt _ | .cancelled | .newline => true
  | .result _ | .complaint _ | .log _ => false

namespace Session

variable {fs : FileSystem} {verbose : Bool} {c next last : Repl} {line : Text} {lines : List Text}
  {reply : Reply} {replies : List Reply}

/-! ## What is told -/

theorem logOf_trim (fs : FileSystem) (verbose : Bool) (c : Repl) (line : Text) :
    logOf fs verbose c (Text.trim line) = logOf fs verbose c line := by
  unfold logOf
  rw [Repl.events_trim]

theorem eq_log_of_mem_logOf {o : Output} (h : o ∈ logOf fs verbose c line) : ∃ e, o = .log e := by
  unfold logOf at h
  split at h
  · obtain ⟨e, -, rfl⟩ := List.mem_map.1 h
    exact ⟨e, rfl⟩
  · simp at h

theorem eq_result_of_mem_shown {o : Output} (h : o ∈ shown reply) : ∃ t, o = .result t := by
  unfold shown at h
  split at h
  · simp at h
  · simp at h
  · next t _ _ => exact ⟨t, List.mem_singleton.1 h⟩

/-- What is told of lines that are answered one after the other: the log and the texts of the
replies. -/
def told (fs : FileSystem) (verbose : Bool) (c : Repl) : List Text → List Output
  | [] => []
  | line :: rest =>
    match c.evaluate fs line with
    | (next, .ok reply) => logOf fs verbose c line ++ shown reply ++ told fs verbose next rest
    | (_, .error _) => logOf fs verbose c line

theorem told_cons (verbose : Bool) (h : c.evaluate fs line = (next, .ok reply))
    (rest : List Text) :
    told fs verbose c (line :: rest) =
      logOf fs verbose c line ++ shown reply ++ told fs verbose next rest := by
  conv_lhs => unfold told
  rw [h]

theorem results_told (verbose : Bool) (h : Repl.Answers fs c lines replies last) :
    (told fs verbose c lines).filter (!·.isError) = replies.flatMap shown := by
  induction h with
  | nil c => rfl
  | @cons c next last line lines reply replies h _ ih =>
    have hlog : (logOf fs verbose c line).filter (!·.isError) = [] := by
      refine List.filter_eq_nil_iff.2 fun o ho => ?_
      obtain ⟨e, rfl⟩ := eq_log_of_mem_logOf ho
      exact Bool.false_ne_true
    have hshown : (shown reply).filter (!·.isError) = shown reply := by
      refine List.filter_eq_self.2 fun o ho => ?_
      obtain ⟨t, rfl⟩ := eq_result_of_mem_shown ho
      rfl
    rw [told_cons verbose h, List.filter_append, List.filter_append, hlog, hshown, ih,
      List.nil_append, List.flatMap_cons]

theorem filter_isFrame (fs : FileSystem) (verbose : Bool) (c : Repl) (line : Text) (reply : Reply) :
    (logOf fs verbose c line ++ shown reply).filter (!·.isFrame) =
      logOf fs verbose c line ++ shown reply := by
  refine List.filter_eq_self.2 fun o ho => ?_
  rcases List.mem_append.1 ho with ho | ho
  · obtain ⟨e, rfl⟩ := eq_log_of_mem_logOf ho
    rfl
  · obtain ⟨t, rfl⟩ := eq_result_of_mem_shown ho
    rfl

/-! ## The filter -/

theorem answer_trim (fs : FileSystem) (verbose : Bool) (c : Repl) (line : Text) :
    answer fs verbose c (Text.trim line) = answer fs verbose c line := by
  unfold answer
  rw [Repl.evaluate_trim, logOf_trim]

theorem answer_of_ok (verbose : Bool) (h : c.evaluate fs line = (next, .ok reply))
    (hok : reply.ok = true) :
    answer fs verbose c line = (next, logOf fs verbose c line ++ shown reply, .ok 0) := by
  unfold answer
  rw [h]
  exact if_pos hok

theorem answer_of_not_ok (verbose : Bool) (h : c.evaluate fs line = (next, .ok reply))
    (hok : reply.ok = false) :
    answer fs verbose c line =
      (c, logOf fs verbose c line ++ [.complaint (reply.text?.getD [])], .ok 1) := by
  obtain rfl := Repl.eq_of_not_ok h hok
  unfold answer
  rw [h]
  exact if_neg (by simp [hok])

theorem filter_of_comment (fs : FileSystem) (verbose : Bool) (c : Repl)
    (h : Repl.classify line = .comment) (rest : List Text) :
    filter fs verbose c (line :: rest) = filter fs verbose c rest := by
  conv_lhs => unfold filter
  exact if_pos (Repl.classify_eq_comment_iff.1 h)

theorem filter_of_ok (verbose : Bool) (h : c.evaluate fs line = (next, .ok reply))
    (hok : reply.ok = true) (rest : List Text) :
    filter fs verbose c (line :: rest) =
      ((filter fs verbose next rest).1,
        logOf fs verbose c line ++ shown reply ++ (filter fs verbose next rest).2.1,
        (filter fs verbose next rest).2.2) := by
  by_cases hline : Repl.classify line = .comment
  · rw [Repl.evaluate_of_comment hline] at h
    obtain ⟨rfl, rfl⟩ := Repl.eq_of_answer_eq h
    rw [filter_of_comment fs verbose c hline, logOf_of_comment hline]
    rfl
  · conv_lhs => unfold filter
    dsimp only
    rw [if_neg (hline ∘ Repl.classify_eq_comment_iff.2), answer_trim, answer_of_ok verbose h hok]
    rfl

theorem filter_of_not_ok (verbose : Bool) (h : c.evaluate fs line = (next, .ok reply))
    (hok : reply.ok = false) (rest : List Text) :
    filter fs verbose c (line :: rest) =
      (c, logOf fs verbose c line ++ [.complaint (reply.text?.getD [])], .ok 1) := by
  have hline : Repl.classify line ≠ .comment := by
    intro hline
    rw [Repl.evaluate_of_comment hline] at h
    obtain ⟨-, rfl⟩ := Repl.eq_of_answer_eq h
    simp [Reply.ok] at hok
  conv_lhs => unfold filter
  dsimp only
  rw [if_neg (hline ∘ Repl.classify_eq_comment_iff.2), answer_trim, answer_of_not_ok verbose h hok]
  rfl

/-- **The filter goes on behind lines that are answered well.** -/
theorem filter_append (verbose : Bool) (h : Repl.Answers fs c lines replies last)
    (hok : ∀ reply ∈ replies, reply.ok = true) (after : List Text) :
    filter fs verbose c (lines ++ after) =
      ((filter fs verbose last after).1, told fs verbose c lines ++ (filter fs verbose last after).2.1,
        (filter fs verbose last after).2.2) := by
  induction h with
  | nil c => rfl
  | cons h _ ih =>
    obtain ⟨hreply, hreplies⟩ := List.forall_mem_cons.1 hok
    rw [List.cons_append, filter_of_ok verbose h hreply, ih hreplies, told_cons verbose h,
      List.append_assoc _ (told _ _ _ _)]

/-! ## The dialogue -/

/-- The line does not end the dialogue, and does not wait for more. -/
structure AtOnce (line : Text) : Prop where
  goesOn : Repl.classify line ≠ .command .quit
  complete : (Text.trimLeft line).head? = some ':' ∨ depth line ≤ 0

theorem AtOnce.isOpen_eq_false (h : AtOnce line) : isOpen line = false :=
  isOpen_eq_false_iff.2 h.complete

/-- **The dialogue tells the same of lines that are answered at once**, between its prompts. -/
theorem reaches_of_answers (verbose : Bool) (h : Repl.Answers fs c lines replies last)
    (hc : c.running = true) (hlines : ∀ line ∈ lines, AtOnce line) :
    ∃ out, Reaches fs verbose ⟨c, []⟩ (lines.map .line) ⟨last, []⟩ out ∧
      out.filter (!·.isFrame) = told fs verbose c lines := by
  induction h with
  | nil c => exact ⟨[], .nil _, rfl⟩
  | @cons c next last line lines reply replies h _ ih =>
    obtain ⟨hline, hlines⟩ := List.forall_mem_cons.1 hlines
    have htake := take_of_evaluate (s := ⟨c, []⟩) verbose hline.isOpen_eq_false h
    obtain ⟨more, hreaches, hmore⟩ := ih (by rw [Repl.running_of_evaluate h hline.goesOn, hc]) hlines
    refine ⟨_, .cons hc htake hreaches, ?_⟩
    rw [List.filter_append, hmore, told_cons verbose h,
      List.filter_cons_of_neg (by simp [Output.isFrame])]
    exact congrArg (· ++ _) (filter_isFrame fs verbose c line reply)

theorem run_nil (fs : FileSystem) (verbose : Bool) (hc : c.running = true) :
    run fs verbose ⟨c, []⟩ [] = (⟨c, []⟩, [.prompt false, .newline], none) := if_pos hc

/-- **The filter and the dialogue agree.** When lines are answered one after the other, and all of them
well:

* the filter tells of all of them, leaves the console that they leave, and gives the code 0;
* the dialogue tells the same and leaves the same console, if each line is answered at once;
* what both print, errors apart, are the texts of the replies;
* and if a line that is not answered well comes next, the filter tells no more than why and gives the
  code 1, whatever lines come behind it. -/
theorem filter_agrees (verbose : Bool) (h : Repl.Answers fs c lines replies last)
    (hok : ∀ reply ∈ replies, reply.ok = true) :
    filter fs verbose c lines = (last, told fs verbose c lines, .ok 0) ∧
    (c.running = true → (∀ line ∈ lines, AtOnce line) →
      ∃ out, run fs verbose ⟨c, []⟩ (lines.map .line) = (⟨last, []⟩, out, none) ∧
        out.filter (!·.isFrame) = told fs verbose c lines) ∧
    (told fs verbose c lines).filter (!·.isError) = replies.flatMap shown ∧
    ∀ line c' reply, last.evaluate fs line = (c', .ok reply) → reply.ok = false →
      ∃ why, (∀ o ∈ why, o.isError = true) ∧ ∀ after,
        filter fs verbose c (lines ++ line :: after) =
          (last, told fs verbose c lines ++ why, .ok 1) := by
  refine ⟨?_, fun hc hlines => ?_, results_told verbose h, fun line c' reply hline hreply => ?_⟩
  · have hend := filter_append verbose h hok []
    rw [List.append_nil] at hend
    rw [hend]
    unfold filter
    rw [List.append_nil]
  · obtain ⟨out, hreaches, hout⟩ := reaches_of_answers verbose h hc hlines
    have hlast : last.running = true := by
      rw [h.running fun line hmem => (hlines line hmem).goesOn, hc]
    have hend := hreaches.run_append []
    rw [List.append_nil, run_nil fs verbose hlast] at hend
    refine ⟨_, hend, ?_⟩
    rw [List.filter_append, hout]
    exact List.append_nil _
  · refine ⟨logOf fs verbose last line ++ [.complaint (reply.text?.getD [])], fun o ho => ?_,
      fun after => ?_⟩
    · rcases List.mem_append.1 ho with ho | ho
      · obtain ⟨e, rfl⟩ := eq_log_of_mem_logOf ho
        rfl
      · rw [List.mem_singleton.1 ho]
        rfl
    · rw [filter_append verbose h hok, filter_of_not_ok verbose hline hreply]

/-- A command and an expression are answered well, and then an expression is not balanced. -/
theorem filter_agrees_stopped :
    (∃ out, run (.ofList []) false ⟨{}, []⟩ [.line ":max 5".toList, .line " I a".toList] =
        (⟨{ maxSteps := 5 }, []⟩, out, none) ∧
      out.filter (!·.isFrame) = told (.ofList []) false {} [":max 5".toList, " I a".toList]) ∧
    (told (.ofList []) false {} [":max 5".toList, " I a".toList]).filter (!·.isError) =
      [.result "Step limit set to 5".toList, .result "Ia\n  --(I)-->\na".toList] ∧
    ∃ why, (∀ o ∈ why, o.isError = true) ∧ ∀ after,
      filter (.ofList []) false {} (":max 5".toList :: " I a".toList :: "(Ia".toList :: after) =
        ({ maxSteps := 5 }, told (.ofList []) false {} [":max 5".toList, " I a".toList] ++ why,
          .ok 1) := by
  have hmax : ({} : Repl).evaluate (.ofList []) ":max 5".toList =
    ({ maxSteps := 5 }, .ok (.maxSet 5)) := rfl
  have hexpr : ({ maxSteps := 5 } : Repl).evaluate (.ofList []) " I a".toList =
    ({ maxSteps := 5 }, .ok (({ maxSteps := 5 } : Repl).reduce "Ia".toList)) := rfl
  have hstop : ({ maxSteps := 5 } : Repl).evaluate (.ofList []) "(Ia".toList =
    ({ maxSteps := 5 }, .ok (.unbalanced "(Ia".toList)) := rfl
  have hok : ∀ reply ∈ [.maxSet 5, ({ maxSteps := 5 } : Repl).reduce "Ia".toList],
      reply.ok = true := List.forall_mem_cons.2 ⟨rfl, List.forall_mem_singleton.2 rfl⟩
  have hcommand : Repl.classify ":max 5".toList = .command (.max ['5']) := rfl
  have hline : Repl.classify " I a".toList = .expression "Ia".toList := rfl
  have honce : ∀ line ∈ [":max 5".toList, " I a".toList], AtOnce line :=
    List.forall_mem_cons.2 ⟨⟨by rw [hcommand]; simp, .inl rfl⟩,
      List.forall_mem_singleton.2 ⟨by rw [hline]; simp, .inr (by decide)⟩⟩
  obtain ⟨-, hrun, hresults, hfilter⟩ :=
    filter_agrees false (.cons hmax (.cons hexpr (.nil _))) hok
  exact ⟨hrun rfl honce, hresults, hfilter _ _ _ hstop rfl⟩

end Session

end Combinatory
