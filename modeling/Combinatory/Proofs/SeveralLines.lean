import Combinatory.Proofs.Dialogue
import Mathlib.Data.List.Induction
import Mathlib.Data.List.Infix

/-!
# Expressions on several lines

While a bracket is open, what has been typed is kept pending, and the next line is put behind it. So an
expression may be cut into lines wherever a bracket is open.

1. Whatever is typed, what is pending after it has an open bracket and begins no command
   (`Session.pending_of_take`), hence also what is pending at any prompt (`Session.Reaches.pending`).
2. Lines that leave a bracket open are put together, and nothing is told (`Session.LeavesOpen.reaches`).
3. The line that closes the last bracket is answered as if all had been typed in it
   (`Session.take_append`). What it answers is no command, and leaves the console as it is
   (`Repl.exists_reply_of_not_command`).

`Session.answered_as_one` puts these together.
-/

namespace Combinatory

theorem Repl.exists_reply_of_not_command {line : Text}
    (h : (Text.trimLeft line).head? ≠ some ':') (fs : FileSystem) (c : Repl) :
    ∃ reply, c.evaluate fs line = (c, .ok reply) := by
  unfold evaluate
  cases hline : classify line with
  | comment => exact ⟨.silence, rfl⟩
  | expression e => exact ⟨c.reduce e, rfl⟩
  | command k =>
    rw [← Text.head?_trim] at h
    unfold classify at hline
    split at hline
    · simp at hline
    · simp at hline
    · next cs hcs =>
      rw [hcs] at h
      exact absurd rfl h
    · simp at hline

namespace Session

variable {fs : FileSystem} {verbose : Bool} {s s' : Session}

/-! ## What is pending -/

theorem pending_of_take {typed : Typed} {out : List Output} {failure : Option ReadError}
    (h : s.take fs verbose typed = (s', out, failure)) :
    s'.pending = [] ∨ isOpen s'.pending = true := by
  cases typed with
  | interrupt =>
    obtain ⟨rfl, -⟩ := Prod.mk.inj h
    exact .inl rfl
  | line t =>
    by_cases hopen : isOpen (s.pending ++ t) = true
    · rw [take_of_isOpen fs verbose hopen] at h
      obtain ⟨rfl, -⟩ := Prod.mk.inj h
      exact .inr hopen
    · unfold take at h
      dsimp only at h
      rw [if_neg hopen] at h
      -- Whether the answer succeeds or fails, nothing is pending after it.
      rcases heval : s.repl.evaluate fs (s.pending ++ t) with ⟨c, e | reply⟩
      · rw [heval] at h
        obtain ⟨rfl, -⟩ := Prod.mk.inj h
        exact .inl rfl
      · rw [heval] at h
        obtain ⟨rfl, -⟩ := Prod.mk.inj h
        exact .inl rfl

theorem Reaches.pending {before : List Typed} {out : List Output}
    (h : s.Reaches fs verbose before s' out) (hs : s.pending = [] ∨ isOpen s.pending = true) :
    s'.pending = [] ∨ isOpen s'.pending = true := by
  induction h with
  | nil => exact hs
  | cons _ htake _ ih => exact ih (pending_of_take htake)

/-! ## Lines put together -/

/-- The prompts of `n` lines of which each but the last is kept pending. -/
def prompts : Nat → List Output
  | 0 => []
  | n + 1 => prompts n ++ [.prompt (n ≠ 0)]

theorem take_append (fs : FileSystem) (verbose : Bool) (c : Repl) (t u : Text) :
    take fs verbose ⟨c, t⟩ (.line u) = take fs verbose ⟨c, []⟩ (.line (t ++ u)) := rfl

/-- A bracket is open after each of the lines, all lines before it counted. -/
def LeavesOpen (front : List Text) : Prop :=
  ∀ group, group <+: front → group ≠ [] → 0 < depth group.flatten

instance (front : List Text) : Decidable (LeavesOpen front) :=
  decidable_of_iff (∀ group ∈ front.inits, group ≠ [] → 0 < depth group.flatten) <| by
    simp only [LeavesOpen, List.mem_inits]

variable {front : List Text}

theorem LeavesOpen.mono {group : List Text} (h : LeavesOpen front) (hgroup : group <+: front) :
    LeavesOpen group := fun part hpart => h part (hpart.trans hgroup)

theorem LeavesOpen.flatten_eq_nil_iff (h : LeavesOpen front) : front.flatten = [] ↔ front = [] := by
  constructor
  · intro hflat
    by_contra hne
    have hpos := h front List.prefix_rfl hne
    rw [hflat] at hpos
    exact absurd hpos (by decide)
  · rintro rfl
    rfl

theorem LeavesOpen.prompts_succ (h : LeavesOpen front) :
    prompts (front.length + 1) = prompts front.length ++ [.prompt (front.flatten ≠ [])] := by
  have hprompt : decide (front.flatten ≠ []) = decide (front.length ≠ 0) := by
    rw [decide_eq_decide, ne_eq, ne_eq, h.flatten_eq_nil_iff, List.length_eq_zero_iff]
  rw [hprompt]
  rfl

theorem LeavesOpen.reaches_concat {t : Text} {out : List Output} (h : LeavesOpen front)
    (hs : s.repl.running = true)
    (hfront : s.Reaches fs verbose (front.map .line) ⟨s.repl, front.flatten⟩ (prompts front.length))
    (htake : take fs verbose ⟨s.repl, front.flatten⟩ (.line t) = (s', out, none)) :
    s.Reaches fs verbose ((front ++ [t]).map .line) s' (prompts (front ++ [t]).length ++ out) := by
  have hnext := hfront.append (.cons hs htake (.nil s'))
  rw [List.append_nil] at hnext
  rw [List.map_append, List.length_append]
  show s.Reaches fs verbose _ s' (prompts (front.length + 1) ++ out)
  rw [h.prompts_succ, List.append_assoc]
  exact hnext

/-- **Lines that leave a bracket open are put together**, and nothing is told. -/
theorem LeavesOpen.reaches (h : LeavesOpen front) (hs : s.repl.running = true)
    (hpending : s.pending = []) (hcolon : (Text.trimLeft front.flatten).head? ≠ some ':') :
    s.Reaches fs verbose (front.map .line) ⟨s.repl, front.flatten⟩ (prompts front.length) := by
  induction front using List.reverseRecOn with
  | nil =>
    rw [List.flatten_nil, ← hpending]
    exact .nil s
  | append_singleton front line ih =>
    have hbefore : LeavesOpen front := h.mono (List.prefix_append front [line])
    have hdepth := h (front ++ [line]) List.prefix_rfl (by simp)
    rw [List.flatten_concat] at hdepth hcolon ⊢
    have hfront := ih hbefore fun hc => hcolon (Text.head?_trimLeft_append hc line)
    have htake := take_of_isOpen (s := ⟨s.repl, front.flatten⟩) fs verbose
      (isOpen_eq_true_iff.2 ⟨hdepth, hcolon⟩)
    have hall := hbefore.reaches_concat hs hfront htake
    rwa [List.append_nil] at hall

/-- **An expression may be cut into lines wherever a bracket is open.** First, let nothing be pending at
a prompt, and let a text that leaves no bracket open and begins no command be cut into lines such that a
bracket is open after each of them but the last. Typed at once, the text brings the dialogue back to the
same state. Typed line by line, it brings the dialogue there as well and is answered in the same way,
and till the last line nothing is told but the prompts. Second, at every prompt of a dialogue nothing is
pending, or a text that leaves a bracket open and begins no command. -/
theorem answered_as_one (fs : FileSystem) (verbose : Bool) :
    (∀ (s : Session) (front : List Text) (final : Text),
      s.repl.running = true → s.pending = [] → LeavesOpen front →
      depth (front.flatten ++ final) ≤ 0 →
      (Text.trimLeft (front.flatten ++ final)).head? ≠ some ':' →
      ∃ answer,
        s.Reaches fs verbose [.line (front.flatten ++ final)] s (.prompt false :: answer) ∧
        s.Reaches fs verbose ((front ++ [final]).map .line) s
          (prompts (front ++ [final]).length ++ answer) ∧
        ∀ group, group <+: front →
          s.Reaches fs verbose (group.map .line) ⟨s.repl, group.flatten⟩ (prompts group.length)) ∧
    ∀ (c : Repl) (before : List Typed) (s' : Session) (out : List Output),
      (⟨c, []⟩ : Session).Reaches fs verbose before s' out →
      s'.pending = [] ∨ 0 < depth s'.pending ∧ (Text.trimLeft s'.pending).head? ≠ some ':' := by
  constructor
  · rintro ⟨c, pending⟩ front final hs hpending hopen hdepth hcolon
    obtain rfl : pending = [] := hpending
    have hclosed : isOpen (front.flatten ++ final) = false := isOpen_eq_false_iff.2 (.inr hdepth)
    have hcolon' {group : List Text} (hgroup : group <+: front) :
        (Text.trimLeft group.flatten).head? ≠ some ':' := by
      obtain ⟨others, rfl⟩ := hgroup
      rw [List.flatten_append, List.append_assoc] at hcolon
      exact fun h => hcolon (Text.head?_trimLeft_append h _)
    obtain ⟨reply, hreply⟩ := Repl.exists_reply_of_not_command hcolon fs c
    have htake : take fs verbose ⟨c, []⟩ (.line (front.flatten ++ final)) = (⟨c, []⟩, _, none) :=
      take_of_evaluate verbose hclosed hreply
    have hlast := (take_append fs verbose c front.flatten final).trans htake
    refine ⟨_, ?_, hopen.reaches_concat hs (hopen.reaches hs rfl (hcolon' List.prefix_rfl)) hlast,
      fun group hgroup => (hopen.mono hgroup).reaches hs rfl (hcolon' hgroup)⟩
    have honce := Reaches.cons hs htake (.nil _)
    rwa [List.append_nil] at honce
  · intro c before s' out h
    rw [← isOpen_eq_true_iff]
    exact h.pending (.inl rfl)

/-- An expression is cut inside its brackets, and inside the brackets in them. Before its last line it is
pending with two brackets open. -/
theorem answered_as_one_nested :
    LeavesOpen ["(I".toList, " (K".toList] ∧ depth "(I (Ka))b".toList ≤ 0 ∧
    (∃ answer,
      Reaches (.ofList []) false ⟨{}, []⟩ [.line "(I (Ka))b".toList] ⟨{}, []⟩
        (.prompt false :: answer) ∧
      Reaches (.ofList []) false ⟨{}, []⟩
        [.line "(I".toList, .line " (K".toList, .line "a))b".toList] ⟨{}, []⟩
        ([.prompt false, .prompt true, .prompt true] ++ answer) ∧
      Reaches (.ofList []) false ⟨{}, []⟩ [.line "(I".toList, .line " (K".toList]
        ⟨{}, "(I (K".toList⟩ [.prompt false, .prompt true]) ∧
    ("(I (K".toList = [] ∨
      0 < depth "(I (K".toList ∧ (Text.trimLeft "(I (K".toList).head? ≠ some ':') := by
  have hopen : LeavesOpen ["(I".toList, " (K".toList] := by decide
  obtain ⟨hone, hpending⟩ := answered_as_one (.ofList []) false
  obtain ⟨answer, honce, hlines, hgroups⟩ := hone ⟨{}, []⟩
    ["(I".toList, " (K".toList] "a))b".toList rfl rfl hopen (by decide) (by decide)
  have hfront := hgroups _ List.prefix_rfl
  exact ⟨hopen, by decide, ⟨answer, honce, hlines, hfront⟩, hpending {} _ _ _ hfront⟩

end Session

end Combinatory
