import Combinatory.Console.Repl
import Combinatory.Proofs.Faults

/-!
# What the console answers

1. A text cannot be read for one of three reasons (`FileSystem.Refuses`). One of them is told in a
   reply; a line that meets another one is not answered (`Repl.Defeats`), and nothing else keeps a line
   from being answered (`Repl.evaluate_eq_error_iff`).
2. A line that is answered leaves the console as it was or has one of six effects, and the reply tells
   which (`Repl.cases_of_evaluate`).
3. An expression is reduced, or is not balanced, or has a fault that a step under a limit can have
   (`Repl.fault_of_reduce`).

`Repl.answers_unless_defeated`: all lines are answered but those that are defeated, and a reply that
tells of a failure was given by a console that has not changed.
-/

namespace Combinatory

/-! ## Reading a file -/

/-- Why no text is read from a path. -/
inductive FileSystem.Refuses (fs : FileSystem) (p : Path) : ReadError → Prop
  | nullInPath {part : Text} (hpart : part ∈ p.parts) (hnull : '\x00' ∈ part) :
      Refuses fs p .nullInPath
  | system {reason : SystemError} (hpath : ∀ part ∈ p.parts, '\x00' ∉ part)
      (hbytes : fs.readBytes p = .error reason) : Refuses fs p (.system reason p)
  | notText {bytes : List UInt8} {e : Utf8.DecodingError} (hpath : ∀ part ∈ p.parts, '\x00' ∉ part)
      (hbytes : fs.readBytes p = .ok bytes) (htext : Utf8.decode bytes = .error e) :
      Refuses fs p (.notText e)

theorem FileSystem.readText_eq_error_iff {fs : FileSystem} {p : Path} {e : ReadError} :
    fs.readText p = .error e ↔ fs.Refuses p e := by
  have hnull : (p.parts.any fun part => part.contains '\x00') = true ↔
      ∃ part ∈ p.parts, '\x00' ∈ part := by
    simp
  unfold readText
  constructor
  · intro h
    split at h
    · next hp =>
      obtain ⟨part, hpart, hin⟩ := hnull.1 hp
      obtain rfl := Except.error.inj h
      exact .nullInPath hpart hin
    · next hp =>
      have hpath : ∀ part ∈ p.parts, '\x00' ∉ part := fun part hpart hin =>
        hp (hnull.2 ⟨part, hpart, hin⟩)
      split at h
      · next hbytes =>
        obtain rfl := Except.error.inj h
        exact .system hpath hbytes
      · next hbytes =>
        split at h
        · next htext =>
          obtain rfl := Except.error.inj h
          exact .notText hpath hbytes htext
        · simp at h
  · intro h
    cases h with
    | nullInPath hpart hin => exact if_pos (hnull.2 ⟨_, hpart, hin⟩)
    | system hpath hbytes =>
      rw [if_neg fun hp => (hnull.1 hp).elim fun part h => hpath part h.1 h.2, hbytes]
    | notText hpath hbytes htext =>
      rw [if_neg fun hp => (hnull.1 hp).elim fun part h => hpath part h.1 h.2, hbytes]
      dsimp only
      rw [htext]

/-! ## Replies that tell of a failure -/

namespace Reply

/-- The beginnings of the texts that tell of a failure. -/
def alarms : List Text := ["Error".toList, "Usage: ".toList, "Unknown command".toList]

/-- Whether the text of a reply tells of a failure. -/
def TellsFailure (reply : Reply) : Prop := ∃ t ∈ reply.text?, ∃ alarm ∈ alarms, alarm <+: t

theorem tellsFailure_of_isFailure {reply : Reply} (h : reply.isFailure = true) :
    reply.TellsFailure := by
  have herror : "Error".toList ∈ alarms := by decide
  have husage : "Usage: ".toList ∈ alarms := by decide
  have hunknown : "Unknown command".toList ∈ alarms := by decide
  cases reply with
  | noCommand => exact ⟨_, rfl, _, hunknown, ⟨_, rfl⟩⟩
  | unknownCommand => exact ⟨_, rfl, _, hunknown, ⟨_, rfl⟩⟩
  | loadUsage => exact ⟨_, rfl, _, husage, ⟨_, rfl⟩⟩
  | defineUsage => exact ⟨_, rfl, _, husage, ⟨_, rfl⟩⟩
  | maxUsage => exact ⟨_, rfl, _, husage, ⟨_, rfl⟩⟩
  | loadFailed => exact ⟨_, rfl, _, herror, ⟨_, rfl⟩⟩
  | defineFailed => exact ⟨_, rfl, _, herror, ⟨_, rfl⟩⟩
  | maxNotPositive => exact ⟨_, rfl, _, herror, ⟨_, rfl⟩⟩
  | unbalanced => exact ⟨_, rfl, _, herror, ⟨_, rfl⟩⟩
  | faulted => exact ⟨_, rfl, _, herror, ⟨_, rfl⟩⟩
  | _ => simp [isFailure] at h

theorem TellsFailure.head {reply : Reply} {c : Char} {cs : Text} (h : reply.TellsFailure)
    (ht : reply.text? = some (c :: cs)) : c = 'E' ∨ c = 'U' := by
  obtain ⟨t, ht', alarm, halarm, hp⟩ := h
  obtain rfl : c :: cs = t := Option.some.inj (ht.symm.trans ht')
  obtain ⟨rest, hrest⟩ := hp
  rcases List.mem_cons.1 halarm with rfl | halarm
  · exact .inl (List.cons.inj hrest).1.symm
  · rcases List.mem_cons.1 halarm with rfl | halarm
    · exact .inr (List.cons.inj hrest).1.symm
    · obtain rfl := List.mem_singleton.1 halarm
      exact .inr (List.cons.inj hrest).1.symm

end Reply

namespace Repl

variable {fs : FileSystem} {c c' : Repl} {line : Text} {reply : Reply}

/-! ## Lines that are not answered -/

/-- The line asks for a file that cannot be read, and for another reason than the system gives. -/
def Defeats (fs : FileSystem) (line : Text) (e : ReadError) : Prop :=
  ∃ file, classify line = .command (.load file) ∧ file ≠ [] ∧ fs.Refuses (.parse file) e ∧
    ∀ reason p, e ≠ .system reason p

theorem load_eq_error_iff {file : Text} {e : ReadError} :
    c.load fs file = (c', .error e) ↔
      c' = c ∧ file ≠ [] ∧ fs.Refuses (.parse file) e ∧ ∀ reason p, e ≠ .system reason p := by
  rw [← FileSystem.readText_eq_error_iff]
  unfold load Document.load
  by_cases hfile : file = []
  · simp [hfile]
  · rw [if_neg hfile]
    cases ht : fs.readText (.parse file) with
    | error e' =>
      cases e' with
      | system reason p =>
        simp only [Prod.mk.injEq, reduceCtorEq, and_false, Except.error.injEq, false_iff, not_and]
        rintro - - rfl h
        exact h reason p rfl
      | nullInPath | notText =>
        simp only [Prod.mk.injEq, Except.error.injEq]
        constructor
        · rintro ⟨rfl, rfl⟩
          exact ⟨rfl, hfile, rfl, by simp⟩
        · rintro ⟨rfl, -, rfl, -⟩
          exact ⟨rfl, rfl⟩
    | ok t =>
      dsimp only
      cases Document.read t <;> simp

/-- **Nothing but a file that cannot be read keeps a line from being answered**, and the console is as
before. -/
theorem evaluate_eq_error_iff {e : ReadError} :
    c.evaluate fs line = (c', .error e) ↔ c' = c ∧ Defeats fs line e := by
  unfold evaluate Defeats
  cases hline : classify line with
  | comment => simp
  | expression => simp
  | command command =>
    cases command with
    | load file =>
      dsimp only [Repl.command]
      rw [load_eq_error_iff]
      simp
    | _ => simp [Repl.command]

/-! ## Effects -/

/-- What a command may change in a console, with the reply that tells of it. -/
inductive Effect (c : Repl) : ConsoleCommand → Repl → Reply → Prop
  | quit : Effect c .quit { c with running := false } .farewell
  | load (file : Text) (ds : List Combinator) :
      Effect c (.load file) { c with basis := c.basis.extend ds } (.loaded ds.length file)
  | define (record : Text) (d : Combinator) :
      Effect c (.define record) { c with basis := c.basis.append d } (.defined d.name)
  | reset : Effect c .reset { c with basis := .standard } .reset
  | trace (setting : Text) (enabled : Bool) :
      Effect c (.trace setting) { c with tracing := enabled } (.tracing enabled)
  | max (number : Text) {n : Int} (hn : 0 < n) :
      Effect c (.max number) { c with maxSteps := n } (.maxSet n)

theorem eq_of_answer_eq {next : Repl} {told : Reply}
    (h : (next, (.ok told : Except ReadError Reply)) = (c', .ok reply)) : next = c' ∧ told = reply :=
  ⟨(Prod.mk.inj h).1, Except.ok.inj (Prod.mk.inj h).2⟩

theorem effect_of_load {file : Text} (h : c.load fs file = (c', .ok reply)) :
    reply.ok = true ∧ (c' = c ∨ c.Effect (.load file) c' reply) := by
  unfold load at h
  split at h
  · obtain ⟨rfl, rfl⟩ := eq_of_answer_eq h
    exact ⟨rfl, .inl rfl⟩
  · split at h
    · next ds _ =>
      obtain ⟨rfl, rfl⟩ := eq_of_answer_eq h
      exact ⟨rfl, .inr (.load file ds)⟩
    · obtain ⟨rfl, rfl⟩ := eq_of_answer_eq h
      exact ⟨rfl, .inl rfl⟩
    · simp at h
    · obtain ⟨rfl, rfl⟩ := eq_of_answer_eq h
      exact ⟨rfl, .inl rfl⟩

theorem effect_of_define (c : Repl) (record : Text) :
    (c.define record).2.ok = true ∧
      ((c.define record).1 = c ∨
        c.Effect (.define record) (c.define record).1 (c.define record).2) := by
  unfold define
  split
  · exact ⟨rfl, .inl rfl⟩
  · exact ⟨rfl, .inl rfl⟩
  · next d _ => exact ⟨rfl, .inr (.define record d)⟩

theorem effect_of_setMax (c : Repl) (number : Text) :
    (c.setMax number).2.ok = true ∧
      ((c.setMax number).1 = c ∨
        c.Effect (.max number) (c.setMax number).1 (c.setMax number).2) := by
  unfold setMax
  split
  · exact ⟨rfl, .inl rfl⟩
  · split
    · exact ⟨rfl, .inl rfl⟩
    · next hn => exact ⟨rfl, .inr (.max number (not_le.1 hn))⟩

theorem ok_listing (c : Repl) : c.listing.ok = true := by
  unfold listing
  split <;> rfl

theorem effect_of_command {command : ConsoleCommand}
    (h : c.command fs command = (c', .ok reply)) :
    reply.ok = true ∧ (c' = c ∨ c.Effect command c' reply) := by
  cases command with
  | load file => exact effect_of_load h
  | none | help | unknown =>
    obtain ⟨rfl, rfl⟩ := eq_of_answer_eq h
    exact ⟨rfl, .inl rfl⟩
  | defs =>
    obtain ⟨rfl, rfl⟩ := eq_of_answer_eq h
    exact ⟨c.ok_listing, .inl rfl⟩
  | quit =>
    obtain ⟨rfl, rfl⟩ := eq_of_answer_eq h
    exact ⟨rfl, .inr .quit⟩
  | define record =>
    obtain ⟨rfl, rfl⟩ := eq_of_answer_eq h
    exact c.effect_of_define record
  | reset =>
    obtain ⟨rfl, rfl⟩ := eq_of_answer_eq h
    exact ⟨rfl, .inr .reset⟩
  | trace setting =>
    obtain ⟨rfl, rfl⟩ := eq_of_answer_eq h
    exact ⟨rfl, .inr (.trace setting _)⟩
  | max number =>
    obtain ⟨rfl, rfl⟩ := eq_of_answer_eq h
    exact c.effect_of_setMax number

/-- **What an answered line does.** It is well and changes nothing, or is a command with an effect that
its reply tells of; or it is an expression, and changes nothing. -/
theorem cases_of_evaluate (h : c.evaluate fs line = (c', .ok reply)) :
    reply.ok = true ∧
        (c' = c ∨ ∃ command, classify line = .command command ∧ c.Effect command c' reply) ∨
      c' = c ∧ ∃ e, classify line = .expression e ∧ reply = c.reduce e := by
  unfold evaluate at h
  split at h
  · obtain ⟨rfl, rfl⟩ := eq_of_answer_eq h
    exact .inl ⟨rfl, .inl rfl⟩
  · next command hline =>
    obtain ⟨hok, heffect⟩ := effect_of_command h
    exact .inl ⟨hok, heffect.imp_right fun he => ⟨command, hline, he⟩⟩
  · next e he =>
    obtain ⟨rfl, rfl⟩ := eq_of_answer_eq h
    exact .inr ⟨rfl, e, he, rfl⟩

theorem Effect.not_tellsFailure {command : ConsoleCommand} (h : c.Effect command c' reply) :
    ¬ reply.TellsFailure := by
  intro hfail
  cases h with
  | quit =>
    obtain ⟨t, ht, -⟩ := hfail
    simp [Reply.text?] at ht
  | load | define | reset | max => exact absurd (hfail.head rfl) (by decide)
  | trace setting enabled => cases enabled <;> exact absurd (hfail.head rfl) (by decide)

theorem eq_of_not_ok (h : c.evaluate fs line = (c', .ok reply)) (hr : reply.ok = false) :
    c' = c := by
  rcases cases_of_evaluate h with ⟨hok, -⟩ | ⟨hsame, -⟩
  · rw [hok] at hr
    simp at hr
  · exact hsame

theorem running_of_evaluate (h : c.evaluate fs line = (c', .ok reply))
    (hline : classify line ≠ .command .quit) : c'.running = c.running := by
  rcases cases_of_evaluate h with ⟨-, rfl | ⟨command, hcommand, heffect⟩⟩ | ⟨rfl, -⟩
  · rfl
  · cases heffect with
    | quit => exact absurd hcommand hline
    | load | define | reset | trace | max => rfl
  · rfl

/-! ## Expressions -/

theorem fault_of_reduce {e : Text} {f : Fault} (h : c.reduce e = .faulted f) :
    (∃ template i n, f = .noArgument template i n) ∨ f = .tooDeep ∨
      ∃ e', f = .stepLimit e' c.maxSteps := by
  unfold reduce at h
  split at h
  · dsimp only at h
    split at h
    · simp at h
    · next g hrun =>
      obtain rfl := Reply.faulted.inj h
      obtain ⟨steps, hmakes, -, hlast⟩ :=
        Reduction.exists_makes_of_walk_error (Reduction.walk_of_run_error (Prod.ext rfl hrun))
      have harises := Basis.arises_of_stepAt (Reduction.step_eq_error_iff.1 hlast).1
      rw [hmakes.bounds_eq] at harises
      cases harises with
      | template template i n => exact .inl ⟨template, i, n, rfl⟩
      | depth => exact .inr (.inl rfl)
      | spent e' => exact .inr (.inr ⟨e', rfl⟩)
  · simp at h

/-! ## Lines one after the other -/

/-- The console answers the lines one after the other with the replies, and is left as `last`. -/
inductive Answers (fs : FileSystem) : Repl → List Text → List Reply → Repl → Prop
  | nil (c : Repl) : Answers fs c [] [] c
  | cons {c next last : Repl} {line : Text} {lines : List Text} {reply : Reply}
      {replies : List Reply} (h : c.evaluate fs line = (next, .ok reply))
      (hrest : Answers fs next lines replies last) :
      Answers fs c (line :: lines) (reply :: replies) last

theorem exists_answers_iff {lines : List Text} :
    (∃ replies last, Answers fs c lines replies last) ↔
      ∀ line ∈ lines, ∀ e, ¬ Defeats fs line e := by
  induction lines generalizing c with
  | nil => exact iff_of_true ⟨[], c, .nil c⟩ (List.forall_mem_nil _)
  | cons line lines ih =>
    rw [List.forall_mem_cons]
    constructor
    · rintro ⟨_, last, hanswers⟩
      cases hanswers with
      | cons h hrest =>
        refine ⟨fun e he => ?_, ih.1 ⟨_, last, hrest⟩⟩
        rw [evaluate_eq_error_iff.2 ⟨rfl, he⟩] at h
        simp at h
    · rintro ⟨hline, hlines⟩
      rcases hev : c.evaluate fs line with ⟨next, e | reply⟩
      · exact absurd (evaluate_eq_error_iff.1 hev).2 (hline e)
      · obtain ⟨replies, last, hrest⟩ := ih (c := next) |>.2 hlines
        exact ⟨_, last, .cons hev hrest⟩

/-- **Every line is answered unless it is defeated.** Lines, however many, are answered one after the
other exactly if none of them asks for a file that has no path or holds no text. Where one does, the
console stays as it was; where a line is answered, the reply to a failure tells of it, a reply that tells
of one was given by a console that has not changed, and what kept an expression from being reduced is
one of three faults. -/
theorem answers_unless_defeated (fs : FileSystem) (c : Repl) :
    (∀ lines, (∃ replies last, Answers fs c lines replies last) ↔
      ∀ line ∈ lines, ∀ e, ¬ Defeats fs line e) ∧
    ∀ line c',
      (∀ e, c.evaluate fs line = (c', .error e) ↔ c' = c ∧ Defeats fs line e) ∧
      ∀ reply, c.evaluate fs line = (c', .ok reply) →
        (reply.isFailure = true → reply.TellsFailure) ∧ (reply.TellsFailure → c' = c) ∧
          ∀ f, reply = .faulted f → (∃ template i n, f = .noArgument template i n) ∨ f = .tooDeep ∨
            ∃ e, f = .stepLimit e c.maxSteps := by
  refine ⟨fun lines => exists_answers_iff, fun line c' => ⟨fun e => evaluate_eq_error_iff, ?_⟩⟩
  intro reply h
  refine ⟨Reply.tellsFailure_of_isFailure, fun hfail => ?_, ?_⟩
  · rcases cases_of_evaluate h with ⟨-, hsame | ⟨command, -, heffect⟩⟩ | ⟨hsame, -⟩
    · exact hsame
    · exact absurd hfail heffect.not_tellsFailure
    · exact hsame
  · rintro f rfl
    rcases cases_of_evaluate h with ⟨hok, -⟩ | ⟨-, e, -, he⟩
    · simp [Reply.ok] at hok
    · exact fault_of_reduce he.symm

/-- The files of the examples: one of them holds a byte that is no text. -/
def spoiled : FileSystem := .ofList [(.parse "bad".toList, .ok (.file [0xFF]))]

/-- Where a file holds no text, or has a null character in its path, the line is not answered. -/
theorem not_answered_of_spoiled :
    ({} : Repl).evaluate spoiled ":load bad".toList = ({}, .error (.notText ⟨.start, 0xFF, 0, 0⟩)) ∧
      ({} : Repl).evaluate spoiled ":load a\x00b".toList = ({}, .error .nullInPath) :=
  ⟨rfl, rfl⟩

/-- Three lines that fail are answered one after the other, and the last of them is told of by a console
that has not changed. -/
theorem answers_unless_defeated_failures :
    (∃ replies last, Answers spoiled {} [":load missing".toList, ":max 0".toList, "(Ia".toList]
      replies last) ∧
    ({} : Repl).evaluate spoiled "(Ia".toList = ({}, .ok (.unbalanced "(Ia".toList)) ∧
    (Reply.unbalanced "(Ia".toList).TellsFailure ∧
    Defeats spoiled ":load bad".toList (.notText ⟨.start, 0xFF, 0, 0⟩) := by
  obtain ⟨hlines, hline⟩ := answers_unless_defeated spoiled {}
  have hreply : ({} : Repl).evaluate spoiled "(Ia".toList = ({}, .ok (.unbalanced "(Ia".toList)) :=
    rfl
  refine ⟨(hlines _).2 fun line hmem e he => ?_, hreply, ((hline _ _).2 _ hreply).1 rfl,
    (((hline _ {}).1 _).1 rfl).2⟩
  have herror : (({} : Repl).evaluate spoiled line).2.toBool = false := by
    rw [((hline line {}).1 e).2 ⟨rfl, he⟩]
    rfl
  simp only [List.mem_cons, List.not_mem_nil, or_false] at hmem
  rcases hmem with rfl | rfl | rfl
  · exact absurd herror (by decide)
  · exact absurd herror (by decide)
  · exact absurd herror (by decide)

end Repl

end Combinatory
