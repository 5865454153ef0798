import Combinatory.Proofs.Batches

/-!
# Documents one above the other

Two documents are put into one, with a line feed between them (`Document.stack`).

1. Whatever the upper one ends with, the lines of the whole are its own, with the line feed behind them,
   and then those of the lower one (`Text.lines_append_newline`). The line feed may belong to a carriage
   return, or end a line, or add a blank one; a blank one defines nothing (`Document.read_concat_newline`).
2. Lines are read one after the other, so the whole is read as the upper document and then as the lower
   one, in which the lines above count (`Document.read_stack`).

`Workspace.loads_stack`: a stack of documents is loaded like one document after the other, unless the
lower one is at fault; then the upper one is not loaded either.
-/

namespace Combinatory

/-! ## Lines above and below -/

namespace Text

/-- What a character adds to the lines of a text depends on the beginning of the text alone, so it leaves
the last lines. -/
theorem lines_cons_append {t u : Text} {ls : List Text} (ht : t ≠ []) (hhead : u.head? = t.head?)
    (h : lines u = lines t ++ ls) (c : Char) : lines (c :: u) = lines (c :: t) ++ ls := by
  cases hc : isBreak c with
  | false =>
    obtain ⟨l, rest, hl⟩ := exists_lines_eq_cons ht
    rw [hl, List.cons_append] at h
    rw [lines_cons hc h, lines_cons hc hl, List.cons_append]
  | true =>
    by_cases hcr : c = '\r' ∧ t.head? = some '\n'
    · obtain ⟨rfl, hlf⟩ := hcr
      rw [lines_cr_cons (hhead.trans hlf), lines_cr_cons hlf, h]
    · have hown (hr : c = '\r') : t.head? ≠ some '\n' := fun hlf => hcr ⟨hr, hlf⟩
      rw [lines_of_isBreak hc (hhead ▸ hown), lines_of_isBreak hc hown, h, List.cons_append]

/-- **A line feed cuts the lines of a text in two**: whatever stands before it, the lines behind it are
those of the text behind it. -/
theorem lines_append_newline (t u : Text) :
    lines (t ++ '\n' :: u) = lines (t ++ ['\n']) ++ lines u := by
  induction t with
  | nil => rfl
  | cons c cs ih =>
    have hhead : (cs ++ '\n' :: u).head? = (cs ++ ['\n']).head? := by
      rw [List.head?_append, List.head?_append]
      rfl
    exact lines_cons_append (List.concat_ne_nil '\n' cs) hhead ih c

theorem exists_lines_concat_newline (t : Text) :
    ∃ ls, (ls = [] ∨ ls = [[]]) ∧ lines (t ++ ['\n']) = lines t ++ ls := by
  induction t with
  | nil => exact ⟨[[]], .inr rfl, rfl⟩
  | cons c cs ih =>
    cases cs with
    | nil =>
      -- It ends the line of another character, or it belongs to a carriage return.
      cases hc : isBreak c with
      | false =>
        refine ⟨[], .inl rfl, ?_⟩
        rw [List.cons_append, lines_of_not_isBreak hc, lines_of_not_isBreak hc]
        rfl
      | true =>
        by_cases hr : c = '\r'
        · subst hr
          exact ⟨[], .inl rfl, rfl⟩
        · refine ⟨[[]], .inr rfl, ?_⟩
          rw [List.cons_append, lines_of_isBreak_of_ne_cr hc hr, lines_of_isBreak_of_ne_cr hc hr]
          rfl
    | cons x xs =>
      obtain ⟨ls, hls, hlines⟩ := ih
      have hhead : (x :: xs ++ ['\n']).head? = (x :: xs).head? := rfl
      exact ⟨ls, hls, lines_cons_append (List.cons_ne_nil x xs) hhead hlines c⟩

end Text

/-! ## Reading -/

/-- The error as it is when so many lines stand above the document. -/
def DocumentError.below (n : Nat) (e : DocumentError) : DocumentError := ⟨n + e.line, e.reason⟩

namespace Document

variable {t u : Text} {ds : List Combinator} {e : DocumentError}

def stack (t u : Text) : Text := t ++ '\n' :: u

/-- How many lines a document has with a line feed at its end, which are those above a lower one. -/
def height (t : Text) : Nat := (Text.lines (t ++ ['\n'])).length

theorem readLines_add (k n : Nat) (ls : List Text) :
    readLines (k + n) ls = (readLines n ls).mapError (DocumentError.below k) := by
  induction ls generalizing n with
  | nil => rfl
  | cons l ls ih =>
    rw [readLines_cons, readLines_cons, Nat.add_assoc, ih]
    cases combinator? l with
    | error reason => rfl
    | ok o =>
      show ((readLines (n + 1) ls).mapError (DocumentError.below k)).map (o.toList ++ ·) =
        ((readLines (n + 1) ls).map (o.toList ++ ·)).mapError (DocumentError.below k)
      cases readLines (n + 1) ls <;> rfl

theorem readLines_append (n : Nat) (ls ms : List Text) :
    readLines n (ls ++ ms) =
      readLines n ls >>= fun ds => (readLines (n + ls.length) ms).map (ds ++ ·) := by
  induction ls generalizing n with
  | nil =>
    show readLines n ms = (readLines n ms).map ([] ++ ·)
    cases readLines n ms <;> rfl
  | cons l ls ih =>
    have hlen : n + (l :: ls).length = n + 1 + ls.length := by
      rw [List.length_cons]
      omega
    rw [List.cons_append, readLines_cons, readLines_cons, ih, hlen]
    cases combinator? l with
    | error reason => rfl
    | ok o =>
      cases readLines (n + 1) ls with
      | error e => rfl
      | ok ds =>
        show ((readLines (n + 1 + ls.length) ms).map (ds ++ ·)).map (o.toList ++ ·) =
          (readLines (n + 1 + ls.length) ms).map (o.toList ++ ds ++ ·)
        cases readLines (n + 1 + ls.length) ms with
        | error e => rfl
        | ok es => exact congrArg Except.ok (List.append_assoc _ _ _).symm

theorem read_concat_newline (t : Text) : read (t ++ ['\n']) = read t := by
  obtain ⟨ls, hls, hlines⟩ := Text.exists_lines_concat_newline t
  have hblank (n : Nat) : readLines n ls = .ok [] := by
    rcases hls with rfl | rfl <;> rfl
  unfold read
  rw [hlines, readLines_append, hblank]
  cases readLines 1 (Text.lines t) with
  | error e => rfl
  | ok ds => exact congrArg Except.ok (List.append_nil ds)

/-- **A document is read, and then the one below it**, of which the lines count from above. -/
theorem read_stack (t u : Text) :
    read (stack t u) =
      read t >>= fun ds => ((read u).mapError (DocumentError.below (height t))).map (ds ++ ·) := by
  have hbelow : readLines (1 + height t) (Text.lines u) =
      (read u).mapError (DocumentError.below (height t)) := by
    rw [Nat.add_comm]
    exact readLines_add (height t) 1 (Text.lines u)
  unfold stack
  rw [← read_concat_newline t, ← hbelow]
  unfold read height
  rw [Text.lines_append_newline, readLines_append]

theorem read_stack_of_ok {es : List Combinator} (ht : read t = .ok ds) (hu : read u = .ok es) :
    read (stack t u) = .ok (ds ++ es) := by
  rw [read_stack, ht, hu]
  rfl

theorem read_stack_of_error (ht : read t = .error e) (u : Text) : read (stack t u) = .error e := by
  rw [read_stack, ht]
  rfl

theorem read_stack_of_ok_of_error (ht : read t = .ok ds) (hu : read u = .error e) :
    read (stack t u) = .error (e.below (height t)) := by
  rw [read_stack, ht, hu]
  rfl

end Document

/-! ## Loading -/

namespace Workspace

open Document

variable {w : Workspace} {fs : FileSystem} {name t u : Text} {place : Nat} {R : Basis}
  {ds es : List Combinator} {e : DocumentError}

theorem perform_loadText_of_ok (h : w.basis? name = some (place, R)) (ht : read t = .ok ds) :
    w.perform fs (.changeBasis name (.loadText t)) = (w.setBasis place (R.extend ds), .ok .done) := by
  refine perform_of_changed_ok h ?_
  show ((read t).map R.extend).mapError WorkspaceError.document = _
  rw [ht]
  rfl

theorem perform_loadText_of_error (h : w.basis? name = some (place, R)) (ht : read t = .error e) :
    w.perform fs (.changeBasis name (.loadText t)) = (w, .error (.document e)) := by
  refine perform_of_changed_error h ?_
  show ((read t).map R.extend).mapError WorkspaceError.document = _
  rw [ht]
  rfl

theorem perform_loadText_loadText (h : w.basis? name = some (place, R)) (ht : read t = .ok ds)
    (hu : read u = .ok es) :
    (w.perform fs (.changeBasis name (.loadText t))).1.perform fs (.changeBasis name (.loadText u)) =
      (w.setBasis place (R.extend (ds ++ es)), .ok .done) := by
  rw [perform_loadText_of_ok h ht, perform_loadText_of_ok (basis?_setBasis h _) hu]
  unfold setBasis Basis.extend
  rw [List.set_set, List.append_assoc]

/-- **A stack of documents is loaded like one document after the other.** If both can be read, the whole
is read as the combinators of the upper one and then those of the lower one, and to load it is to load
the upper one and then the lower one. A fault of the upper one is the fault of the whole; a fault of the
lower one is too, in the line that has all lines above before it. Where the whole is at fault, loading
it changes nothing. -/
theorem loads_stack (t u : Text) :
    (∀ ds es, read t = .ok ds → read u = .ok es →
      read (stack t u) = .ok (ds ++ es) ∧
      ∀ (w : Workspace) (fs : FileSystem) (name : Text) (place : Nat) (R : Basis),
        w.basis? name = some (place, R) →
          w.perform fs (.changeBasis name (.loadText (stack t u))) =
              (w.setBasis place (R.extend (ds ++ es)), .ok .done) ∧
            (w.perform fs (.changeBasis name (.loadText t))).1.perform fs
                (.changeBasis name (.loadText u)) =
              (w.setBasis place (R.extend (ds ++ es)), .ok .done)) ∧
    (∀ e, read t = .error e → read (stack t u) = .error e) ∧
    (∀ ds n reason, read t = .ok ds → read u = .error ⟨n, reason⟩ →
      read (stack t u) = .error ⟨(Text.lines (t ++ ['\n'])).length + n, reason⟩) ∧
    ∀ e, read (stack t u) = .error e →
      ∀ (w : Workspace) (fs : FileSystem) (name : Text) (place : Nat) (R : Basis),
        w.basis? name = some (place, R) →
          w.perform fs (.changeBasis name (.loadText (stack t u))) = (w, .error (.document e)) := by
  refine ⟨fun ds es ht hu => ⟨read_stack_of_ok ht hu, ?_⟩, fun e ht => read_stack_of_error ht u,
    fun ds n reason ht hu => read_stack_of_ok_of_error ht hu, ?_⟩
  · intro w fs name place R h
    exact ⟨perform_loadText_of_ok h (read_stack_of_ok ht hu), perform_loadText_loadText h ht hu⟩
  · intro e he w fs name place R h
    exact perform_loadText_of_error h he

/-- The upper document ends with a carriage return, which makes one break with the line feed. With a
letter in place of its arity, the second line of the lower one is the third of the whole. -/
theorem loads_stack_return :
    read (stack "Kc,1,0\r".toList "\nW,2,011".toList) =
        .ok [⟨"Kc".toList, 1, ['0'], by decide⟩, ⟨['W'], 2, "011".toList, by decide⟩] ∧
      read (stack "Kc,1,0\r".toList "\nW,x,011".toList) =
        .error ⟨3, .arityNotNumber ['W'] ['x']⟩ ∧
      read (stack ",".toList "Kc,1,0\r".toList) = .error ⟨1, .emptyName⟩ ∧
      (⟨[.standard], [(['r'], 0)], [], {}⟩ : Workspace).perform (.ofList [])
          (.changeBasis ['r'] (.loadText (stack ",".toList "Kc,1,0\r".toList))) =
        (⟨[.standard], [(['r'], 0)], [], {}⟩, .error (.document ⟨1, .emptyName⟩)) := by
  obtain ⟨hboth, -, -, -⟩ := loads_stack "Kc,1,0\r".toList "\nW,2,011".toList
  obtain ⟨-, -, hlower, -⟩ := loads_stack "Kc,1,0\r".toList "\nW,x,011".toList
  obtain ⟨-, hupper, -, hfault⟩ := loads_stack ",".toList "Kc,1,0\r".toList
  have hcomma : read (stack ",".toList "Kc,1,0\r".toList) = .error ⟨1, .emptyName⟩ := hupper _ rfl
  exact ⟨(hboth _ _ rfl rfl).1, hlower _ _ _ rfl rfl, hcomma,
    hfault _ hcomma _ _ ['r'] 0 .standard rfl⟩

end Workspace

end Combinatory
