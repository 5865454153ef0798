import Combinatory.Proofs.Decoding
import Combinatory.Proofs.Stacking

/-!
# Documents in files

A document in a file is read like its text.

1. The file holds the bytes of the text (`FileSystem.Holds`). They are read as the text again, but its
   carriage returns have become line feeds (`FileSystem.Holds.readText_eq`).
2. The lines are the same all the same (`Text.lines_unifyBreaks`): what becomes one line feed was one
   break, and all other breaks are left alone. So the same combinators are read, and the same line is at
   fault (`FileSystem.Holds.load_eq`).

`Workspace.loads_alike`: to load the file is to load the text.
-/

namespace Combinatory

theorem Text.lines_unifyBreaks (t : Text) : lines (unifyBreaks t) = lines t := by
  fun_induction unifyBreaks t with
  | case1 => rfl
  | case2 cs ih => exact congrArg ([] :: ·) ih
  | case3 cs hlf ih =>
    have hown : lines ('\r' :: cs) = [] :: lines cs := by
      refine lines_of_isBreak rfl fun _ h => ?_
      obtain ⟨u, rfl⟩ := List.head?_eq_some_iff.1 h
      exact hlf u rfl
    rw [hown]
    exact congrArg ([] :: ·) ih
  | case4 c cs _ hcr ih =>
    cases hc : isBreak c with
    | false => rw [lines_of_not_isBreak hc, lines_of_not_isBreak hc, ih]
    | true => rw [lines_of_isBreak_of_ne_cr hc hcr, lines_of_isBreak_of_ne_cr hc hcr, ih]

/-- There is a file with these bytes at the path. No file has a null character in its path. -/
structure FileSystem.Holds (fs : FileSystem) (p : Path) (bytes : List UInt8) : Prop where
  null_not_mem : ∀ part ∈ p.parts, '\x00' ∉ part
  find_eq : fs.find p = .ok (.file bytes)

namespace FileSystem.Holds

variable {fs : FileSystem} {p : Path} {t : Text}

theorem readText_eq (h : fs.Holds p (Utf8.encode t)) : fs.readText p = .ok (Text.unifyBreaks t) := by
  have hnull : ¬ (p.parts.any fun part => part.contains '\x00') = true := by
    simpa using h.null_not_mem
  have hbytes : fs.readBytes p = .ok (Utf8.encode t) := by
    unfold readBytes
    rw [h.find_eq]
  unfold readText
  rw [if_neg hnull, hbytes]
  dsimp only
  rw [Utf8.decode_encode]

/-- **A document is read from its file as from its text.** -/
theorem load_eq (h : fs.Holds p (Utf8.encode t)) :
    Document.load fs p = (Document.read t).mapError .malformed := by
  have hread : Document.read (Text.unifyBreaks t) = Document.read t := by
    unfold Document.read
    rw [Text.lines_unifyBreaks]
  unfold Document.load
  rw [h.readText_eq]
  dsimp only
  rw [hread]
  cases Document.read t <;> rfl

end FileSystem.Holds

namespace Workspace

variable {w : Workspace} {fs : FileSystem} {name path t : Text} {place : Nat} {R : Basis}

/-- **A document is loaded from its file as from its text.** If the text can be read, both append the
combinators that are read, and nothing else is changed. If not, both change nothing, and they fail with
the same words, because of the same line. -/
theorem loads_alike (hfile : fs.Holds (.parse path) (Utf8.encode t))
    (h : w.basis? name = some (place, R)) :
    (∃ ds, Document.read t = .ok ds ∧
      w.perform fs (.changeBasis name (.loadText t)) =
        (w.setBasis place (R.extend ds), .ok .done) ∧
      w.perform fs (.changeBasis name (.loadFile path)) =
        (w.setBasis place (R.extend ds), .ok .done)) ∨
    ∃ e, Document.read t = .error e ∧
      w.perform fs (.changeBasis name (.loadText t)) = (w, .error (.document e)) ∧
      w.perform fs (.changeBasis name (.loadFile path)) = (w, .error (.load (.malformed e))) ∧
      (WorkspaceError.load (.malformed e)).message = (WorkspaceError.document e).message := by
  have hchanged : w.changed fs R (.loadFile path) =
      (((Document.read t).mapError .malformed).map R.extend).mapError .load := by
    rw [← hfile.load_eq]
    rfl
  cases hread : Document.read t with
  | ok ds =>
    refine .inl ⟨ds, rfl, perform_loadText_of_ok h hread, perform_of_changed_ok h ?_⟩
    rw [hchanged, hread]
    rfl
  | error e =>
    refine .inr ⟨e, rfl, perform_loadText_of_error h hread, perform_of_changed_error h ?_, rfl⟩
    rw [hchanged, hread]
    rfl

/-- A document in which breaks of three kinds stand before the line at fault: a carriage return, a
carriage return with a line feed, and U+0085. The mark at its beginning belongs to a name. -/
def severalBreaks : Text := "\uFEFFK,1,0\r\r\nW,0,x\u0085W,x,0".toList

/-- The fault is in the fourth line, in the text as in the file. -/
theorem loads_alike_breaks :
    (⟨[.standard], [(['r'], 0)], [], {}⟩ : Workspace).perform
        (.ofList [(.parse ['d'], .ok (.file (Utf8.encode severalBreaks)))])
        (.changeBasis ['r'] (.loadText severalBreaks)) =
      (⟨[.standard], [(['r'], 0)], [], {}⟩, .error (.document ⟨4, .arityNotNumber ['W'] ['x']⟩)) ∧
    (⟨[.standard], [(['r'], 0)], [], {}⟩ : Workspace).perform
        (.ofList [(.parse ['d'], .ok (.file (Utf8.encode severalBreaks)))])
        (.changeBasis ['r'] (.loadFile ['d'])) =
      (⟨[.standard], [(['r'], 0)], [], {}⟩,
        .error (.load (.malformed ⟨4, .arityNotNumber ['W'] ['x']⟩))) := by
  have hfault : Document.read severalBreaks = .error ⟨4, .arityNotNumber ['W'] ['x']⟩ := rfl
  have hfile : (FileSystem.ofList [(.parse ['d'], .ok (.file (Utf8.encode severalBreaks)))]).Holds
      (.parse ['d']) (Utf8.encode severalBreaks) := ⟨by decide, rfl⟩
  have hbasis : (⟨[.standard], [(['r'], 0)], [], {}⟩ : Workspace).basis? ['r'] = some (0, .standard) :=
    rfl
  rcases loads_alike hfile hbasis with ⟨ds, hread, -⟩ | ⟨e, hread, htext, hload, -⟩
  · rw [hfault] at hread
    simp at hread
  · obtain rfl := Except.error.inj (hfault.symm.trans hread)
    exact ⟨htext, hload⟩

end Workspace

end Combinatory
