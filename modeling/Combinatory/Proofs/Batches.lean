import Combinatory.Proofs.DocumentLines
import Combinatory.Proofs.SharedBasis

/-!
# Changes are made whole or not at all

A change to a basis brings combinators, of which there may be many, and any of them may be at fault. All
of them are made before the first is appended.

1. `BasisChange.Brings` says which combinators a change brings, in terms of what records, lines and
   files define; `Basis.define_eq_ok_iff` and `Document.load_eq_ok_iff` say that they are made.
2. A basis after a change consists of its combinators, or of none if the change replaces them, and of
   those that were brought (`Workspace.changed_eq_ok_iff`).

`Workspace.changes_whole_or_not`: a change either does this or leaves the workspace as it is, and a text
is refused exactly if one of its lines is at fault, of which the first is told.
-/

namespace Combinatory

/-! ## What a change brings -/

/-- The value is a record that defines the combinator. -/
def Combinator.GivenAs (d : Combinator) (value : Field) : Prop :=
  ∃ fields, value = .list fields ∧ d.GivenBy (fields.map Field.plain)

theorem Combinator.ofField_eq_ok_iff {d : Combinator} {value : Field} :
    ofField value = .ok d ↔ d.GivenAs value := by
  unfold ofField GivenAs
  cases value with
  | list fields =>
    show (Record.ofFields fields >>= ofRecord) = .ok d ↔ _
    rw [ofFields_bind_eq_ok_iff]
    simp
  | text | number | flag | absent => simp [Record.ofField, bind, Except.bind]

theorem Basis.define_eq_ok_iff {values : List Field} {ds : List Combinator} :
    define values = .ok ds ↔ List.Forall₂ (fun value d => d.GivenAs value) values ds := by
  unfold define
  induction values generalizing ds with
  | nil =>
    constructor
    · intro h
      obtain rfl : [] = ds := Except.ok.inj h
      exact .nil
    · rintro ⟨⟩
      rfl
  | cons value values ih =>
    rw [List.mapM_cons]
    constructor
    · intro h
      cases hd : Combinator.ofField value with
      | error e => simp [hd, bind, Except.bind] at h
      | ok d =>
        cases hrest : values.mapM Combinator.ofField with
        | error e => simp [hd, hrest, bind, Except.bind] at h
        | ok rest =>
          rw [hd, hrest] at h
          obtain rfl := Except.ok.inj h
          exact .cons (Combinator.ofField_eq_ok_iff.1 hd) (ih.1 hrest)
    · intro h
      cases h with
      | cons hd hrest =>
        rw [Combinator.ofField_eq_ok_iff.2 hd, ih.2 hrest]
        rfl

theorem Document.load_eq_ok_iff {fs : FileSystem} {p : Path} {ds : List Combinator} :
    load fs p = .ok ds ↔ ∃ t, fs.readText p = .ok t ∧ DefineAll (Text.lines t) ds := by
  unfold load
  constructor
  · intro h
    split at h
    · simp at h
    · next t ht =>
      split at h
      · simp at h
      · next hread =>
        obtain rfl := Except.ok.inj h
        exact ⟨t, ht, read_eq_ok_iff.1 hread⟩
  · rintro ⟨t, ht, hall⟩
    rw [ht]
    dsimp only
    rw [read_eq_ok_iff.2 hall]

namespace BasisChange

/-- The combinators that a change brings to a basis of the workspace. -/
def Brings (w : Workspace) (fs : FileSystem) : BasisChange → List Combinator → Prop
  | .append value, ds => ∃ d : Combinator, ds = [d] ∧ d.GivenAs value
  | .extend values, ds | .set values, ds =>
    List.Forall₂ (fun value d => d.GivenAs value) values ds
  | .loadText t, ds => Document.DefineAll (Text.lines t) ds
  | .loadFile path, ds =>
    ∃ t, fs.readText (.parse path) = .ok t ∧ Document.DefineAll (Text.lines t) ds
  | .extendFrom name, ds => ∃ place R, w.basis? name = some (place, R) ∧ ds = R.combinators

/-- What stays of the combinators of a basis when a change is made. -/
def kept (R : Basis) : BasisChange → List Combinator
  | .set _ => []
  | .append _ | .extend _ | .loadText _ | .loadFile _ | .extendFrom _ => R.combinators

end BasisChange

/-! ## What a change makes -/

section Outcomes

variable {α β ε δ : Type} {x : Except ε α} {g : α → β} {k : ε → δ}

theorem mapError_map_eq_ok_iff {v : β} :
    (x.map g).mapError k = .ok v ↔ ∃ a, x = .ok a ∧ g a = v := by
  cases x <;> simp [Except.map, Except.mapError]

theorem exists_of_mapError_map_eq_error {e : δ} (h : (x.map g).mapError k = .error e) :
    ∃ f, x = .error f ∧ k f = e := by
  cases x with
  | error f => exact ⟨f, rfl, Except.error.inj h⟩
  | ok a => simp [Except.map, Except.mapError] at h

end Outcomes

namespace Workspace

variable {w : Workspace} {fs : FileSystem} {name : Text} {place : Nat} {R R' : Basis}
  {change : BasisChange}

/-- **A basis is changed exactly if the change brings combinators**; they stand behind those that are
kept. -/
theorem changed_eq_ok_iff :
    w.changed fs R change = .ok R' ↔
      ∃ ds, change.Brings w fs ds ∧ R' = ⟨change.kept R ++ ds⟩ := by
  cases change with
  | append value =>
    unfold changed BasisChange.Brings
    rw [mapError_map_eq_ok_iff]
    constructor
    · rintro ⟨d, hd, rfl⟩
      exact ⟨[d], ⟨d, rfl, Combinator.ofField_eq_ok_iff.1 hd⟩, rfl⟩
    · rintro ⟨_, ⟨d, rfl, hd⟩, rfl⟩
      exact ⟨d, Combinator.ofField_eq_ok_iff.2 hd, rfl⟩
  | extend values =>
    unfold changed Basis.extendFields
    rw [mapError_map_eq_ok_iff]
    exact exists_congr fun ds => and_congr Basis.define_eq_ok_iff eq_comm
  | set values =>
    unfold changed
    rw [mapError_map_eq_ok_iff]
    exact exists_congr fun ds => and_congr Basis.define_eq_ok_iff eq_comm
  | loadText t =>
    unfold changed Basis.extendDocument
    rw [mapError_map_eq_ok_iff]
    exact exists_congr fun ds => and_congr Document.read_eq_ok_iff eq_comm
  | loadFile path =>
    unfold changed Basis.extendFile
    rw [mapError_map_eq_ok_iff]
    exact exists_congr fun ds => and_congr Document.load_eq_ok_iff eq_comm
  | extendFrom other =>
    unfold changed BasisChange.Brings
    dsimp only
    constructor
    · intro h
      split at h
      · next place S hS =>
        obtain rfl := Except.ok.inj h
        exact ⟨S.combinators, ⟨place, S, hS, rfl⟩, rfl⟩
      · simp at h
    · rintro ⟨_, ⟨place, S, hS, rfl⟩, rfl⟩
      rw [hS]
      rfl

theorem basis?_eq_some_iff :
    w.basis? name = some (place, R) ↔
      w.basisNames.lookup name = some place ∧ w.bases[place]? = some R := by
  unfold basis?
  constructor
  · intro h
    obtain ⟨k, hl, h⟩ := Option.bind_eq_some_iff.1 h
    obtain ⟨S, hb, h⟩ := Option.bind_eq_some_iff.1 h
    cases Option.some.inj h
    exact ⟨hl, hb⟩
  · rintro ⟨hl, hb⟩
    rw [hl]
    show (do return (place, ← w.bases[place]?)) = some (place, R)
    rw [hb]
    rfl

theorem basis?_setBasis (h : w.basis? name = some (place, R)) (R' : Basis) :
    (w.setBasis place R').basis? name = some (place, R') := by
  obtain ⟨hl, hb⟩ := basis?_eq_some_iff.1 h
  obtain ⟨hlt, -⟩ := List.getElem?_eq_some_iff.1 hb
  refine basis?_eq_some_iff.2 ⟨hl, ?_⟩
  exact List.getElem?_set_self hlt

theorem perform_of_changed_ok (h : w.basis? name = some (place, R))
    (hR : w.changed fs R change = .ok R') :
    w.perform fs (.changeBasis name change) = (w.setBasis place R', .ok .done) := by
  unfold perform
  dsimp only
  rw [h]
  dsimp only
  rw [hR]

theorem perform_of_changed_error {e : WorkspaceError} (h : w.basis? name = some (place, R))
    (he : w.changed fs R change = .error e) :
    w.perform fs (.changeBasis name change) = (w, .error e) := by
  unfold perform
  dsimp only
  rw [h]
  dsimp only
  rw [he]

theorem cases_of_changeBasis (h : w.basis? name = some (place, R)) (fs : FileSystem)
    (change : BasisChange) :
    (∃ ds, change.Brings w fs ds ∧
      w.perform fs (.changeBasis name change) =
        (w.setBasis place ⟨change.kept R ++ ds⟩, .ok .done)) ∨
    (∀ ds, ¬ change.Brings w fs ds) ∧
      ∃ e, w.perform fs (.changeBasis name change) = (w, .error e) := by
  cases hc : w.changed fs R change with
  | ok R' =>
    obtain ⟨ds, hds, rfl⟩ := changed_eq_ok_iff.1 hc
    exact .inl ⟨ds, hds, perform_of_changed_ok h hc⟩
  | error e =>
    refine .inr ⟨fun ds hds => ?_, e, perform_of_changed_error h hc⟩
    have hok : w.changed fs R change = .ok ⟨change.kept R ++ ds⟩ :=
      changed_eq_ok_iff.2 ⟨ds, hds, rfl⟩
    rw [hc] at hok
    simp at hok

theorem exists_of_changed_loadText {t : Text} {e : WorkspaceError}
    (h : w.changed fs R (.loadText t) = .error e) :
    ∃ front line rest fault, Text.lines t = front ++ line :: rest ∧
      (∀ l ∈ front, ∃ o, Document.Defines l o) ∧ (¬ ∃ o, Document.Defines line o) ∧
      e = .document fault ∧ fault.line = front.length + 1 := by
  obtain ⟨fault, hread, rfl⟩ := exists_of_mapError_map_eq_error h
  obtain ⟨front, line, rest, hlines, hfront, hline, hn⟩ := Document.exists_of_read_error hread
  exact ⟨front, line, rest, fault, hlines, hfront, hline, rfl, hn⟩

/-- **Changes are made whole or not at all.** A change to a basis is made if it brings combinators, and
then the basis consists of those that are kept, which is all of them unless the change replaces them,
and of those that were brought, in their order; otherwise the change fails and nothing at all is
changed. A text is loaded if every line of it is blank, a comment or a definition; otherwise the first
line that is none of these is told by its place among all lines. -/
theorem changes_whole_or_not (h : w.basis? name = some (place, R)) (fs : FileSystem) :
    (∀ change : BasisChange,
      (∃ ds, change.Brings w fs ds ∧
        w.perform fs (.changeBasis name change) =
          (w.setBasis place ⟨change.kept R ++ ds⟩, .ok .done) ∧
        (w.perform fs (.changeBasis name change)).1.basis? name =
          some (place, ⟨change.kept R ++ ds⟩)) ∨
      (∀ ds, ¬ change.Brings w fs ds) ∧
        ∃ e, w.perform fs (.changeBasis name change) = (w, .error e)) ∧
    ∀ t : Text,
      ((w.perform fs (.changeBasis name (.loadText t))).2 = .ok .done ↔
        ∀ line ∈ Text.lines t, ∃ o, Document.Defines line o) ∧
      ∀ e, (w.perform fs (.changeBasis name (.loadText t))).2 = .error e →
        ∃ front line rest fault, Text.lines t = front ++ line :: rest ∧
          (∀ l ∈ front, ∃ o, Document.Defines l o) ∧ (¬ ∃ o, Document.Defines line o) ∧
          e = .document fault ∧ fault.line = front.length + 1 := by
  refine ⟨fun change => ?_, fun t => ⟨?_, fun e he => ?_⟩⟩
  · rcases cases_of_changeBasis h fs change with ⟨ds, hds, hp⟩ | ⟨hds, e, hp⟩
    · refine .inl ⟨ds, hds, hp, ?_⟩
      rw [hp]
      exact basis?_setBasis h _
    · exact .inr ⟨hds, e, hp⟩
  · rw [← Document.exists_defineAll_iff]
    rcases cases_of_changeBasis h fs (.loadText t) with ⟨ds, hds, hp⟩ | ⟨hds, e, hp⟩
    · rw [hp]
      exact iff_of_true rfl ⟨ds, hds⟩
    · rw [hp]
      exact iff_of_false (by simp) fun ⟨ds, hall⟩ => hds ds hall
  · cases hc : w.changed fs R (.loadText t) with
    | ok R' =>
      rw [perform_of_changed_ok h hc] at he
      simp at he
    | error e' =>
      rw [perform_of_changed_error h hc] at he
      obtain rfl := Except.error.inj he
      exact exists_of_changed_loadText hc

/-- Two lines that are passed over count as lines: the third line of the text is at fault. With a
number in place of its arity, the basis is extended. -/
theorem changes_whole_or_not_arity :
    (∃ front line rest, Text.lines "# W\n\nW,x,011\n".toList = front ++ line :: rest ∧
      front.length = 2 ∧ (∀ l ∈ front, ∃ o, Document.Defines l o) ∧
      ¬ ∃ o, Document.Defines line o) ∧
    ∃ ds, Document.DefineAll (Text.lines "# W\n\nW,2,011\n".toList) ds ∧
      ((⟨[.standard], [(['r'], 0)], [], {}⟩ : Workspace).perform (.ofList [])
        (.changeBasis ['r'] (.loadText "# W\n\nW,2,011\n".toList))).1.basis? ['r'] =
          some (0, ⟨Basis.standard.combinators ++ ds⟩) := by
  have hr : (⟨[.standard], [(['r'], 0)], [], {}⟩ : Workspace).basis? ['r'] = some (0, .standard) := rfl
  have hall := changes_whole_or_not hr (.ofList [])
  constructor
  · obtain ⟨front, line, rest, fault, hlines, hfront, hline, he, hn⟩ :=
      (hall.2 "# W\n\nW,x,011\n".toList).2 (.document ⟨3, .arityNotNumber ['W'] ['x']⟩) rfl
    obtain rfl := WorkspaceError.document.inj he
    have hlen : 3 = front.length + 1 := hn
    exact ⟨front, line, rest, hlines, by omega, hfront, hline⟩
  · rcases hall.1 (.loadText "# W\n\nW,2,011\n".toList) with ⟨ds, hds, -, hbasis⟩ | ⟨-, e, he⟩
    · exact ⟨ds, hds, hbasis⟩
    · exact absurd (congrArg Prod.snd he) (by rintro ⟨⟩)

end Workspace

end Combinatory
