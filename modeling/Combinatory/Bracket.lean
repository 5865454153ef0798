import Combinatory.Text.Basic

/-!
# Brackets

`openAfter n t` counts the brackets that are open after `t`, when `n` were open before it; there is no
such number when a closing bracket in `t` has no partner. A text is balanced when every opening
bracket is closed and no closing bracket comes first.

* `bracket_induction`: texts are gone through bracket by bracket.
* `openAfter_append`: brackets are counted from left to right.
* `depth_eq_zero_iff`: the depth of a text is zero exactly when the text is balanced.
-/

namespace Combinatory

/-- The brackets open after a text when `n` were open before it; `none` at a closing bracket without
partner. -/
def openAfter (n : Nat) : Text → Option Nat
  | [] => some n
  | c :: cs =>
    if c = '(' then openAfter (n + 1) cs
    else if c = ')' then
      match n with
      | 0 => none
      | m + 1 => openAfter m cs
    else openAfter n cs

@[simp] theorem openAfter_nil (n : Nat) : openAfter n [] = some n := rfl

@[simp] theorem openAfter_open (n : Nat) (t : Text) : openAfter n ('(' :: t) = openAfter (n + 1) t :=
  rfl

@[simp] theorem openAfter_close_zero (t : Text) : openAfter 0 (')' :: t) = none := rfl

@[simp] theorem openAfter_close_succ (n : Nat) (t : Text) :
    openAfter (n + 1) (')' :: t) = openAfter n t := rfl

theorem openAfter_other {c : Char} (ho : c ≠ '(') (hc : c ≠ ')') (n : Nat) (t : Text) :
    openAfter n (c :: t) = openAfter n t := by
  cases n <;> simp [openAfter, ho, hc]

/-- Induction by the first character of a text: an opening bracket, a closing one, or another. -/
@[elab_as_elim]
theorem bracket_induction {P : Text → Prop} (nil : P []) (opening : ∀ t, P t → P ('(' :: t))
    (closing : ∀ t, P t → P (')' :: t))
    (other : ∀ c t, c ≠ '(' → c ≠ ')' → P t → P (c :: t)) (t : Text) : P t := by
  induction t with
  | nil => exact nil
  | cons c cs ih =>
    by_cases ho : c = '('
    · exact ho ▸ opening cs ih
    · by_cases hc : c = ')'
      · exact hc ▸ closing cs ih
      · exact other c cs ho hc ih

theorem openAfter_append (n : Nat) (s t : Text) :
    openAfter n (s ++ t) = (openAfter n s).bind fun m => openAfter m t := by
  induction s using bracket_induction generalizing n with
  | nil => rfl
  | opening s ih => exact ih (n + 1)
  | closing s ih =>
    cases n with
    | zero => rfl
    | succ n => exact ih n
  | other c s ho hc ih => rw [List.cons_append, openAfter_other ho hc, openAfter_other ho hc, ih]

/-- The net depth of brackets of a text: how many are open at its end, or minus one when a closing
bracket has no partner. -/
def depth (t : Text) : Int :=
  match openAfter 0 t with
  | some n => n
  | none => -1

/-- Whether every opening bracket is closed and no closing bracket comes first. -/
def Balanced (t : Text) : Prop := openAfter 0 t = some 0

instance (t : Text) : Decidable (Balanced t) := inferInstanceAs (Decidable (_ = _))

theorem depth_eq_zero_iff {t : Text} : depth t = 0 ↔ Balanced t := by
  unfold depth Balanced
  cases openAfter 0 t with
  | none => simp
  | some n => simp

/-- Cuts a text after the bracket that closes the `n + 1` open ones; the whole text is the first part
when they never close. -/
def cutAtClose (n : Nat) : Text → Text × Text
  | [] => ([], [])
  | c :: cs =>
    if c = '(' then
      let (inside, rest) := cutAtClose (n + 1) cs
      (c :: inside, rest)
    else if c = ')' then
      match n with
      | 0 => ([c], cs)
      | m + 1 =>
        let (inside, rest) := cutAtClose m cs
        (c :: inside, rest)
    else
      let (inside, rest) := cutAtClose n cs
      (c :: inside, rest)

theorem cutAtClose_open (n : Nat) (t : Text) :
    cutAtClose n ('(' :: t) = ('(' :: (cutAtClose (n + 1) t).1, (cutAtClose (n + 1) t).2) := rfl

theorem cutAtClose_close_zero (t : Text) : cutAtClose 0 (')' :: t) = ([')'], t) := rfl

theorem cutAtClose_close_succ (n : Nat) (t : Text) :
    cutAtClose (n + 1) (')' :: t) = (')' :: (cutAtClose n t).1, (cutAtClose n t).2) := rfl

theorem cutAtClose_other {c : Char} (ho : c ≠ '(') (hc : c ≠ ')') (n : Nat) (t : Text) :
    cutAtClose n (c :: t) = (c :: (cutAtClose n t).1, (cutAtClose n t).2) := by
  simp [cutAtClose, ho, hc]

theorem cutAtClose_append (n : Nat) (t : Text) : (cutAtClose n t).1 ++ (cutAtClose n t).2 = t := by
  induction t using bracket_induction generalizing n with
  | nil => rfl
  | opening t ih => rw [cutAtClose_open, List.cons_append, ih]
  | closing t ih =>
    cases n with
    | zero => rfl
    | succ n => rw [cutAtClose_close_succ, List.cons_append, ih]
  | other c t ho hc ih => rw [cutAtClose_other ho hc, List.cons_append, ih]

/-- What is cut off is cut off as a whole. -/
theorem cutAtClose_fst (n : Nat) (t : Text) :
    cutAtClose n (cutAtClose n t).1 = ((cutAtClose n t).1, []) := by
  induction t using bracket_induction generalizing n with
  | nil => rfl
  | opening t ih => rw [cutAtClose_open, cutAtClose_open, ih]
  | closing t ih =>
    cases n with
    | zero => rfl
    | succ n => rw [cutAtClose_close_succ, cutAtClose_close_succ, ih]
  | other c t ho hc ih => rw [cutAtClose_other ho hc, cutAtClose_other ho hc, ih]

end Combinatory
