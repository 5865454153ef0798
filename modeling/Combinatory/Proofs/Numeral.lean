import Combinatory.Text.Number
import Mathlib.Algebra.Group.Nat.Defs
import Mathlib.Data.List.Induction

/-!
# Numbers in decimal digits

A number that is written in at most `maxDigits` digits is read again (`Text.toInt?_ofNat`), and no
number that is read needs more digits (`Text.length_ofNat_le_of_toInt?`).
-/

namespace Combinatory.Text

/-! ## Writing and reading -/

theorem toNat_of_isDigit {c : Char} (h : c.isDigit = true) : 48 ≤ c.toNat ∧ c.toNat ≤ 57 := by
  rw [Char.isDigit, Bool.and_eq_true, decide_eq_true_eq, decide_eq_true_eq,
    ge_iff_le, UInt32.le_iff_toNat_le, UInt32.le_iff_toNat_le] at h
  exact h

theorem digitValue?_of_isDigit {c : Char} (h : c.isDigit = true) :
    digitValue? c = some (c.toNat - '0'.toNat) := by
  obtain ⟨hlo, hhi⟩ := toNat_of_isDigit h
  have hzero : zeroDigits.find? (fun start => start ≤ c.toNat && c.toNat < start + 10) =
      some 0x30 := by
    refine List.find?_cons_of_pos ?_
    rw [Bool.and_eq_true, decide_eq_true_eq, decide_eq_true_eq]
    omega
  unfold digitValue?
  rw [hzero]
  rfl

theorem digits?_of_isDigit {t : Text} (hne : t ≠ []) (ht : ∀ c ∈ t, c.isDigit = true) :
    digits? t = some (t.map fun c => c.toNat - '0'.toNat) := by
  fun_induction digits? t with
  | case1 => exact absurd rfl hne
  | case2 c =>
    rw [digitValue?_of_isDigit (ht c List.mem_cons_self)]
    rfl
  | case3 c cs ih => exact absurd (ht '_' (by simp)) (by decide)
  | case4 c cs hcs _ ih =>
    rw [digitValue?_of_isDigit (ht c List.mem_cons_self),
      ih hcs fun x hx => ht x (List.mem_cons_of_mem c hx)]
    rfl

theorem isDigit_of_mem_ofNat {n : Nat} {c : Char} (h : c ∈ ofNat n) : c.isDigit = true :=
  Nat.isDigit_of_mem_toDigits (by omega) (by omega) h

theorem ofNat_ne_nil (n : Nat) : ofNat n ≠ [] := Nat.toDigits_ne_nil

theorem toNat?_ofNat {n : Nat} (h : (ofNat n).length ≤ maxDigits) : toNat? (ofNat n) = some n := by
  have hvalue : ofDigits ((ofNat n).map fun c => c.toNat - '0'.toNat) = n := by
    unfold ofDigits
    rw [List.foldl_map]
    exact Nat.ofDigitChars_toDigits (by omega) (by omega)
  unfold toNat?
  rw [digits?_of_isDigit (ofNat_ne_nil n) fun c hc => isDigit_of_mem_ofNat hc]
  dsimp only [Option.bind_eq_bind, Option.bind_some]
  rw [List.length_map, if_pos h, hvalue]

theorem trimBoth_eq_self {p : Char → Bool} {t : Text} (h : ∀ c ∈ t, p c = false) :
    trimBoth p t = t := by
  have hdrop : ∀ u : Text, (∀ c ∈ u, p c = false) → u.dropWhile p = u := by
    intro u hu
    cases u with
    | nil => rfl
    | cons c cs => exact List.dropWhile_cons_of_neg (by simp [hu c List.mem_cons_self])
  unfold trimBoth
  rw [hdrop t h, hdrop t.reverse fun c hc => h c (List.mem_reverse.1 hc), List.reverse_reverse]

theorem not_isNumberBlank_of_isDigit {c : Char} (h : c.isDigit = true) : isNumberBlank c = false := by
  obtain ⟨hlo, hhi⟩ := toNat_of_isDigit h
  rw [← Bool.not_eq_true]
  intro hb
  simp only [isNumberBlank, isWideBlank, Bool.or_eq_true, Bool.and_eq_true, decide_eq_true_eq,
    UInt32.le_iff_toNat_le, ← UInt32.toNat_inj] at hb
  unfold Char.toNat at hlo hhi
  simp only [UInt32.reduceToNat] at hb
  omega

/-- **A number of few enough digits is read as it was written.** -/
theorem toInt?_ofNat {n : Nat} (h : (ofNat n).length ≤ maxDigits) : toInt? (ofNat n) = some n := by
  have htrim : trimBoth isNumberBlank (ofNat n) = ofNat n :=
    trimBoth_eq_self fun c hc => not_isNumberBlank_of_isDigit (isDigit_of_mem_ofNat hc)
  have hsign : ∀ c cs, ofNat n = c :: cs → c.isDigit = true := fun c cs hcs =>
    isDigit_of_mem_ofNat (hcs ▸ List.mem_cons_self)
  unfold toInt?
  rw [htrim]
  split
  · next hcs => exact absurd (hsign _ _ hcs) (by decide)
  · next hcs => exact absurd (hsign _ _ hcs) (by decide)
  · rw [toNat?_ofNat h]
    rfl

/-! ## How long a number can be -/

theorem digitValue?_lt {c : Char} {d : Nat} (h : digitValue? c = some d) : d < 10 := by
  unfold digitValue? at h
  obtain ⟨start, hstart, rfl⟩ := Option.map_eq_some_iff.1 h
  have hrange := List.find?_some hstart
  simp only [Bool.and_eq_true, decide_eq_true_eq] at hrange
  omega

theorem digits?_lt {t : Text} {ds : List Nat} (h : digits? t = some ds) : ∀ d ∈ ds, d < 10 := by
  have hcons : ∀ {c : Char} {cs : Text} {ds : List Nat},
      (∀ es, digits? cs = some es → ∀ d ∈ es, d < 10) →
      (do return (← digitValue? c) :: (← digits? cs)) = some ds → ∀ d ∈ ds, d < 10 := by
    intro c cs ds ih h
    simp only [Option.bind_eq_bind, Option.bind_eq_some_iff] at h
    obtain ⟨v, hv, es, hes, hds⟩ := h
    obtain rfl := Option.some.inj hds
    intro d hd
    rcases List.mem_cons.1 hd with rfl | hd
    · exact digitValue?_lt hv
    · exact ih es hes d hd
  fun_induction digits? t generalizing ds with
  | case1 => simp at h
  | case2 c =>
    obtain ⟨v, hv, rfl⟩ := Option.map_eq_some_iff.1 h
    intro d hd
    obtain rfl := List.mem_singleton.1 hd
    exact digitValue?_lt hv
  | case3 c cs ih => exact hcons (fun _ => ih) h
  | case4 c cs _ _ ih => exact hcons (fun _ => ih) h

theorem ofDigits_lt {ds : List Nat} (h : ∀ d ∈ ds, d < 10) : ofDigits ds < 10 ^ ds.length := by
  induction ds using List.reverseRecOn with
  | nil => simp [ofDigits]
  | append_singleton ds d ih =>
    have hd := h d (by simp)
    have hds := ih fun x hx => h x (List.mem_append_left _ hx)
    unfold ofDigits at hds ⊢
    rw [List.foldl_append, List.length_append, List.length_singleton, Nat.pow_succ]
    simp only [List.foldl_cons, List.foldl_nil]
    omega

theorem length_ofNat_le_of_toNat? {t : Text} {n : Nat} (h : toNat? t = some n) :
    (ofNat n).length ≤ maxDigits := by
  unfold toNat? at h
  obtain ⟨ds, hds, h⟩ := Option.bind_eq_some_iff.1 h
  split at h
  · next hlen =>
    obtain rfl := Option.some.inj h
    refine (Nat.length_toDigits_le_iff (by omega) (by decide)).2 ?_
    exact Nat.lt_of_lt_of_le (ofDigits_lt (digits?_lt hds)) (Nat.pow_le_pow_right (by omega) hlen)
  · simp at h

/-- **A number that is read has few enough digits.** -/
theorem length_ofNat_le_of_toInt? {t : Text} {n : Int} (h : toInt? t = some n) :
    (ofNat n.toNat).length ≤ maxDigits := by
  unfold toInt? at h
  split at h
  · obtain ⟨m, hm, rfl⟩ := Option.map_eq_some_iff.1 h
    exact length_ofNat_le_of_toNat? hm
  · obtain ⟨m, -, rfl⟩ := Option.map_eq_some_iff.1 h
    -- No digit but zero is left of a number that is not positive.
    have hzero : (-Int.ofNat m).toNat = 0 := by
      rw [Int.ofNat_eq_natCast]
      omega
    rw [hzero]
    decide
  · obtain ⟨m, hm, rfl⟩ := Option.map_eq_some_iff.1 h
    exact length_ofNat_le_of_toNat? hm

end Combinatory.Text
