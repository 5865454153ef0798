import Combinatory.Text.Utf8
import Mathlib.Algebra.Group.Nat.Defs
import Mathlib.Algebra.GroupWithZero.Nat

/-!
# Texts from their bytes

The bytes of a text are read as this text (`Utf8.decode_encode`).

1. Behind its first byte, a character has one to three bytes, with six bits of its code point in each
   (`Utf8.tails`). A character of which some bytes have been read awaits the others
   (`Utf8.Pending.Awaits`): the code read so far is what stands before those bits. Each byte keeps this
   (`Utf8.decodeFrom_tails`).
2. The first byte tells how many bytes are to come, and which the next one may be. The second byte of a
   character is one of those (`Utf8.awaits_two`, `Utf8.awaits_three`, `Utf8.awaits_four`): no code point
   is written with more bytes than it needs, and none is a surrogate or greater than U+10FFFF.
-/

namespace Combinatory.Utf8

variable {p : Pending} {v n : Nat} {b : UInt8} {bs : List UInt8} {t : Text}

/-! ## Single bytes -/

theorem decodeFrom_ascii (hb : b.toNat < 0x80) (pos : Nat) (bs : List UInt8) :
    decodeFrom pos none (b :: bs) =
      (decodeFrom (pos + 1) none bs).map (Char.ofNat b.toNat :: ·) := by
  rw [decodeFrom, if_pos hb]

theorem decodeFrom_first {pos : Nat} (hb : ¬ b.toNat < 0x80) (hp : Pending.ofFirst? b pos = some p)
    (bs : List UInt8) : decodeFrom pos none (b :: bs) = decodeFrom (pos + 1) (some p) bs := by
  rw [decodeFrom, if_neg hb, hp]

theorem decodeFrom_last (hm : p.missing = 0) (hb : p.low ≤ b.toNat ∧ b.toNat ≤ p.high) (pos : Nat)
    (bs : List UInt8) :
    decodeFrom pos (some p) (b :: bs) = (decodeFrom (pos + 1) none bs).map
      (Char.ofNat (p.code * 0x40 + (b.toNat - 0x80)) :: ·) := by
  rw [decodeFrom, if_pos hb]
  dsimp only
  rw [hm]

theorem decodeFrom_next (hm : p.missing = n + 1) (hb : p.low ≤ b.toNat ∧ b.toNat ≤ p.high)
    (pos : Nat) (bs : List UInt8) :
    decodeFrom pos (some p) (b :: bs) = decodeFrom (pos + 1)
      (some ⟨p.byte, p.first, n, 0x80, 0xBF, p.code * 0x40 + (b.toNat - 0x80)⟩) bs := by
  rw [decodeFrom, if_pos hb]
  dsimp only
  rw [hm]

/-! ## The bytes behind the first -/

/-- A byte with the six bits of a number that stand before its last `k` times six bits. -/
def tail (k v : Nat) : UInt8 := UInt8.ofNat (v / 64 ^ k % 64 + 0x80)

/-- The last `k` bytes of the character with the code point `v`. -/
def tails : Nat → Nat → List UInt8
  | 0, _ => []
  | k + 1, v => tail k v :: tails k v

theorem toNat_tail (k v : Nat) : (tail k v).toNat = v / 64 ^ k % 64 + 0x80 := by
  unfold tail
  rw [UInt8.toNat_ofNat']
  omega

/-- Six bits more of a number. -/
theorem div_mul_add_tail (k v : Nat) :
    v / 64 ^ (k + 1) * 0x40 + ((tail k v).toNat - 0x80) = v / 64 ^ k := by
  rw [toNat_tail, Nat.pow_succ, ← Nat.div_div_eq_div_mul]
  omega

/-- All of the code point has been read but the last bytes, and the next of them is allowed. -/
structure Pending.Awaits (p : Pending) (v : Nat) : Prop where
  code_eq : p.code = v / 64 ^ (p.missing + 1)
  low_le : p.low ≤ (tail p.missing v).toNat
  le_high : (tail p.missing v).toNat ≤ p.high

/-- **A character that awaits its last bytes is read with them.** -/
theorem decodeFrom_tails (h : p.Awaits v) (hbs : ∀ pos, decodeFrom pos none bs = .ok t) (pos : Nat) :
    decodeFrom pos (some p) (tails (p.missing + 1) v ++ bs) = .ok (Char.ofNat v :: t) := by
  generalize hm : p.missing = m
  have hbounds := And.intro h.low_le h.le_high
  have hcode := h.code_eq
  rw [hm] at hbounds hcode
  rw [tails, List.cons_append]
  induction m generalizing p pos with
  | zero =>
    have hlast : p.code * 0x40 + ((tail 0 v).toNat - 0x80) = v := by
      rw [hcode, div_mul_add_tail, Nat.pow_zero, Nat.div_one]
    rw [decodeFrom_last hm hbounds, hlast, tails, List.nil_append, hbs]
    rfl
  | succ m ih =>
    have htail := toNat_tail m v
    rw [decodeFrom_next hm hbounds, hcode, div_mul_add_tail]
    have hnext : (⟨p.byte, p.first, m, 0x80, 0xBF, v / 64 ^ (m + 1)⟩ : Pending).Awaits v :=
      ⟨rfl, by dsimp only; omega, by dsimp only; omega⟩
    exact ih hnext (pos + 1) rfl ⟨hnext.low_le, hnext.le_high⟩ rfl

/-! ## The first byte -/

theorem awaits_two (hb : b.toNat = v / 64 + 0xC0) (hlow : 0x80 ≤ v) (hhigh : v < 0x800) (pos : Nat) :
    ∃ p, Pending.ofFirst? b pos = some p ∧ p.missing = 0 ∧ p.Awaits v := by
  have htail := toNat_tail 0 v
  unfold Pending.ofFirst?
  dsimp only
  rw [if_pos (by omega)]
  refine ⟨_, rfl, rfl, ?_, ?_, ?_⟩ <;> dsimp only <;> omega

theorem awaits_three (hb : b.toNat = v / 4096 + 0xE0) (hlow : 0x800 ≤ v) (hhigh : v < 0x10000)
    (hvalid : v < 0xD800 ∨ 0xDFFF < v) (pos : Nat) :
    ∃ p, Pending.ofFirst? b pos = some p ∧ p.missing = 1 ∧ p.Awaits v := by
  have htail := toNat_tail 1 v
  unfold Pending.ofFirst?
  dsimp only
  rw [if_neg (by omega)]
  -- 0xE0 raises the least second byte and 0xED lowers the greatest; any other first byte leaves both.
  split
  · refine ⟨_, rfl, rfl, ?_, ?_, ?_⟩ <;> dsimp only <;> omega
  · split
    · refine ⟨_, rfl, rfl, ?_, ?_, ?_⟩ <;> dsimp only <;> omega
    · rw [if_pos (by omega)]
      refine ⟨_, rfl, rfl, ?_, ?_, ?_⟩ <;> dsimp only <;> omega

theorem awaits_four (hb : b.toNat = v / 262144 + 0xF0) (hlow : 0x10000 ≤ v) (hhigh : v < 0x110000)
    (pos : Nat) : ∃ p, Pending.ofFirst? b pos = some p ∧ p.missing = 2 ∧ p.Awaits v := by
  have htail := toNat_tail 2 v
  unfold Pending.ofFirst?
  dsimp only
  rw [if_neg (by omega), if_neg (by omega), if_neg (by omega), if_neg (by omega)]
  -- So do 0xF0 and 0xF4.
  split
  · refine ⟨_, rfl, rfl, ?_, ?_, ?_⟩ <;> dsimp only <;> omega
  · split
    · refine ⟨_, rfl, rfl, ?_, ?_, ?_⟩ <;> dsimp only <;> omega
    · rw [if_pos (by omega)]
      refine ⟨_, rfl, rfl, ?_, ?_, ?_⟩ <;> dsimp only <;> omega

/-! ## Characters and texts -/

theorem decodeFrom_of_awaits {pos : Nat} (hb : 0x80 ≤ b.toNat)
    (h : ∃ p, Pending.ofFirst? b pos = some p ∧ p.missing = n ∧ p.Awaits v)
    (hbs : ∀ pos, decodeFrom pos none bs = .ok t) :
    decodeFrom pos none (b :: tails (n + 1) v ++ bs) = .ok (Char.ofNat v :: t) := by
  obtain ⟨p, hp, rfl, hawaits⟩ := h
  rw [List.cons_append, decodeFrom_first (by omega) hp]
  exact decodeFrom_tails hawaits hbs (pos + 1)

theorem tails_one (v : Nat) : tails 1 v = [UInt8.ofNat (v % 64 + 128)] := by
  unfold tails tail tails
  rw [Nat.pow_zero, Nat.div_one]

theorem tails_two (v : Nat) : tails 2 v = UInt8.ofNat (v / 64 % 64 + 128) :: tails 1 v := rfl

theorem tails_three (v : Nat) : tails 3 v = UInt8.ofNat (v / 4096 % 64 + 128) :: tails 2 v := rfl

/-- A first byte: the bits of a number that are left, which the remainder does not change, and a mark. -/
theorem toNat_ofNat_add {m k : Nat} (h : n % m + k < 256) (hn : n < m) :
    (UInt8.ofNat (n % m + k)).toNat = n + k := by
  rw [UInt8.toNat_ofNat', Nat.mod_eq_of_lt h, Nat.mod_eq_of_lt hn]

/-- **The bytes of a character are read as this character**, and what follows them as what it is. -/
theorem decodeFrom_encodeChar (c : Char) (hbs : ∀ pos, decodeFrom pos none bs = .ok t) (pos : Nat) :
    decodeFrom pos none (String.utf8EncodeChar c ++ bs) = .ok (c :: t) := by
  have hvalid : c.val.toNat < 0xD800 ∨ 0xDFFF < c.val.toNat ∧ c.val.toNat < 0x110000 := c.valid
  have hchar : Char.ofNat c.val.toNat = c := c.ofNat_toNat
  unfold String.utf8EncodeChar
  dsimp only
  generalize c.val.toNat = v at hvalid hchar ⊢
  subst hchar
  split
  · have hb : (UInt8.ofNat v).toNat = v := by
      rw [UInt8.toNat_ofNat']
      omega
    rw [List.singleton_append, decodeFrom_ascii (by omega), hb, hbs]
    rfl
  · split
    · have hb : (UInt8.ofNat (v / 64 % 32 + 192)).toNat = v / 64 + 0xC0 :=
        toNat_ofNat_add (by omega) (by omega)
      rw [← tails_one]
      exact decodeFrom_of_awaits (by omega) (awaits_two hb (by omega) (by omega) pos) hbs
    · split
      · have hb : (UInt8.ofNat (v / 4096 % 16 + 224)).toNat = v / 4096 + 0xE0 :=
          toNat_ofNat_add (by omega) (by omega)
        rw [← tails_one, ← tails_two]
        exact decodeFrom_of_awaits (by omega)
          (awaits_three hb (by omega) (by omega) (by omega) pos) hbs
      · have hb : (UInt8.ofNat (v / 262144 % 8 + 240)).toNat = v / 262144 + 0xF0 :=
          toNat_ofNat_add (by omega) (by omega)
        rw [← tails_one, ← tails_two, ← tails_three]
        exact decodeFrom_of_awaits (by omega) (awaits_four hb (by omega) (by omega) pos) hbs

theorem decodeFrom_encode (t : Text) (pos : Nat) : decodeFrom pos none (encode t) = .ok t := by
  induction t generalizing pos with
  | nil => rfl
  | cons c cs ih =>
    unfold encode at ih ⊢
    rw [List.flatMap_cons]
    exact decodeFrom_encodeChar c ih pos

/-- **The bytes of a text are read as this text.** -/
theorem decode_encode (t : Text) : decode (encode t) = .ok t := decodeFrom_encode t 0

end Combinatory.Utf8
