import Combinatory.Text.Basic

/-!
# UTF-8

`Utf8.encode` gives the bytes of a text, and `Utf8.decode` reads them back. A sequence of bytes that
is no UTF-8 is refused with its first defect: the byte that starts no character, or the bytes of a
character that is cut short, by a byte that cannot follow or by the end of the input.
-/

namespace Combinatory.Utf8

def encode (t : Text) : List UInt8 := t.flatMap String.utf8EncodeChar

/-- What is wrong with the bytes of a character. -/
inductive Defect where
  /-- No character starts with this byte. -/
  | start
  /-- The byte after these cannot follow them. -/
  | continuation
  /-- The input ends after these. -/
  | cut
  deriving DecidableEq, Repr

/-- The defect of a sequence of bytes: the first byte of the character and its position, and the
position of the last byte that fits. -/
structure DecodingError where
  defect : Defect
  byte : UInt8
  first : Nat
  last : Nat
  deriving DecidableEq, Repr

/-- A character of which some bytes have been read. -/
structure Pending where
  /-- Its first byte. -/
  byte : UInt8
  /-- The position of its first byte. -/
  first : Nat
  /-- How many bytes are missing, less one. -/
  missing : Nat
  /-- The least value that the next byte may have. -/
  low : Nat
  /-- The greatest value that the next byte may have. -/
  high : Nat
  /-- The bits of the code point read so far. -/
  code : Nat

/-- What the first byte of a longer character asks for. -/
def Pending.ofFirst? (byte : UInt8) (first : Nat) : Option Pending :=
  let n := byte.toNat
  if 0xC2 ≤ n ∧ n ≤ 0xDF then some ⟨byte, first, 0, 0x80, 0xBF, n - 0xC0⟩
  else if n = 0xE0 then some ⟨byte, first, 1, 0xA0, 0xBF, 0⟩
  else if n = 0xED then some ⟨byte, first, 1, 0x80, 0x9F, 0xD⟩
  else if 0xE1 ≤ n ∧ n ≤ 0xEF then some ⟨byte, first, 1, 0x80, 0xBF, n - 0xE0⟩
  else if n = 0xF0 then some ⟨byte, first, 2, 0x90, 0xBF, 0⟩
  else if n = 0xF4 then some ⟨byte, first, 2, 0x80, 0x8F, 4⟩
  else if 0xF1 ≤ n ∧ n ≤ 0xF3 then some ⟨byte, first, 2, 0x80, 0xBF, n - 0xF0⟩
  else none

/-- Reads the bytes from position `pos` on, inside the character `pending` if there is one. -/
def decodeFrom (pos : Nat) : Option Pending → List UInt8 → Except DecodingError Text
  | none, [] => .ok []
  | some p, [] => .error ⟨.cut, p.byte, p.first, pos - 1⟩
  | none, b :: bs =>
    if b.toNat < 0x80 then (decodeFrom (pos + 1) none bs).map (Char.ofNat b.toNat :: ·)
    else
      match Pending.ofFirst? b pos with
      | none => .error ⟨.start, b, pos, pos⟩
      | some p => decodeFrom (pos + 1) (some p) bs
  | some p, b :: bs =>
    if p.low ≤ b.toNat ∧ b.toNat ≤ p.high then
      let code := p.code * 0x40 + (b.toNat - 0x80)
      match p.missing with
      | 0 => (decodeFrom (pos + 1) none bs).map (Char.ofNat code :: ·)
      | n + 1 => decodeFrom (pos + 1) (some ⟨p.byte, p.first, n, 0x80, 0xBF, code⟩) bs
    else .error ⟨.continuation, p.byte, p.first, pos - 1⟩

def decode (bytes : List UInt8) : Except DecodingError Text := decodeFrom 0 none bytes

end Combinatory.Utf8
