import Mathlib.Data.UInt
import Mathlib.Tactic.Ring

/-!
# Bytes: UTF-8 validity and base64

A Go `string` is a sequence of bytes that need not be valid UTF-8, and the codec
of `proto_message.go` depends on exactly that: it asks `utf8.ValidString` before
choosing between the text and the binary path.  So the model keeps the bytes of a
string (`Bytes`) rather than a Lean `String`.

This file models the two pieces of Go's standard library the codec calls on
bytes:

* `validString` is `utf8.ValidString`, one lead byte at a time, with the
  accepted ranges of the `first`/`acceptRanges` tables (RFC 3629 §4);
* `encodeToString` and `decodeString` are `base64.StdEncoding`'s, padded, with
  `\r` and `\n` skipped on decoding and non-zero trailing bits accepted.

The one law the codec needs of base64 is `decodeString_encodeToString`.

## Honest boundary

A decoding error is reported as `illegal base64 data at input byte`, without the
offset Go appends.
-/

namespace Ably.Codec

/-- The bytes of a Go `string` or `[]byte`. -/
abbrev Bytes := List UInt8

theorem UInt8.ofNat_toNat' (a : UInt8) : UInt8.ofNat a.toNat = a := by
  apply UInt8.eq_of_toBitVec_eq
  simp [UInt8.ofNat, UInt8.toNat]

theorem UInt8.toNat_lt' (a : UInt8) : a.toNat < 256 := a.toBitVec.isLt

/-! ## `utf8.ValidString` -/

/-- A continuation byte, `0x80`–`0xBF`. -/
def isTail (b : UInt8) : Bool := 0x80 ≤ b && b ≤ 0xBF

/-- For a lead byte from `0x80` on: how many bytes its sequence has, and the
range its second byte must lie in.  `none` for a byte that cannot lead. -/
def leadInfo (a : UInt8) : Option (Nat × UInt8 × UInt8) :=
  if a < 0xC2 then none
  else if a ≤ 0xDF then some (2, 0x80, 0xBF)
  else if a = 0xE0 then some (3, 0xA0, 0xBF)
  else if a ≤ 0xEC then some (3, 0x80, 0xBF)
  else if a = 0xED then some (3, 0x80, 0x9F)
  else if a ≤ 0xEF then some (3, 0x80, 0xBF)
  else if a = 0xF0 then some (4, 0x90, 0xBF)
  else if a ≤ 0xF3 then some (4, 0x80, 0xBF)
  else if a = 0xF4 then some (4, 0x80, 0x8F)
  else none

/-- `utf8.ValidString`. -/
def validString : Bytes → Bool
  | [] => true
  | a :: rest =>
    if a < 0x80 then validString rest
    else match leadInfo a, rest with
      | some (2, lo, hi), b :: r => lo ≤ b && b ≤ hi && validString r
      | some (3, lo, hi), b :: c :: r => lo ≤ b && b ≤ hi && isTail c && validString r
      | some (4, lo, hi), b :: c :: d :: r =>
        lo ≤ b && b ≤ hi && isTail c && isTail d && validString r
      | _, _ => false

/-! ## `base64.StdEncoding` -/

/-- The padding character `=`. -/
def padChar : UInt8 := 61

/-- `encodeStd[i]`: the standard alphabet `A–Z a–z 0–9 + /`. -/
def encodeStd (i : Nat) : UInt8 :=
  UInt8.ofNat <|
    if i < 26 then 65 + i else if i < 52 then 71 + i else if i < 62 then i - 4
    else if i = 62 then 43 else 47

/-- The decode map: the index of an alphabet character. -/
def decodeStd (c : UInt8) : Option Nat :=
  let n := c.toNat
  if 65 ≤ n ∧ n ≤ 90 then some (n - 65)
  else if 97 ≤ n ∧ n ≤ 122 then some (n - 71)
  else if 48 ≤ n ∧ n ≤ 57 then some (n + 4)
  else if n = 43 then some 62
  else if n = 47 then some 63
  else none

/-- `byte(val >> k)`. -/
def byteOf (val k : Nat) : UInt8 := UInt8.ofNat (val / 2 ^ k % 256)

/-- `StdEncoding.EncodeToString`: three bytes to four characters, the last group
padded with `=`. -/
def encodeToString : Bytes → Bytes
  | a :: b :: c :: rest =>
    let val := a.toNat * 2 ^ 16 + b.toNat * 2 ^ 8 + c.toNat
    [val / 2 ^ 18 % 64, val / 2 ^ 12 % 64, val / 2 ^ 6 % 64, val % 64].map encodeStd ++
      encodeToString rest
  | [a, b] =>
    let val := a.toNat * 2 ^ 16 + b.toNat * 2 ^ 8
    [val / 2 ^ 18 % 64, val / 2 ^ 12 % 64, val / 2 ^ 6 % 64].map encodeStd ++ [padChar]
  | [a] =>
    let val := a.toNat * 2 ^ 16
    [val / 2 ^ 18 % 64, val / 2 ^ 12 % 64].map encodeStd ++ [padChar, padChar]
  | [] => []

/-- The error `base64` reports on malformed input. -/
def corruptInput : String := "illegal base64 data at input byte"

/-- Four characters at a time; `=` may only close the last group. -/
def decodeQuanta : Bytes → Except String Bytes
  | [] => .ok []
  | c₀ :: c₁ :: c₂ :: c₃ :: rest =>
    match decodeStd c₀, decodeStd c₁ with
    | some s₀, some s₁ =>
      if c₂ = padChar then
        if c₃ = padChar ∧ rest = [] then .ok [byteOf (s₀ * 2 ^ 18 + s₁ * 2 ^ 12) 16]
        else .error corruptInput
      else match decodeStd c₂ with
        | none => .error corruptInput
        | some s₂ =>
          let val := s₀ * 2 ^ 18 + s₁ * 2 ^ 12 + s₂ * 2 ^ 6
          if c₃ = padChar then
            if rest = [] then .ok [byteOf val 16, byteOf val 8] else .error corruptInput
          else match decodeStd c₃ with
            | none => .error corruptInput
            | some s₃ =>
              let val := val + s₃
              (decodeQuanta rest).map ([byteOf val 16, byteOf val 8, byteOf val 0] ++ ·)
    | _, _ => .error corruptInput
  | _ => .error corruptInput

/-- `StdEncoding.DecodeString`: line breaks are skipped. -/
def decodeString (s : Bytes) : Except String Bytes :=
  decodeQuanta (s.filter fun c => c ≠ 13 ∧ c ≠ 10)

/-! ## Round trip -/

theorem decodeStd_encodeStd : ∀ i : Fin 64, decodeStd (encodeStd i) = some i := by
  decide

theorem encodeStd_ne_pad : ∀ i : Fin 64, encodeStd i ≠ padChar := by
  decide

/-- The alphabet runs from `+` to `z`. -/
theorem encodeStd_range (i : Nat) : 43 ≤ (encodeStd i).toNat ∧ (encodeStd i).toNat ≤ 122 := by
  unfold encodeStd
  split_ifs <;> rw [UInt8.toNat_ofNat_of_lt (by simp only [UInt8.size]; omega)] <;> omega

/-- Everything base64 writes is a printable ASCII character, from `+` to `z`. -/
theorem encodeToString_range (bs : Bytes) :
    ∀ c ∈ encodeToString bs, 43 ≤ c.toNat ∧ c.toNat ≤ 122 := by
  have hpad : 43 ≤ padChar.toNat ∧ padChar.toNat ≤ 122 := by decide
  induction bs using encodeToString.induct <;> simp_all [encodeToString, encodeStd_range]

theorem decodeStd_encodeStd' {i : Nat} (h : i < 64) : decodeStd (encodeStd i) = some i :=
  decodeStd_encodeStd ⟨i, h⟩

theorem encodeStd_ne_pad' {i : Nat} (h : i < 64) : encodeStd i = padChar ↔ False :=
  iff_false_intro (encodeStd_ne_pad ⟨i, h⟩)

theorem byteOf_eq {v k : Nat} {a : UInt8} (h : v / 2 ^ k % 256 = a.toNat) : byteOf v k = a := by
  rw [byteOf, h, UInt8.ofNat_toNat']

/-- Decoding the quanta of an encoding gives the bytes back. -/
theorem decodeQuanta_encodeToString (bs : Bytes) : decodeQuanta (encodeToString bs) = .ok bs := by
  induction bs using encodeToString.induct with
  | case1 a b c rest ih =>
    have ha := UInt8.toNat_lt' a
    have hb := UInt8.toNat_lt' b
    have hc := UInt8.toNat_lt' c
    simp (disch := omega) only [encodeToString, List.map_cons, List.map_nil, List.cons_append,
      List.nil_append, decodeQuanta, decodeStd_encodeStd', encodeStd_ne_pad', if_false, ih,
      Except.map]
    rw [byteOf_eq (by omega : _ = a.toNat), byteOf_eq (by omega : _ = b.toNat),
      byteOf_eq (by omega : _ = c.toNat)]
    simp [List.nil_append, ih]
  | case2 a b =>
    have ha := UInt8.toNat_lt' a
    have hb := UInt8.toNat_lt' b
    simp (disch := omega) only [encodeToString, List.map_cons, List.map_nil, List.cons_append,
      List.nil_append, decodeQuanta, decodeStd_encodeStd', encodeStd_ne_pad', if_false, if_true]
    rw [byteOf_eq (by omega : _ = a.toNat), byteOf_eq (by omega : _ = b.toNat)]
  | case3 a =>
    have ha := UInt8.toNat_lt' a
    simp (disch := omega) only [encodeToString, List.map_cons, List.map_nil, List.cons_append,
      List.nil_append, decodeQuanta, decodeStd_encodeStd', if_true, and_self]
    rw [byteOf_eq (by omega : _ = a.toNat)]
  | case4 => rfl

/-- Base64 decoding undoes encoding, for every byte string. -/
theorem decodeString_encodeToString (bs : Bytes) :
    decodeString (encodeToString bs) = .ok bs := by
  have hbreaks : ∀ c ∈ encodeToString bs, c ≠ 13 ∧ c ≠ 10 := fun c hc => by
    have := encodeToString_range bs c hc
    exact ⟨fun h => absurd (h ▸ this.1) (by decide), fun h => absurd (h ▸ this.1) (by decide)⟩
  rw [decodeString, List.filter_eq_self.mpr fun c hc => by simpa using hbreaks c hc,
    decodeQuanta_encodeToString]

end Ably.Codec
