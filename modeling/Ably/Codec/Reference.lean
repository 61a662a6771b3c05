import Ably.Codec.Message

/-!
# A reference library and a reference cipher

`JsonLib.Lawful` and `ChannelCipher.Lawful` are the contracts the codec relies
on of `encoding/json` and of a `channelCipher`.  This file gives one
implementation of each, so that the laws are known to be satisfiable and the
codec's theorems can be run on concrete messages:

* `referenceLib` writes a value as a prefix code: one tag byte, then the
  payload.  The tag is the first character of the value's JSON text (`n`, `t`,
  `f`, `0`, `"`, `[`, `{`), so a text opens with `[` or `{` exactly when JSON's
  does.  `decodeValue_encodeValue` is its round trip.
* `maskCipher` flips every bit of every byte, under the name `cipher+mask`.

## Honest boundary

The reference text is not JSON beyond its first byte, and `referenceLib`
unmarshals every value it marshals that is no deeper than `maxNestingDepth`,
decoded form or not: it satisfies the contract, not `encoding/json`'s grammar.
Like the scanner of `encoding/json`, it rejects a deeper value.
-/

namespace Ably.Codec.Reference

open Ably.Codec

/-! ## Fixed-width numbers and byte strings -/

/-- `k` bytes of `n`, least significant first. -/
def encodeFixed : Nat → Nat → Bytes
  | 0, _ => []
  | k + 1, n => UInt8.ofNat (n % 256) :: encodeFixed k (n / 256)

/-- The number `encodeFixed` wrote. -/
def decodeFixed : Bytes → Nat
  | [] => 0
  | b :: bs => b.toNat + 256 * decodeFixed bs

theorem decodeFixed_encodeFixed (k n : Nat) : decodeFixed (encodeFixed k n) = n % 256 ^ k := by
  induction k generalizing n with
  | zero => simp [encodeFixed, decodeFixed, Nat.mod_one]
  | succ k ih =>
    simp only [encodeFixed, decodeFixed, ih]
    rw [UInt8.toNat_ofNat_of_lt (by simp only [UInt8.size]; omega), pow_succ', Nat.mod_mul]

@[simp] theorem length_encodeFixed (k n : Nat) : (encodeFixed k n).length = k := by
  induction k generalizing n <;> simp [encodeFixed, *]

theorem UInt64.ofNat_toNat' (x : UInt64) : UInt64.ofNat x.toNat = x := by
  apply UInt64.eq_of_toBitVec_eq
  simp [UInt64.ofNat, UInt64.toNat]

/-- A byte string, each byte after a `1` marker, closed by `0`. -/
def encodeStr : Bytes → Bytes
  | [] => [0]
  | b :: bs => 1 :: b :: encodeStr bs

/-- The byte string `encodeStr` wrote, and what follows it. -/
def decodeStr : Bytes → Option (Bytes × Bytes)
  | 0 :: r => some ([], r)
  | 1 :: b :: r => (decodeStr r).map fun p => (b :: p.1, p.2)
  | _ => none

theorem decodeStr_encodeStr (s r : Bytes) : decodeStr (encodeStr s ++ r) = some (s, r) := by
  induction s with
  | nil => rfl
  | cons b s ih => simp [encodeStr, decodeStr, ih]

/-! ## Values -/

/-- The reference text of a value: its tag, then its payload. -/
def encodeValue : JsonValue → Bytes
  | .null => [0x6E]
  | .bool b => [if b then 0x74 else 0x66]
  | .number x => 0x30 :: encodeFixed 8 x.toNat
  | .string s => 0x22 :: encodeStr s
  | .array xs => 0x5B :: encodeList xs
  | .object fs => 0x7B :: encodeFields fs
where
  encodeList : List JsonValue → Bytes
    | [] => [0]
    | x :: xs => 1 :: encodeValue x ++ encodeList xs
  encodeFields : List (Bytes × JsonValue) → Bytes
    | [] => [0]
    | (k, v) :: fs => 1 :: encodeStr k ++ encodeValue v ++ encodeFields fs

mutual
/-- Reading a value back, with the first argument as fuel bounding the
nesting. -/
def decodeValue : Nat → Bytes → Option (JsonValue × Bytes)
  | 0, _ => none
  | _ + 1, [] => none
  | n + 1, c :: r =>
    if c = 0x6E then some (.null, r)
    else if c = 0x74 then some (.bool true, r)
    else if c = 0x66 then some (.bool false, r)
    else if c = 0x30 then
      if 8 ≤ r.length then some (.number (UInt64.ofNat (decodeFixed (r.take 8))), r.drop 8)
      else none
    else if c = 0x22 then (decodeStr r).map fun p => (.string p.1, p.2)
    else if c = 0x5B then (decodeList n r).map fun p => (.array p.1, p.2)
    else if c = 0x7B then (decodeFields n r).map fun p => (.object p.1, p.2)
    else none
def decodeList : Nat → Bytes → Option (List JsonValue × Bytes)
  | 0, _ => none
  | _ + 1, [] => none
  | n + 1, c :: r =>
    if c = 0 then some ([], r)
    else if c = 1 then
      match decodeValue n r with
      | some (x, r') => (decodeList n r').map fun p => (x :: p.1, p.2)
      | none => none
    else none
def decodeFields : Nat → Bytes → Option (List (Bytes × JsonValue) × Bytes)
  | 0, _ => none
  | _ + 1, [] => none
  | n + 1, c :: r =>
    if c = 0 then some ([], r)
    else if c = 1 then
      match decodeStr r with
      | some (k, r') =>
        match decodeValue n r' with
        | some (v, r'') => (decodeFields n r'').map fun p => ((k, v) :: p.1, p.2)
        | none => none
      | none => none
    else none
end

/-- Reading back what `encodeValue` wrote, with enough fuel, gives the value and
leaves what follows. -/
theorem decodeValue_encodeValue : ∀ (v : JsonValue) (n : Nat) (r : Bytes),
    (encodeValue v).length ≤ n → decodeValue n (encodeValue v ++ r) = some (v, r)
  | _, 0, _, h => by cases ‹JsonValue› <;> simp [encodeValue] at h
  | .null, n + 1, r, _ => by simp [encodeValue, decodeValue]
  | .bool b, n + 1, r, _ => by cases b <;> simp [encodeValue, decodeValue]
  | .number x, n + 1, r, _ => by
    have hx : x.toNat < 18446744073709551616 := x.toBitVec.isLt
    have h8 : (encodeFixed 8 x.toNat).length = 8 := length_encodeFixed 8 _
    simp [encodeValue, decodeValue, List.take_append_of_le_length, List.drop_append_of_le_length,
      h8, decodeFixed_encodeFixed, Nat.mod_eq_of_lt hx, UInt64.ofNat_toNat']
  | .string s, n + 1, r, _ => by
    simp [encodeValue, decodeValue, decodeStr_encodeStr]
  | .array xs, n + 1, r, h => by
    simp only [encodeValue, List.length_cons] at h
    simp [encodeValue, decodeValue, decodeList_encodeList xs n r (by omega)]
  | .object fs, n + 1, r, h => by
    simp only [encodeValue, List.length_cons] at h
    simp [encodeValue, decodeValue, decodeFields_encodeFields fs n r (by omega)]
where
  decodeList_encodeList : ∀ (xs : List JsonValue) (n : Nat) (r : Bytes),
      (encodeValue.encodeList xs).length ≤ n →
        decodeList n (encodeValue.encodeList xs ++ r) = some (xs, r)
    | _, 0, _, h => by cases ‹List JsonValue› <;> simp [encodeValue.encodeList] at h
    | [], n + 1, r, _ => by simp [encodeValue.encodeList, decodeList]
    | x :: xs, n + 1, r, h => by
      simp only [encodeValue.encodeList, List.length_cons, List.length_append] at h
      simp [encodeValue.encodeList, decodeList,
        decodeValue_encodeValue x n _ (by omega), decodeList_encodeList xs n r (by omega)]
  decodeFields_encodeFields : ∀ (fs : List (Bytes × JsonValue)) (n : Nat) (r : Bytes),
      (encodeValue.encodeFields fs).length ≤ n →
        decodeFields n (encodeValue.encodeFields fs ++ r) = some (fs, r)
    | _, 0, _, h => by cases ‹List (Bytes × JsonValue)› <;> simp [encodeValue.encodeFields] at h
    | [], n + 1, r, _ => by simp [encodeValue.encodeFields, decodeFields]
    | (k, v) :: fs, n + 1, r, h => by
      simp only [encodeValue.encodeFields, List.length_cons, List.length_append] at h
      simp [encodeValue.encodeFields, decodeFields, decodeStr_encodeStr,
        decodeValue_encodeValue v n _ (by omega), decodeFields_encodeFields fs n r (by omega)]

/-! ## The library and the cipher -/

/-- The reference library: `encodeValue`, and reading one value that fills the
whole text and is no deeper than `maxNestingDepth`. -/
def referenceLib : JsonLib where
  marshal v := .ok (encodeValue v)
  unmarshal b :=
    match decodeValue b.length b with
    | some (v, []) => if maxNestingDepth < v.depth then .error "exceeded max depth" else .ok v
    | _ => .error "malformed input"

theorem unmarshal_encodeValue (v : JsonValue) :
    referenceLib.unmarshal (encodeValue v) =
      if maxNestingDepth < v.depth then .error "exceeded max depth" else .ok v := by
  have h := decodeValue_encodeValue v (encodeValue v).length [] le_rfl
  rw [List.append_nil] at h
  simp only [referenceLib, h]

theorem referenceLib_lawful : referenceLib.Lawful where
  marshals v _ := ⟨encodeValue v, rfl⟩
  roundTrip v _ hd := ⟨encodeValue v, rfl, by rw [unmarshal_encodeValue, if_neg (by omega)]⟩
  tooDeep v b hd h := by
    cases h
    exact ⟨_, by rw [unmarshal_encodeValue, if_pos hd]⟩
  opening v b h := by
    cases h
    cases v with
    | bool b => cases b <;> rfl
    | number x => simp [encodeValue, openingDelim, isSpace, JsonValue.opening]
    | string s => simp [encodeValue, openingDelim, isSpace, JsonValue.opening]
    | _ => rfl

/-- Flipping every bit of a byte twice gives it back. -/
theorem xor_ff_xor_ff (a : UInt8) : a ^^^ 0xFF ^^^ 0xFF = a := by
  apply UInt8.eq_of_toBitVec_eq
  show a.toBitVec ^^^ (0xFF : UInt8).toBitVec ^^^ (0xFF : UInt8).toBitVec = a.toBitVec
  rw [BitVec.xor_assoc, BitVec.xor_self, BitVec.xor_zero]

/-- A cipher that flips every bit. -/
def maskCipher : ChannelCipher where
  encrypt bs := .ok (bs.map (· ^^^ 0xFF))
  decrypt bs := .ok (bs.map (· ^^^ 0xFF))
  getAlgorithm := "cipher+mask"

theorem maskCipher_lawful : maskCipher.Lawful where
  roundTrip bs := ⟨_, rfl, by simp [maskCipher, Function.comp_def, xor_ff_xor_ff]⟩
  cipherAlgorithm := by decide
  algorithmNoSlash := by decide

end Ably.Codec.Reference
