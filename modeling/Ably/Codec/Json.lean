import Ably.Codec.Bytes

/-!
# JSON values and the library that serialises them

The codec hands any payload that is neither a string nor bytes to
`encoding/json`, and decodes a `json` token back into an `interface{}`.  The
values are modelled as `encoding/json` produces them on decoding: `nil`,
`bool`, `float64` (its IEEE bits), `string`, `[]interface{}` and
`map[string]interface{}`.  A map is its list of fields in ascending key order,
the order `json.Marshal` writes and the only list that names a map uniquely.

`json.Marshal` and `json.Unmarshal` are the library's, not this repository's:
they are the two fields of `JsonLib`.  What the codec relies on is the
library's documented contract, stated as `JsonLib.Lawful`:

* every value in decoded form (finite numbers, valid UTF-8 strings and keys,
  ascending keys) marshals, however deep;
* such a value unmarshals back to itself when it opens at most
  `maxNestingDepth` arrays and objects inside one another, and its text is
  rejected when it opens more: the scanner of `encoding/json` stops at that
  depth, and `json.Marshal` has no such limit;
* the text of an array opens with `[`, of an object with `{`, of anything else
  with neither.

`Ably/Codec/Reference.lean` builds a library that satisfies these laws.
-/

namespace Ably.Codec

/-- A value as `encoding/json` decodes one into `interface{}`. -/
inductive JsonValue where
  | null
  | bool (b : Bool)
  | number (bits : UInt64)
  | string (s : Bytes)
  | array (xs : List JsonValue)
  | object (fields : List (Bytes × JsonValue))
  deriving Repr

/-- A `float64` is finite when its exponent field is not all ones. -/
def finite (bits : UInt64) : Bool := bits.toNat / 2 ^ 52 % 2 ^ 11 != 2 ^ 11 - 1

/-- Go's `<` on strings: lexicographic on bytes. -/
def bytesLt : Bytes → Bytes → Bool
  | [], _ :: _ => true
  | a :: as, b :: bs => a < b || (a = b && bytesLt as bs)
  | _, _ => false

/-- Decoded form: finite numbers, valid UTF-8 text, map keys strictly
ascending. -/
def JsonValue.decoded : JsonValue → Bool
  | .null | .bool _ => true
  | .number x => finite x
  | .string s => validString s
  | .array xs => decodedList xs
  | .object fs => decodedFields fs && decide (fs.Pairwise fun a b => bytesLt a.1 b.1)
where
  decodedList : List JsonValue → Bool
    | [] => true
    | x :: xs => x.decoded && decodedList xs
  decodedFields : List (Bytes × JsonValue) → Bool
    | [] => true
    | (k, v) :: fs => validString k && v.decoded && decodedFields fs

/-- `maxNestingDepth` of the scanner of `encoding/json`: the most arrays and
objects a text may open inside one another. -/
def maxNestingDepth : Nat := 10000

/-- How many arrays and objects the text of a value opens inside one another, as
the scanner counts them: `0` for a scalar, `1` for `[]`. -/
def JsonValue.depth : JsonValue → Nat
  | .array xs => depthList xs + 1
  | .object fs => depthFields fs + 1
  | _ => 0
where
  depthList : List JsonValue → Nat
    | [] => 0
    | x :: xs => max x.depth (depthList xs)
  depthFields : List (Bytes × JsonValue) → Nat
    | [] => 0
    | (_, v) :: fs => max v.depth (depthFields fs)

/-- The delimiter a value's text opens with: `[` for an array, `{` for an
object. -/
def JsonValue.opening : JsonValue → Option UInt8
  | .array _ => some 0x5B
  | .object _ => some 0x7B
  | _ => none

/-- JSON whitespace. -/
def isSpace (c : UInt8) : Bool := c = 0x20 || c = 0x09 || c = 0x0D || c = 0x0A

/-- `json.NewDecoder(bytes.NewReader(b)).Token()`, as far as the codec looks at
it: `[` or `{` when the text opens with that delimiter. -/
def openingDelim (b : Bytes) : Option UInt8 :=
  match b.dropWhile isSpace with
  | c :: _ => if c = 0x5B ∨ c = 0x7B then some c else none
  | [] => none

/-- The dynamic type `%T` prints for the first token of a text. -/
def tokenTypeName (b : Bytes) : String :=
  match b.dropWhile isSpace with
  | c :: _ =>
    if c = 0x5B ∨ c = 0x7B ∨ c = 0x5D ∨ c = 0x7D then "json.Delim"
    else if c = 0x22 then "string"
    else if c = 0x2D ∨ (0x30 ≤ c ∧ c ≤ 0x39) then "float64"
    else if c = 0x74 ∨ c = 0x66 then "bool"
    else "<nil>"
  | [] => "<nil>"

/-- The two entry points of `encoding/json` the codec calls. -/
structure JsonLib where
  /-- `json.Marshal`. -/
  marshal : JsonValue → Except String Bytes
  /-- `json.Unmarshal` into an `interface{}`. -/
  unmarshal : Bytes → Except String JsonValue

/-- The contract of `encoding/json` the codec relies on. -/
structure JsonLib.Lawful (lib : JsonLib) : Prop where
  /-- `json.Marshal` writes every value in decoded form, however deep. -/
  marshals : ∀ v : JsonValue, v.decoded → ∃ b, lib.marshal v = .ok b
  /-- A value in decoded form no deeper than `maxNestingDepth` survives a round
  trip. -/
  roundTrip : ∀ v : JsonValue, v.decoded → v.depth ≤ maxNestingDepth →
    ∃ b, lib.marshal v = .ok b ∧ lib.unmarshal b = .ok v
  /-- `json.Unmarshal` rejects the text of a value nested deeper. -/
  tooDeep : ∀ v b, maxNestingDepth < v.depth → lib.marshal v = .ok b →
    ∃ e, lib.unmarshal b = .error e
  /-- The text of a value opens with its delimiter, if it has one. -/
  opening : ∀ v b, lib.marshal v = .ok b → openingDelim b = v.opening

end Ably.Codec
