import Ably.Codec.Json
import Ably.Go.Strings

/-!
# The message codec

`withEncodedData` and `withDecodedData` (`proto_message.go`) turn a message's
payload into what goes on the wire and back, recording each layer in the
`/`-separated `Encoding` chain: `base64`, `json`, `utf-8`, and the cipher's
algorithm name.  Encoding appends to the chain; decoding undoes it from the
right, one token per turn of its loop, and stops at the first token it cannot
undo, keeping what it has decoded so far.

The model keeps Go's order of operations, its error texts, and `Encoding` as
the decoding loop leaves it after each turn (`decodeLoop` carries the tokens
still to undo, the last first).  A message is the two fields the codec reads
and writes; the cipher is the `channelCipher` interface.

One restructuring: after the type switch of `withEncodedData` the payload is
always a string, so the switch returns its bytes (`encodeSwitch`) and the
unreachable panic of `coerceBytes` disappears.
-/

namespace Ably.Codec

open Go

/-- The dynamic value of `Message.Data`: nil, a `string` (its bytes, valid UTF-8
or not), a `[]byte`, or any other value as `encoding/json` sees it. -/
inductive Data where
  | nil
  | string (s : Bytes)
  | bytes (b : Bytes)
  | json (v : JsonValue)
  deriving Repr

/-- The `interface{}` that `json.Unmarshal` leaves. -/
def Data.ofJson : JsonValue → Data
  | .null => .nil
  | .string s => .string s
  | v => .json v

/-- What `%T` prints for a decoded JSON value. -/
def JsonValue.typeName : JsonValue → String
  | .null => "<nil>"
  | .bool _ => "bool"
  | .number _ => "float64"
  | .string _ => "string"
  | .array _ => "[]interface {}"
  | .object _ => "map[string]interface {}"

/-- What `%T` prints for a payload. -/
def Data.typeName : Data → String
  | .nil => "<nil>"
  | .string _ => "string"
  | .bytes _ => "[]uint8"
  | .json v => v.typeName

/-- `Message`: the payload and its encoding chain. -/
structure Message where
  data : Data
  encoding : String
  deriving Repr

/-- `channelCipher`. -/
structure ChannelCipher where
  encrypt : Bytes → Except String Bytes
  decrypt : Bytes → Except String Bytes
  getAlgorithm : String

def encUTF8 : String := "utf-8"
def encJSON : String := "json"
def encBase64 : String := "base64"
def encCipher : String := "cipher"

/-- What the codec needs of a cipher: `Decrypt` undoes `Encrypt`, and the
algorithm's name is one token of the chain that the decoder recognises as a
cipher's. -/
structure ChannelCipher.Lawful (c : ChannelCipher) : Prop where
  /-- `Encrypt` succeeds, and `Decrypt` gives its input back. -/
  roundTrip : ∀ bs, ∃ e, c.encrypt bs = .ok e ∧ c.decrypt e = .ok bs
  /-- The name begins with `cipher`. -/
  cipherAlgorithm : Strings.hasPrefix c.getAlgorithm encCipher
  /-- The name holds no `/`. -/
  algorithmNoSlash : '/' ∉ c.getAlgorithm.data

/-! ## The helpers -/

@[simp] theorem ok_bind {ε α β : Type} (a : α) (f : α → Except ε β) :
    (Except.ok a >>= f) = f a := rfl

@[simp] theorem pure_eq_ok {ε α : Type} (a b : α) : (pure a : Except ε α) = .ok b ↔ a = b :=
  ⟨fun h => by cases h; rfl, fun h => h ▸ rfl⟩

/-- `mergeEncoding`. -/
def mergeEncoding (a b : String) : String := if a = "" then b else a ++ "/" ++ b

/-- Appending a token to a chain whose tokens are all non-empty. -/
theorem mergeEncoding_join {ts : List String} (hts : ∀ u ∈ ts, u ≠ "") (t : String) :
    mergeEncoding (Strings.join ts) t = Strings.join (ts ++ [t]) := by
  cases ts with
  | nil => rfl
  | cons u us =>
    rw [mergeEncoding, if_neg (Strings.join_ne_empty (hts u (List.mem_cons_self _ _)) us)]
    apply String.ext
    rw [Strings.join, Strings.join, List.map_append, List.map_singleton,
      Strings.joinSlash_append_singleton (by simp)]
    simp

/-- `coerceString`. -/
def coerceString : Data → Except String Bytes
  | .bytes v => .ok v
  | .string v => .ok v
  | d => .error ("UTF8 encoding can only handle types string or []byte, but got " ++ d.typeName)

/-- `coerceBytes`. -/
def coerceBytes : Data → Except String Bytes
  | .bytes v => .ok v
  | .string v => .ok v
  | d => .error ("coerceBytes should never get anything but strings or []byte, got " ++
      d.typeName)

/-- `unencodableDataErr`. -/
def unencodableDataErr (d : Data) : String :=
  "message data type " ++ d.typeName ++
    " must be string, []byte, or a value that can be encoded as a JSON object or array"

/-! ## Encoding -/

/-- A string that is not valid UTF-8 is encoded as its bytes. -/
def Data.utf8OrBytes : Data → Data
  | .string d => if validString d then .string d else .bytes d
  | d => d

/-- The default arm of the type switch: marshal, and accept only an object or an
array. -/
def encodeJSON (lib : JsonLib) (d : Data) (v : JsonValue) (enc : String) :
    Except String (Bytes × String) :=
  match lib.marshal v with
  | .error err => .error (unencodableDataErr d ++ "; encoding as JSON: " ++ err)
  | .ok b =>
    if openingDelim b = none then
      .error (unencodableDataErr d ++ "; encoded as JSON " ++ tokenTypeName b)
    else .ok (b, mergeEncoding enc encJSON)

/-- The type switch of `withEncodedData`: the string payload it leaves, and the
chain. -/
def encodeSwitch (lib : JsonLib) (d : Data) (enc : String) : Except String (Bytes × String) :=
  match d with
  | .string s => .ok (s, enc)
  | .bytes b => .ok (encodeToString b, mergeEncoding enc encBase64)
  | .nil => encodeJSON lib d .null enc
  | .json v => encodeJSON lib d v enc

/-- `withEncodedData`. -/
def withEncodedData (lib : JsonLib) (m : Message) (cipher : Option ChannelCipher) :
    Except String Message :=
  match m.data with
  | .nil => .ok m
  | d => do
    let (s, enc) ← encodeSwitch lib d.utf8OrBytes m.encoding
    match cipher with
    | none => pure ⟨.string s, enc⟩
    | some c =>
      let e ← (c.encrypt s).mapError ("encrypting message data: " ++ ·)
      let enc := if validString s then mergeEncoding enc encUTF8 else enc
      pure ⟨.string (encodeToString e),
        mergeEncoding (mergeEncoding enc c.getAlgorithm) encBase64⟩

/-! ## Decoding -/

/-- One turn of the decoding loop: undo `encoding` on the payload. -/
def decodeToken (lib : JsonLib) (cipher : Option ChannelCipher) (encoding : String)
    (d : Data) : Except String Data :=
  if encoding = encBase64 then do
    let s ← coerceString d
    let data ← decodeString s
    pure (.bytes data)
  else if encoding = encUTF8 then do
    let s ← coerceString d
    pure (.string s)
  else if encoding = encJSON then do
    let b ← coerceBytes d
    match lib.unmarshal b with
    | .ok v => pure (Data.ofJson v)
    | .error e => throw ("error unmarshaling JSON payload of type " ++ d.typeName ++ ": " ++ e)
  else if Strings.hasPrefix encoding encCipher then
    match cipher with
    | none => throw ("message data is encrypted as " ++ encoding ++
        ", but cipher wasn\x27t provided")
    | some c => do
      let b ← coerceBytes d
      match c.decrypt b with
      | .ok p => pure (.bytes p)
      | .error e => throw ("decrypting message data: " ++ e)
  else throw ("unknown encoding " ++ encoding)

/-- The loop of `withDecodedData` over the tokens still to undo, the last first;
after each turn `Encoding` is the join of those left. -/
def decodeLoop (lib : JsonLib) (cipher : Option ChannelCipher) :
    List String → Message → Message × Option String
  | [], m => (m, none)
  | t :: ts, m =>
    match decodeToken lib cipher t m.data with
    | .error e => (m, some e)
    | .ok d => decodeLoop lib cipher ts ⟨d, Strings.join ts.reverse⟩

/-- `withDecodedData`: the message as far as it could be decoded, and the error
that stopped it. -/
def withDecodedData (lib : JsonLib) (m : Message) (cipher : Option ChannelCipher) :
    Message × Option String :=
  match m.data with
  | .nil => (m, none)
  | _ =>
    if m.encoding = "" then (m, none)
    else decodeLoop lib cipher (Strings.split m.encoding).reverse m

end Ably.Codec
