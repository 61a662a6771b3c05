import Ably.Codec.Decode

/-!
# The codec's round trip

`withDecodedData_withEncodedData`: a message with an empty chain whose payload
is nil, text, bytes, or a JSON object or array in decoded form no deeper than
`maxNestingDepth`, encoded and then decoded with the same cipher (none, or one
satisfying `ChannelCipher.Lawful`) over a library satisfying `JsonLib.Lawful`,
comes back with its payload and an empty chain.  Text that is not valid UTF-8
comes back as its bytes: the encoder has already turned it into bytes.

The encoder works in two layers, and so does the proof:

* the type switch (`encodeSwitch_spec`) leaves a text and a chain of at most
  one token, `base64` or `json`, and undoing that chain gives the payload back;
* the cipher layer appends `utf-8` when the text is valid UTF-8, then the
  cipher's name and `base64`; the decoder undoes these three first
  (`withDecodedData_cipher_layer`) and hands the inner chain the text, or its
  bytes when there was no `utf-8` (`withDecodedData_withEncodedData_inner`).

The depth bound is the library's: `json.Marshal` writes a value however deep,
and `withEncodedData` reads only the first token of its text, so a deeper value
encodes, but `json.Unmarshal` rejects it and the decoding fails
(`withDecodedData_withEncodedData_too_deep`).
-/

namespace Ably.Codec

open Go

variable {lib : JsonLib}

/-- The payloads the round trip covers: nil, text, bytes, and a JSON object or
array in decoded form that opens at most `maxNestingDepth` arrays and objects
inside one another. -/
def Data.Encodable : Data → Bool
  | .json v => v.opening.isSome && v.decoded && decide (v.depth ≤ maxNestingDepth)
  | _ => true

/-! ## The type switch -/

/-- Undoing a chain of at most one token from the text `s`, or from its bytes
when the chain is not empty, gives `d` with an empty chain. -/
def InnerDecodes (lib : JsonLib) (s : Bytes) (toks : List String) (d : Data) : Prop :=
  ∀ cipher x, (x = .string s ∨ (x = .bytes s ∧ toks ≠ [])) →
    decodeLoop lib cipher toks.reverse ⟨x, Strings.join toks⟩ = (⟨d, ""⟩, none)

theorem encodeSwitch_bytes (b : Bytes) :
    encodeSwitch lib (.bytes b) "" = .ok (encodeToString b, Strings.join [encBase64]) ∧
      InnerDecodes lib (encodeToString b) [encBase64] (.bytes b) := by
  refine ⟨rfl, fun cipher x hx => ?_⟩
  have hs : coerceString x = .ok (encodeToString b) := by
    rcases hx with rfl | ⟨rfl, -⟩ <;> rfl
  rw [List.reverse_singleton, decodeLoop_cons_of_ok (decodeToken_base64 hs)]
  rfl

/-- A JSON object or array goes through the type switch as its text, under
`json`. -/
theorem encodeSwitch_json_text (hlib : lib.Lawful) {v : JsonValue} (ho : v.opening.isSome)
    {t : Bytes} (hm : lib.marshal v = .ok t) :
    encodeSwitch lib (.json v) "" = .ok (t, Strings.join [encJSON]) := by
  obtain ⟨o, ho⟩ := Option.isSome_iff_exists.mp ho
  simp [encodeSwitch, encodeJSON, hm, hlib.opening v t hm, ho]
  rfl

theorem encodeSwitch_json (hlib : lib.Lawful) {v : JsonValue} (hv : (Data.json v).Encodable) :
    ∃ t, encodeSwitch lib (.json v) "" = .ok (t, Strings.join [encJSON]) ∧
      InnerDecodes lib t [encJSON] (.json v) := by
  simp only [Data.Encodable, Bool.and_eq_true, decide_eq_true_eq] at hv
  obtain ⟨⟨ho, hdec⟩, hdepth⟩ := hv
  obtain ⟨t, hm, hu⟩ := hlib.roundTrip v hdec hdepth
  refine ⟨t, encodeSwitch_json_text hlib ho hm, fun cipher x hx => ?_⟩
  have hb : coerceBytes x = .ok t := by
    rcases hx with rfl | ⟨rfl, -⟩ <;> rfl
  rw [List.reverse_singleton, decodeLoop_cons_of_ok (decodeToken_json hb hu)]
  obtain ⟨o, ho⟩ := Option.isSome_iff_exists.mp ho
  cases v <;> simp_all [JsonValue.opening, Data.ofJson, decodeLoop] <;> rfl

/-- What the type switch leaves for a payload the round trip covers: a text, a
chain of well-formed tokens (empty only for valid UTF-8 text), and that undoing
the chain gives the payload back. -/
theorem encodeSwitch_spec (hlib : lib.Lawful) {d : Data} (hd : d.Encodable) (hnil : d ≠ .nil) :
    ∃ s toks, encodeSwitch lib d.utf8OrBytes "" = .ok (s, Strings.join toks) ∧
      (∀ u ∈ toks, u ≠ "" ∧ '/' ∉ u.data) ∧ (toks = [] → validString s) ∧
      InnerDecodes lib s toks d.utf8OrBytes := by
  have hbase : ∀ u ∈ [encBase64], u ≠ "" ∧ '/' ∉ u.data := by decide
  cases d with
  | nil => exact absurd rfl hnil
  | string s =>
    by_cases hs : validString s
    · simp only [Data.utf8OrBytes, hs, if_true]
      refine ⟨s, [], rfl, by simp, fun _ => hs, fun cipher x hx => ?_⟩
      rcases hx with rfl | ⟨-, h⟩
      · rfl
      · exact absurd rfl h
    · simp only [Data.utf8OrBytes, hs, if_false]
      exact ⟨_, _, (encodeSwitch_bytes s).1, hbase, by simp, (encodeSwitch_bytes s).2⟩
  | bytes b => exact ⟨_, _, (encodeSwitch_bytes b).1, hbase, by simp, (encodeSwitch_bytes b).2⟩
  | json v =>
    obtain ⟨t, h, hi⟩ := encodeSwitch_json hlib hd
    exact ⟨t, _, h, by decide, by simp, hi⟩

/-! ## The cipher layer -/

theorem withEncodedData_none {d : Data} (hnil : d ≠ .nil) {s : Bytes} {enc : String}
    (h : encodeSwitch lib d.utf8OrBytes "" = .ok (s, enc)) :
    withEncodedData lib ⟨d, ""⟩ none = .ok ⟨.string s, enc⟩ := by
  unfold withEncodedData
  split
  · exact absurd ‹_› hnil
  · simp only [h, ok_bind]
    rfl

theorem withEncodedData_some {d : Data} (hnil : d ≠ .nil) {s : Bytes} {enc : String}
    (h : encodeSwitch lib d.utf8OrBytes "" = .ok (s, enc)) {c : ChannelCipher} {e : Bytes}
    (he : c.encrypt s = .ok e) :
    withEncodedData lib ⟨d, ""⟩ (some c) = .ok ⟨.string (encodeToString e),
      mergeEncoding (mergeEncoding (if validString s then mergeEncoding enc encUTF8 else enc)
        c.getAlgorithm) encBase64⟩ := by
  unfold withEncodedData
  split
  · exact absurd ‹_› hnil
  · simp only [h, ok_bind, he, Except.mapError]
    rfl

/-- The chain the cipher layer leaves. -/
theorem mergeEncoding_cipher {ts : List String} (hts : ∀ u ∈ ts, u ≠ "") {alg : String}
    (halg : alg ≠ "") :
    mergeEncoding (mergeEncoding (Strings.join ts) alg) encBase64 =
      Strings.join (ts ++ [alg, encBase64]) := by
  rw [mergeEncoding_join hts, mergeEncoding_join (List.forall_mem_append.mpr
    ⟨hts, List.forall_mem_singleton.mpr halg⟩), List.append_assoc, List.singleton_append]

/-- The decoder undoes `base64` and the cipher, and hands what is left of the
chain the plain bytes. -/
theorem withDecodedData_cipher_layer {c : ChannelCipher} (hc : c.Lawful) {toks : List String}
    (hts : ∀ u ∈ toks, u ≠ "" ∧ '/' ∉ u.data) {e p : Bytes} (hp : c.decrypt e = .ok p) :
    withDecodedData lib
        ⟨.string (encodeToString e), Strings.join (toks ++ [c.getAlgorithm, encBase64])⟩ (some c) =
      decodeLoop lib (some c) toks.reverse ⟨.bytes p, Strings.join toks⟩ := by
  have h64 : decodeToken lib (some c) encBase64 (.string (encodeToString e)) = .ok (.bytes e) :=
    decodeToken_base64 rfl
  have hdec : decodeToken lib (some c) c.getAlgorithm (.bytes e) = .ok (.bytes p) :=
    decodeToken_cipher hc rfl hp
  have hts' : ∀ u ∈ toks ++ [c.getAlgorithm, encBase64], u ≠ "" ∧ '/' ∉ u.data :=
    List.forall_mem_append.mpr ⟨hts, List.forall_mem_cons.mpr
      ⟨⟨hc.ne_of_not_hasPrefix (by decide), hc.algorithmNoSlash⟩, by decide⟩⟩
  rw [withDecodedData_of_join (by simp) (by simp) hts', List.reverse_append]
  rw [show [c.getAlgorithm, encBase64].reverse ++ toks.reverse =
    encBase64 :: c.getAlgorithm :: toks.reverse from rfl, decodeLoop_cons_of_ok h64,
    decodeLoop_cons_of_ok hdec, List.reverse_reverse]

/-! ## The round trip -/

/-- Encoding a payload that the type switch turns into the text `s` under the
chain `toks`, and decoding the result with the same cipher, leaves the inner
chain to undo, on the text or, when the cipher layer wrote no `utf-8`, on its
bytes. -/
theorem withDecodedData_withEncodedData_inner {cipher : Option ChannelCipher}
    (hc : ∀ c ∈ cipher, c.Lawful) {d : Data} (hnil : d ≠ .nil) {s : Bytes} {toks : List String}
    (hsw : encodeSwitch lib d.utf8OrBytes "" = .ok (s, Strings.join toks))
    (hts : ∀ u ∈ toks, u ≠ "" ∧ '/' ∉ u.data) (hval : toks = [] → validString s) :
    ∃ m', withEncodedData lib ⟨d, ""⟩ cipher = .ok m' ∧ ∃ x,
      (x = .string s ∨ (x = .bytes s ∧ toks ≠ [])) ∧
      withDecodedData lib m' cipher = decodeLoop lib cipher toks.reverse ⟨x, Strings.join toks⟩ := by
  have hne : ∀ u ∈ toks, u ≠ "" := fun u hu => (hts u hu).1
  cases cipher with
  | none =>
    refine ⟨_, withEncodedData_none hnil hsw, .string s, .inl rfl, ?_⟩
    rcases List.eq_nil_or_concat toks with rfl | ⟨_, _, rfl⟩
    · rfl
    · exact withDecodedData_of_join (by simp) (by simp) hts
  | some c =>
    have hc := hc c rfl
    obtain ⟨e, he, hp⟩ := hc.roundTrip s
    refine ⟨_, withEncodedData_some hnil hsw he, ?_⟩
    have hname : c.getAlgorithm ≠ "" := hc.ne_of_not_hasPrefix (by decide)
    by_cases hs : validString s
    · have hts' : ∀ u ∈ toks ++ [encUTF8], u ≠ "" ∧ '/' ∉ u.data :=
        List.forall_mem_append.mpr ⟨hts, by decide⟩
      have hutf : decodeToken lib (some c) encUTF8 (.bytes s) = .ok (.string s) :=
        decodeToken_utf8 rfl
      refine ⟨.string s, .inl rfl, ?_⟩
      rw [if_pos hs, mergeEncoding_join hne, mergeEncoding_cipher (fun u hu => (hts' u hu).1) hname,
        withDecodedData_cipher_layer hc hts' hp, List.reverse_append, List.reverse_singleton,
        List.singleton_append, decodeLoop_cons_of_ok hutf, List.reverse_reverse]
    · refine ⟨.bytes s, .inr ⟨rfl, fun h => hs (hval h)⟩, ?_⟩
      rw [if_neg hs, mergeEncoding_cipher hne hname, withDecodedData_cipher_layer hc hts hp]

/-- Encoding and then decoding with the same cipher gives the payload back,
with text that is not valid UTF-8 turned into its bytes. -/
theorem withDecodedData_withEncodedData (hlib : lib.Lawful) {cipher : Option ChannelCipher}
    (hc : ∀ c ∈ cipher, c.Lawful) {m : Message} (hm : m.encoding = "") (hd : m.data.Encodable) :
    ∃ m', withEncodedData lib m cipher = .ok m' ∧
      withDecodedData lib m' cipher = (⟨m.data.utf8OrBytes, ""⟩, none) := by
  obtain ⟨d, enc⟩ := m
  dsimp only at hm hd ⊢
  subst hm
  by_cases hnil : d = .nil
  · subst hnil
    exact ⟨_, rfl, rfl⟩
  obtain ⟨s, toks, hsw, hts, hval, hdec⟩ := encodeSwitch_spec hlib hd hnil
  obtain ⟨m', henc, x, hx, hdec'⟩ := withDecodedData_withEncodedData_inner hc hnil hsw hts hval
  exact ⟨m', henc, hdec'.trans (hdec cipher x hx)⟩

/-- A JSON array of a string and the number `1.0`, through the mask cipher. -/
theorem withDecodedData_withEncodedData_sample :
    ∃ m', withEncodedData Reference.referenceLib
        ⟨.json (.array [.string [104, 105], .number 0x3FF0000000000000]), ""⟩
        (some Reference.maskCipher) = .ok m' ∧
      withDecodedData Reference.referenceLib m' (some Reference.maskCipher) =
        (⟨.json (.array [.string [104, 105], .number 0x3FF0000000000000]), ""⟩, none) :=
  withDecodedData_withEncodedData Reference.referenceLib_lawful
    (fun c hc => by cases hc; exact Reference.maskCipher_lawful) rfl (by decide)

/-! ## Past the nesting limit -/

/-- `n + 1` arrays inside one another: `[[…[]…]]`. -/
def nestedArray : Nat → JsonValue
  | 0 => .array []
  | n + 1 => .array [nestedArray n]

theorem nestedArray_depth (n : Nat) : (nestedArray n).depth = n + 1 := by
  induction n with
  | zero => rfl
  | succ n ih => simp [nestedArray, JsonValue.depth, JsonValue.depth.depthList, ih]

theorem nestedArray_decoded (n : Nat) : (nestedArray n).decoded = true := by
  induction n with
  | zero => rfl
  | succ n ih => simp [nestedArray, JsonValue.decoded, JsonValue.decoded.decodedList, ih]

theorem nestedArray_opening (n : Nat) : (nestedArray n).opening = some 0x5B := by
  cases n <;> rfl

/-- A JSON object or array in decoded form that opens more than
`maxNestingDepth` arrays and objects inside one another encodes, with no cipher
or a lawful one, and then fails to decode: `json.Marshal` writes it,
`withEncodedData` looks only at the first token of its text, and
`json.Unmarshal` rejects the text. -/
theorem withDecodedData_withEncodedData_too_deep (hlib : lib.Lawful)
    {cipher : Option ChannelCipher} (hc : ∀ c ∈ cipher, c.Lawful) {v : JsonValue}
    (ho : v.opening.isSome) (hv : v.decoded) (hdeep : maxNestingDepth < v.depth) :
    ∃ m', withEncodedData lib ⟨.json v, ""⟩ cipher = .ok m' ∧
      ∃ e, (withDecodedData lib m' cipher).2 = some e := by
  obtain ⟨t, hm⟩ := hlib.marshals v hv
  obtain ⟨e, he⟩ := hlib.tooDeep v t hdeep hm
  obtain ⟨m', henc, x, hx, hdec⟩ := @withDecodedData_withEncodedData_inner lib cipher hc (.json v)
    (fun h => Data.noConfusion h) t [encJSON] (encodeSwitch_json_text hlib ho hm) (by decide)
    (fun h => absurd h (List.cons_ne_nil _ _))
  have hb : coerceBytes x = .ok t := by
    rcases hx with rfl | ⟨rfl, -⟩ <;> rfl
  refine ⟨m', henc, ?_⟩
  rw [hdec, List.reverse_singleton, decodeLoop_of_error (decodeToken_json_error hb he)]
  exact ⟨_, rfl⟩

/-- Arrays 10001 deep, over the reference library, which stops at
`maxNestingDepth` as `encoding/json` does: `withEncodedData` succeeds, and
`withDecodedData` on what it returns fails. -/
theorem withEncodedData_past_nesting_limit :
    ∃ m', withEncodedData Reference.referenceLib ⟨.json (nestedArray maxNestingDepth), ""⟩ none =
        .ok m' ∧ ∃ e, (withDecodedData Reference.referenceLib m' none).2 = some e :=
  withDecodedData_withEncodedData_too_deep Reference.referenceLib_lawful (fun _ h => by cases h)
    (by rw [nestedArray_opening]; rfl) (nestedArray_decoded _) (by rw [nestedArray_depth]; omega)

end Ably.Codec
