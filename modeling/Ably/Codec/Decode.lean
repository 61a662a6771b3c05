import Ably.Codec.Reference

/-!
# Decoding one token at a time, and resuming after an error

`withDecodedData` undoes the chain from the right and, when a token fails,
returns the message as far as it got.  The loop sets `Encoding` to the join of
the tokens still to undo after every turn, so what it returns on an error
carries exactly those tokens.  `withDecodedData_resumes` is what that buys: when
a decoding without a cipher fails, decoding what it returned with any cipher
gives the message that decoding the original with that cipher gives.

Two facts carry it:

* a token undone without a cipher is not a cipher's, and is undone the same way
  with any cipher (`decodeToken_of_none`);
* a message whose chain is the join of the tokens still to undo decodes as the
  loop over them (`withDecodedData_of_chain`), also when its payload is nil or
  its chain is empty, since no token undoes a nil payload and the empty token is
  unknown.

The last section says what each token does to the payloads the encoder writes;
`RoundTrip.lean` chains those steps.
-/

namespace Ably.Codec

open Go

variable {lib : JsonLib} {cipher : Option ChannelCipher}

/-! ## The loop -/

theorem decodeLoop_cons_of_ok {t : String} {ts : List String} {m : Message} {d : Data}
    (h : decodeToken lib cipher t m.data = .ok d) :
    decodeLoop lib cipher (t :: ts) m = decodeLoop lib cipher ts ⟨d, Strings.join ts.reverse⟩ := by
  simp only [decodeLoop, h]

/-- A first token that fails stops the loop where it stands. -/
theorem decodeLoop_of_error {t : String} {ts : List String} {m : Message} {e : String}
    (h : decodeToken lib cipher t m.data = .error e) :
    decodeLoop lib cipher (t :: ts) m = (m, some e) := by
  simp only [decodeLoop, h]

/-- A decoding that fails has run the loop over the whole chain. -/
theorem decodeLoop_of_withDecodedData {m m₁ : Message} {e : String}
    (h : withDecodedData lib m cipher = (m₁, some e)) :
    decodeLoop lib cipher (Strings.split m.encoding).reverse m = (m₁, some e) := by
  unfold withDecodedData at h
  split at h
  · cases h
  · split_ifs at h
    · cases h
    · exact h

/-- A non-nil payload under a non-empty chain of tokens decodes as the loop over
them. -/
theorem withDecodedData_of_join {d : Data} (hd : d ≠ .nil) {ts : List String} (hne : ts ≠ [])
    (hts : ∀ u ∈ ts, u ≠ "" ∧ '/' ∉ u.data) :
    withDecodedData lib ⟨d, Strings.join ts⟩ cipher =
      decodeLoop lib cipher ts.reverse ⟨d, Strings.join ts⟩ := by
  have hjoin : Strings.join ts ≠ "" := fun h => by
    rcases Strings.join_eq_empty h with rfl | rfl
    · exact hne rfl
    · exact (hts "" (List.mem_singleton_self _)).1 rfl
  unfold withDecodedData
  split
  · exact absurd ‹_› hd
  · rw [if_neg hjoin, Strings.split_join hne fun u hu => (hts u hu).2]

/-! ## Resuming -/

/-- No token undoes a nil payload. -/
theorem decodeToken_nil (t : String) : ∃ e, decodeToken lib cipher t .nil = .error e := by
  unfold decodeToken
  split_ifs
  all_goals first
    | exact ⟨_, rfl⟩
    | (cases cipher <;> exact ⟨_, rfl⟩)

/-- The empty token is unknown. -/
theorem decodeToken_empty (d : Data) : ∃ e, decodeToken lib cipher "" d = .error e := by
  unfold decodeToken
  rw [if_neg (by decide), if_neg (by decide), if_neg (by decide), if_neg (by decide)]
  exact ⟨_, rfl⟩

/-- A token undone without a cipher is undone the same way with any. -/
theorem decodeToken_of_none {t : String} {d d' : Data} (h : decodeToken lib none t d = .ok d')
    (cipher : Option ChannelCipher) : decodeToken lib cipher t d = .ok d' := by
  unfold decodeToken at h ⊢
  split_ifs at h ⊢ <;> exact h

/-- A message whose chain is the join of the tokens still to undo decodes as the
loop over them, whatever its payload. -/
theorem withDecodedData_of_chain {t : String} {ts : List String} {m : Message}
    (henc : m.encoding = Strings.join (t :: ts).reverse)
    (hslash : ∀ u ∈ t :: ts, '/' ∉ u.data) :
    (withDecodedData lib m cipher).1 = (decodeLoop lib cipher (t :: ts) m).1 := by
  unfold withDecodedData
  split
  · rename_i hnil
    obtain ⟨e, he⟩ := @decodeToken_nil lib cipher t
    rw [decodeLoop_of_error (hnil ▸ he)]
  · split
    · rename_i hempty
      rw [henc] at hempty
      rcases Strings.join_eq_empty hempty with h | h
      · simp at h
      · obtain ⟨rfl, rfl⟩ : t = "" ∧ ts = [] := by simpa using congrArg List.reverse h
        obtain ⟨e, he⟩ := @decodeToken_empty lib cipher m.data
        rw [decodeLoop_of_error he]
    · rw [henc, Strings.split_join (by simp) fun u hu => hslash u (List.mem_reverse.mp hu),
        List.reverse_reverse]

/-- Decoding with any cipher from where a cipherless loop stopped gives what the
loop with that cipher gives. -/
theorem decodeLoop_resume : ∀ {rs : List String} {m m₁ : Message} {e : String},
    decodeLoop lib none rs m = (m₁, some e) →
    m.encoding = Strings.join rs.reverse → (∀ u ∈ rs, '/' ∉ u.data) →
    ∀ cipher : Option ChannelCipher,
      (decodeLoop lib cipher rs m).1 = (withDecodedData lib m₁ cipher).1
  | [], _, _, _, h, _, _, _ => by simp [decodeLoop] at h
  | t :: ts, m, m₁, e, h, henc, hslash, cipher => by
    cases ht : decodeToken lib none t m.data with
    | error e' =>
      rw [decodeLoop_of_error ht] at h
      obtain ⟨rfl, -⟩ := Prod.mk.inj h
      exact (withDecodedData_of_chain henc hslash).symm
    | ok d =>
      rw [decodeLoop_cons_of_ok ht] at h
      rw [decodeLoop_cons_of_ok (decodeToken_of_none ht cipher)]
      exact decodeLoop_resume h rfl (fun u hu => hslash u (List.mem_cons_of_mem _ hu)) cipher

/-- When decoding without a cipher fails, the message it returns carries the
tokens not yet undone: decoding it with any cipher gives the message that
decoding the original with that cipher gives. -/
theorem withDecodedData_resumes {m m₁ : Message} {e : String}
    (h : withDecodedData lib m none = (m₁, some e)) (cipher : Option ChannelCipher) :
    (withDecodedData lib m₁ cipher).1 = (withDecodedData lib m cipher).1 := by
  have hloop := decodeLoop_of_withDecodedData h
  have hslash : ∀ u ∈ (Strings.split m.encoding).reverse, '/' ∉ u.data :=
    fun u hu => Strings.not_mem_of_mem_split (List.mem_reverse.mp hu)
  have henc : m.encoding = Strings.join (Strings.split m.encoding).reverse.reverse := by
    rw [List.reverse_reverse, Strings.join_split]
  obtain ⟨t, ts, hts⟩ := List.exists_cons_of_ne_nil
    (List.reverse_ne_nil_iff.mpr (Strings.split_ne_nil m.encoding))
  rw [hts] at hloop hslash henc
  rw [withDecodedData_of_chain henc hslash]
  exact (decodeLoop_resume hloop henc hslash cipher).symm

/-- A message encrypted and then base64-encoded, decoded without the cipher:
the loop undoes `base64` and stops at the cipher's token, which the message it
returns still carries. -/
theorem withDecodedData_resumes_sample :
    withDecodedData Reference.referenceLib ⟨.string [65, 81, 73, 68], "cipher+mask/base64"⟩ none =
      (⟨.bytes [1, 2, 3], "cipher+mask"⟩,
        some "message data is encrypted as cipher+mask, but cipher wasn\x27t provided") ∧
    (withDecodedData Reference.referenceLib ⟨.bytes [1, 2, 3], "cipher+mask"⟩
        (some Reference.maskCipher)).1 =
      (withDecodedData Reference.referenceLib ⟨.string [65, 81, 73, 68], "cipher+mask/base64"⟩
        (some Reference.maskCipher)).1 :=
  ⟨rfl, withDecodedData_resumes rfl _⟩

/-! ## Single tokens -/

/-- `base64` undoes the encoder's base64, on the text or on its bytes. -/
theorem decodeToken_base64 {d : Data} {bs : Bytes} (hd : coerceString d = .ok (encodeToString bs)) :
    decodeToken lib cipher encBase64 d = .ok (.bytes bs) := by
  simp [decodeToken, hd, decodeString_encodeToString]

theorem decodeToken_utf8 {d : Data} {s : Bytes} (hd : coerceString d = .ok s) :
    decodeToken lib cipher encUTF8 d = .ok (.string s) := by
  simp [decodeToken, hd, encUTF8, encBase64]

theorem decodeToken_json {d : Data} {b : Bytes} {v : JsonValue} (hd : coerceBytes d = .ok b)
    (hv : lib.unmarshal b = .ok v) : decodeToken lib cipher encJSON d = .ok (Data.ofJson v) := by
  simp [decodeToken, hd, hv, encJSON, encUTF8, encBase64]

/-- A `json` token whose text `json.Unmarshal` rejects fails with that error. -/
theorem decodeToken_json_error {d : Data} {b : Bytes} {e : String} (hd : coerceBytes d = .ok b)
    (he : lib.unmarshal b = .error e) :
    decodeToken lib cipher encJSON d =
      .error ("error unmarshaling JSON payload of type " ++ d.typeName ++ ": " ++ e) := by
  simp [decodeToken, hd, he, encJSON, encUTF8, encBase64]
  rfl

/-- A cipher's name is none of the encoder's other tokens. -/
theorem ChannelCipher.Lawful.ne_of_not_hasPrefix {c : ChannelCipher} (hc : c.Lawful) {t : String}
    (ht : Strings.hasPrefix t encCipher = false) : c.getAlgorithm ≠ t := by
  rintro rfl
  exact absurd hc.cipherAlgorithm (by simp [ht])

/-- The cipher's token decrypts. -/
theorem decodeToken_cipher {c : ChannelCipher} (hc : c.Lawful) {d : Data} {e p : Bytes}
    (hd : coerceBytes d = .ok e) (hp : c.decrypt e = .ok p) :
    decodeToken lib (some c) c.getAlgorithm d = .ok (.bytes p) := by
  rw [decodeToken, if_neg (hc.ne_of_not_hasPrefix (by decide)),
    if_neg (hc.ne_of_not_hasPrefix (by decide)), if_neg (hc.ne_of_not_hasPrefix (by decide)),
    if_pos hc.cipherAlgorithm]
  simp [hd, hp]

end Ably.Codec
