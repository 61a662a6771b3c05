import Mathlib.Data.List.Sort
import Mathlib.Data.String.Basic

/-!
# `net/url`: `Values` and its encoding

The paginators build their query strings with `url.Values`: a map from each key
to its list of values, written by `Set` and serialised by `Encode`, which sorts
the keys and escapes keys and values with `QueryEscape`.  A map is modelled as
its list of entries, each key at most once, and is never nil: every map the
modelled code writes was made by `url.Values{}`.

A request's URL is its escaped path and its query.  `EscapedPath` writes no
`?`, so the URL of a rooted path that escaping leaves as it is reads back, up to
its `?`, as that path (`takeWhile_urlString`).
-/

namespace Ably.Go

/-- `url.Values`: its entries, each key at most once. -/
structure Values where
  entries : List (String × List String)
  deriving DecidableEq, Repr

namespace Values

/-- An empty `url.Values{}`. -/
def empty : Values := ⟨[]⟩

/-- `vs.Set(k, v)`: the key now holds `v` alone. -/
def set (vs : Values) (k v : String) : Values :=
  ⟨vs.entries.filter (·.1 != k) ++ [(k, [v])]⟩

end Values

/-! ## `QueryEscape` and `Encode` -/

/-- The characters `QueryEscape` leaves as they are: letters, digits, `-_.~`. -/
def unreserved (b : UInt8) : Bool :=
  (0x41 ≤ b && b ≤ 0x5A) || (0x61 ≤ b && b ≤ 0x7A) || (0x30 ≤ b && b ≤ 0x39) ||
    b = 0x2D || b = 0x5F || b = 0x2E || b = 0x7E

/-- An upper-case hexadecimal digit. -/
def upperHex (n : Nat) : Char := "0123456789ABCDEF".get ⟨n⟩

/-- `url.QueryEscape`, one byte of the UTF-8 text at a time: a space becomes
`+`, an unreserved byte stays, any other byte becomes `%XX`. -/
def queryEscape (s : String) : String :=
  ⟨(s.data.flatMap String.utf8EncodeChar).flatMap fun b =>
    if b = 0x20 then ['+']
    else if unreserved b then [Char.ofNat b.toNat]
    else ['%', upperHex (b.toNat / 16), upperHex (b.toNat % 16)]⟩

/-- `v.Encode()`: `key=value` pairs joined by `&`, keys in ascending order, the
values of a key in their order. -/
def Values.encode (vs : Values) : String :=
  "&".intercalate <|
    (vs.entries.mergeSort fun a b => decide (a.1 ≤ b.1)).flatMap fun e =>
      e.2.map fun v => queryEscape e.1 ++ "=" ++ queryEscape v

/-- The bytes `EscapedPath` leaves as they are: unreserved ones, and
`$&+,/:;=@`. -/
def pathSafe (b : UInt8) : Bool :=
  unreserved b || b = 0x24 || b = 0x26 || b = 0x2B || b = 0x2C || b = 0x2F || b = 0x3A ||
    b = 0x3B || b = 0x3D || b = 0x40

/-- `URL.EscapedPath` for a URL without a raw path. -/
def escapedPath (path : String) : String :=
  if path = "*" then "*"
  else ⟨(path.data.flatMap String.utf8EncodeChar).flatMap fun b =>
    if pathSafe b then [Char.ofNat b.toNat]
    else ['%', upperHex (b.toNat / 16), upperHex (b.toNat % 16)]⟩

/-- `(&url.URL{Path: path, RawQuery: rawQuery}).String()`: the escaped path,
after `./` when its first segment holds a `:`, then the query. -/
def urlString (path rawQuery : String) : String :=
  let ep := escapedPath path
  (if ':' ∈ ep.data.takeWhile (· ≠ '/') then "./" else "") ++ ep ++
    (if rawQuery = "" then "" else "?" ++ rawQuery)

theorem Values.encode_empty : Values.empty.encode = "" := by
  simp [Values.encode, Values.empty, String.intercalate]

/-! ## The path part of a URL -/

theorem charOfNat_toNat {n : Nat} (h : n < 256) : (Char.ofNat n).toNat = n := by
  unfold Char.ofNat
  rw [dif_pos (Or.inl (by omega))]
  rfl

theorem upperHex_ne_question : ∀ k, k < 16 → upperHex k ≠ '?' := by decide

/-- `EscapedPath` writes no `?`: a `?` is not path-safe, and an escape is a `%`
and two hexadecimal digits. -/
theorem question_not_mem_escapedPath (path : String) : '?' ∉ (escapedPath path).data := by
  unfold escapedPath
  split_ifs
  · decide
  · simp only [List.mem_flatMap, not_exists, not_and]
    intro b _ hb
    have hlt : b.toNat < 256 := b.toBitVec.isLt
    split at hb
    · rename_i hs
      have h63 := charOfNat_toNat hlt
      rw [← List.mem_singleton.mp hb] at h63
      obtain rfl : b = 63 :=
        UInt8.eq_of_toBitVec_eq (BitVec.eq_of_toNat_eq (by simpa using h63.symm))
      exact absurd hs (by decide)
    · simp only [List.mem_cons, List.mem_singleton, List.not_mem_nil, or_false] at hb
      rcases hb with h | h | h
      · exact absurd h (by decide)
      · exact upperHex_ne_question _ (by omega) h.symm
      · exact upperHex_ne_question _ (by omega) h.symm

/-- The URL of a rooted path that escaping leaves as it is: up to its `?`, it is
the path. -/
theorem takeWhile_urlString {path : String} (hroot : path.data.head? = some '/')
    (hesc : escapedPath path = path) (rawQuery : String) :
    (urlString path rawQuery).data.takeWhile (· ≠ '?') = path.data := by
  obtain ⟨rest, hp⟩ := List.head?_eq_some_iff.mp hroot
  have hq : '?' ∉ path.data := hesc ▸ question_not_mem_escapedPath path
  have hall : ∀ c ∈ path.data, decide (c ≠ '?') = true := fun c hc =>
    decide_eq_true fun h => hq (h ▸ hc)
  have hslash : ':' ∉ path.data.takeWhile (· ≠ '/') := by simp [hp]
  unfold urlString
  simp only [hesc, hslash, if_false, String.data_append, List.nil_append]
  rw [List.takeWhile_append_of_pos hall]
  split_ifs <;> simp

end Ably.Go
