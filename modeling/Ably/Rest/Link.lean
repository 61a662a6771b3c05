import Ably.Go.Path
import Mathlib.Tactic.SplitIfs

/-!
# Responses and their `Link` headers

Both paginators of `hosts_test.go` read the `Link` header values of a response
with `relLinkRegexp`, `<(?P<url>[^>]+)>; rel="(?P<rel>[^"]+)"`, and keep, for
each `rel`, the url of the last value that names it.  The regular expression is
modelled by what it can match: a `<`, a nonempty run of characters up to the
first `>`, the separator `; rel="`, a nonempty run up to the first `"`, and
that `"`.  Neither group can stop early, because each is followed by the one
character it excludes, so at a given start a match is unique, and
`FindStringSubmatch` takes the leftmost start that has one.

`findStringSubmatch_render` reads a rendered `<url>; rel="rel"` back, and
`findStringSubmatch_sound` says that what is accepted is such a rendering,
found inside the value.

## Honest boundary

A response keeps its status code, its header map, with keys in canonical form,
and its body; its other fields are read by neither paginator.  Go matches on
the bytes of a string and reads invalid UTF-8 as U+FFFD; the model matches on
the characters of a `String`, which has no invalid sequences.
-/

namespace Ably

open Go

/-- An `*http.Response`, as far as the paginators read it. -/
structure Response where
  statusCode : Nat
  /-- The header map, keys in canonical form. -/
  header : List (String × List String)
  body : List UInt8
  deriving DecidableEq, Repr

/-- `resp.Header[key]`: the values under a key, none when it is absent. -/
def Response.values (r : Response) (key : String) : List String :=
  match r.header.find? (·.1 = key) with
  | some (_, vs) => vs
  | none => []

/-- `resp.Header.Get(key)`, for a key in canonical form: its first value, or `""`. -/
def Response.get (r : Response) (key : String) : String :=
  (r.values key).headD ""

/-! ## `relLinkRegexp` -/

namespace Link

/-- The literal between the two groups of `relLinkRegexp`. -/
def relSep : List Char := "; rel=\"".data

/-- The characters before the first `c`, and those after it; none without a `c`. -/
def untilChar (c : Char) : List Char → Option (List Char × List Char)
  | [] => none
  | d :: ds => if d = c then some ([], ds) else (untilChar c ds).map fun (w, r) => (d :: w, r)

/-- A match of `relLinkRegexp` that starts at the head of the text, as its url and
rel groups. -/
def matchAt : List Char → Option (String × String)
  | '<' :: s =>
    match untilChar '>' s with
    | some (url, s) =>
      if url ≠ [] ∧ relSep.isPrefixOf s then
        match untilChar '"' (s.drop relSep.length) with
        | some (rel, _) => if rel ≠ [] then some (⟨url⟩, ⟨rel⟩) else none
        | none => none
      else none
    | none => none
  | _ => none

/-- `relLinkRegexp.FindStringSubmatch(link)`: the groups of the leftmost match. -/
def findStringSubmatch : List Char → Option (String × String)
  | [] => none
  | c :: cs =>
    match matchAt (c :: cs) with
    | some m => some m
    | none => findStringSubmatch cs

/-- The url of the last value of `links` that matches with this `rel`. -/
def lastRel (rel : String) : List String → Option String
  | [] => none
  | l :: ls =>
    match lastRel rel ls with
    | some u => some u
    | none =>
      match findStringSubmatch l.data with
      | some (u, r) => if r = rel then some u else none
      | none => none

/-- The `Link` header value `<url>; rel="rel"`. -/
def render (url rel : String) : String :=
  ⟨'<' :: url.data ++ '>' :: relSep ++ rel.data ++ ['"']⟩

/-! ## The matcher -/

theorem untilChar_append {c : Char} {w : List Char} (hw : c ∉ w) (r : List Char) :
    untilChar c (w ++ c :: r) = some (w, r) := by
  induction w with
  | nil => simp [untilChar]
  | cons d w ih =>
    simp only [List.mem_cons, not_or] at hw
    simp [untilChar, Ne.symm hw.1, ih hw.2]

theorem untilChar_sound {c : Char} {s w r : List Char} (h : untilChar c s = some (w, r)) :
    s = w ++ c :: r ∧ c ∉ w := by
  induction s generalizing w with
  | nil => simp [untilChar] at h
  | cons d ds ih =>
    unfold untilChar at h
    split at h
    · simp_all
    · obtain ⟨⟨w', r'⟩, h', hw⟩ := Option.map_eq_some'.mp h
      simp only [Prod.mk.injEq] at hw
      obtain ⟨rfl, rfl⟩ := hw
      obtain ⟨rfl, hw'⟩ := ih h'
      simp_all [eq_comm]

theorem matchAt_render {url rel : List Char} (hu : url ≠ []) (hu' : '>' ∉ url) (hr : rel ≠ [])
    (hr' : '"' ∉ rel) (t : List Char) :
    matchAt ('<' :: url ++ '>' :: relSep ++ rel ++ '"' :: t) = some (⟨url⟩, ⟨rel⟩) := by
  have hsep : relSep.isPrefixOf (relSep ++ rel ++ '"' :: t) = true :=
    List.isPrefixOf_iff_prefix.mpr (by simp [List.append_assoc])
  simp only [matchAt, List.cons_append, List.append_assoc]
  rw [untilChar_append hu']
  simp only [List.append_assoc] at hsep
  simp only [hu, hsep, ne_eq, not_false_eq_true, true_and, if_true, List.drop_left,
    untilChar_append hr', hr, if_true]

/-- `relLinkRegexp` reads back the url and rel of a rendered `Link` value. -/
theorem findStringSubmatch_render {url rel : String} (hu : url ≠ "") (hu' : '>' ∉ url.data)
    (hr : rel ≠ "") (hr' : '"' ∉ rel.data) :
    findStringSubmatch (render url rel).data = some (url, rel) := by
  have hu₀ : url.data ≠ [] := fun h => hu (String.ext h)
  have hr₀ : rel.data ≠ [] := fun h => hr (String.ext h)
  have := matchAt_render hu₀ hu' hr₀ hr' []
  simp only [List.cons_append, List.append_assoc] at this
  simp [render, findStringSubmatch, List.append_assoc, this]

theorem findStringSubmatch_render_sample :
    "./messages?page=2" ≠ "" ∧ '>' ∉ "./messages?page=2".data ∧ "next" ≠ "" ∧ '"' ∉ "next".data ∧
      findStringSubmatch (render "./messages?page=2" "next").data =
        some ("./messages?page=2", "next") :=
  ⟨by decide, by decide, by decide, by decide,
    findStringSubmatch_render (by decide) (by decide) (by decide) (by decide)⟩

theorem matchAt_sound {s : List Char} {url rel : String} (h : matchAt s = some (url, rel)) :
    url ≠ "" ∧ '>' ∉ url.data ∧ rel ≠ "" ∧ '"' ∉ rel.data ∧ (render url rel).data <+: s := by
  unfold matchAt at h
  split at h
  · rename_i s
    split at h
    · rename_i url' s' hs
      obtain ⟨rfl, hu⟩ := untilChar_sound hs
      split_ifs at h with h₁
      split at h
      · rename_i rel' t ht
        obtain ⟨ht, hr⟩ := untilChar_sound ht
        split_ifs at h with h₂
        simp only [Option.some.injEq, Prod.mk.injEq] at h
        obtain ⟨rfl, rfl⟩ := h
        obtain ⟨t', rfl⟩ := List.isPrefixOf_iff_prefix.mp h₁.2
        simp only [List.drop_left] at ht
        subst ht
        refine ⟨fun h => h₁.1 (congrArg String.data h), hu, fun h => h₂ (congrArg String.data h),
          hr, ?_⟩
        simp [render, List.append_assoc]
      · simp at h
    · simp at h
  · simp at h

/-- What `relLinkRegexp` accepts is a well-formed `<url>; rel="rel"`, found in the value:
both groups are nonempty and free of the character that ends them. -/
theorem findStringSubmatch_sound {s : List Char} {url rel : String}
    (h : findStringSubmatch s = some (url, rel)) :
    url ≠ "" ∧ '>' ∉ url.data ∧ rel ≠ "" ∧ '"' ∉ rel.data ∧ (render url rel).data <:+: s := by
  induction s with
  | nil => simp [findStringSubmatch] at h
  | cons c cs ih =>
    unfold findStringSubmatch at h
    split at h
    · rename_i m hm
      cases h
      obtain ⟨h₁, h₂, h₃, h₄, h₅⟩ := matchAt_sound hm
      exact ⟨h₁, h₂, h₃, h₄, h₅.isInfix⟩
    · obtain ⟨h₁, h₂, h₃, h₄, h₅⟩ := ih h
      exact ⟨h₁, h₂, h₃, h₄, List.infix_cons h₅⟩

/-- The first `<` starts no match, so the leftmost match is the second. -/
example :
    findStringSubmatch "<a>; rel=x, <./m?p=2>; rel=\"next\"".data = some ("./m?p=2", "next") := by
  decide

theorem lastRel_ne_empty {rel u : String} {links : List String} (h : lastRel rel links = some u) :
    u ≠ "" := by
  induction links with
  | nil => simp [lastRel] at h
  | cons l ls ih =>
    unfold lastRel at h
    split at h
    · exact ih (by simp_all)
    · split at h
      · rename_i u' r hm
        split_ifs at h
        cases h
        exact (findStringSubmatch_sound hm).1
      · simp at h

/-- A later link of the rel overrides an earlier one. -/
theorem lastRel_cons (rel l : String) (ls : List String) :
    lastRel rel (l :: ls) = (lastRel rel ls).or (lastRel rel [l]) := by
  simp only [lastRel]
  cases lastRel rel ls <;> rfl

end Link

end Ably
