import Mathlib.Data.List.Sort
import Mathlib.Tactic.Ring

/-!
# The pieces of the Go runtime the client leans on

The pending-ack queue of `state.go` is written against three pieces of Go that
carry their own semantics: `int` arithmetic, which wraps at 64 bits; slicing,
which panics when its bounds are out of order; and `sort.Search`, a binary search
whose answer is the *first* index of a monotone predicate.  This file models the
three and proves what the queue needs of each.

* A panic is `none`: a panicking call does not return, so the model keeps no
  state after it.
* `int` is `Int` with an explicit two's complement wrap (`goInt`).
* `sort.Search` is its own loop, fuelled by the width of the interval, and is
  related to the first true index only for monotone predicates
  (`sortSearch_spec`).
-/

namespace Ably.Go

/-! ## 64-bit `int` -/

/-- Two's complement wrap of a mathematical integer to Go's 64-bit `int`. -/
def goInt (x : Int) : Int := Int.bmod x (2 ^ 64)

/-- Go's `a + b` on `int`. -/
def goAdd (a b : Int) : Int := goInt (a + b)

/-- A sum below `2^63` does not wrap. -/
theorem goInt_of_lt {x : Int} (h₀ : 0 ≤ x) (h : x < 2 ^ 63) : goInt x = x := by
  have hm : x % ((2 ^ 64 : Nat) : Int) = x := Int.emod_eq_of_lt h₀ (by omega)
  rw [goInt, Int.bmod_pos x _ (by rw [hm]; omega), hm]

/-! ## Slices

`s[lo:hi]` panics unless `0 ≤ lo ≤ hi ≤ cap(s)`.  Every slice the queue takes is
bounded by its length, so the length stands for the capacity. -/

/-- `s[lo:hi]`, `none` on a bounds panic. -/
def slice {α : Type} (s : List α) (lo hi : Int) : Option (List α) :=
  if 0 ≤ lo ∧ lo ≤ hi ∧ hi ≤ s.length then
    some ((s.drop lo.toNat).take (hi.toNat - lo.toNat))
  else none

theorem slice_some {α : Type} {s : List α} {lo hi : Int} {x : List α}
    (h : slice s lo hi = some x) :
    0 ≤ lo ∧ lo ≤ hi ∧ hi ≤ s.length ∧ x = (s.drop lo.toNat).take (hi.toNat - lo.toNat) := by
  unfold slice at h
  split at h
  · rename_i hb
    exact ⟨hb.1, hb.2.1, hb.2.2, (Option.some.inj h).symm⟩
  · cases h

theorem slice_eq_some {α : Type} {s : List α} {lo hi : Int}
    (h₀ : 0 ≤ lo) (h₁ : lo ≤ hi) (h₂ : hi ≤ s.length) :
    slice s lo hi = some ((s.drop lo.toNat).take (hi.toNat - lo.toNat)) :=
  if_pos ⟨h₀, h₁, h₂⟩

theorem slice_eq_none {α : Type} {s : List α} {lo hi : Int}
    (h : ¬ (0 ≤ lo ∧ lo ≤ hi ∧ hi ≤ s.length)) : slice s lo hi = none :=
  if_neg h

/-- The prefix `s[:k]`. -/
theorem slice_zero {α : Type} (s : List α) (k : Nat) (h : k ≤ s.length) :
    slice s 0 k = some (s.take k) := by
  rw [slice_eq_some le_rfl (by omega) (by omega)]
  simp

/-- The suffix `s[k:]`. -/
theorem slice_length {α : Type} (s : List α) (k : Nat) (h : k ≤ s.length) :
    slice s k s.length = some (s.drop k) := by
  rw [slice_eq_some (by omega) (by omega) le_rfl]
  simp

/-- The middle `s[j:k]`. -/
theorem slice_mid {α : Type} (s : List α) {j k : Nat} (h₁ : j ≤ k) (h₂ : k ≤ s.length) :
    slice s j k = some ((s.drop j).take (k - j)) := by
  rw [slice_eq_some (by omega) (by omega) (by omega)]
  simp

/-- `s[:a]` and `s[a:]` that do not panic split `s` at one point. -/
theorem slice_split {α : Type} {s : List α} {a : Int} {x z : List α}
    (hx : slice s 0 a = some x) (hz : slice s a s.length = some z) :
    ∃ k ≤ s.length, x = s.take k ∧ z = s.drop k := by
  obtain ⟨-, h₁, h₂, rfl⟩ := slice_some hx
  obtain ⟨-, -, -, rfl⟩ := slice_some hz
  refine ⟨a.toNat, by omega, by simp, ?_⟩
  rw [List.take_of_length_le (by simp)]

/-- `s[:a]`, `s[a:b]` and `s[b:]` that do not panic split `s` at one point. -/
theorem slice_split3 {α : Type} {s : List α} {a b : Int} {x y z : List α}
    (hx : slice s 0 a = some x) (hy : slice s a b = some y)
    (hz : slice s b s.length = some z) :
    ∃ k ≤ s.length, x ++ y = s.take k ∧ z = s.drop k := by
  obtain ⟨-, h₁, h₂, rfl⟩ := slice_some hx
  obtain ⟨-, h₃, h₄, rfl⟩ := slice_some hy
  obtain ⟨-, -, -, rfl⟩ := slice_some hz
  refine ⟨b.toNat, by omega, ?_, ?_⟩
  · have : b.toNat = a.toNat + (b.toNat - a.toNat) := by omega
    rw [this, List.take_add]
    simp
  · rw [List.take_of_length_le (by simp)]

/-- A window of `n` from position `r`, clipped to the list: what `s[r:min(r+n, len)]`
and `s[min(r+n, len):]` are. -/
theorem take_drop_window {α : Type} (l : List α) (r n : Nat) :
    (l.drop r).take (min (r + n) l.length - r) = (l.drop r).take n ∧
      l.drop (min (r + n) l.length) = (l.drop r).drop n := by
  by_cases h : r + n ≤ l.length
  · rw [min_eq_left h, Nat.add_sub_cancel_left, List.drop_drop]; exact ⟨rfl, rfl⟩
  · have hd : (l.drop r).length ≤ n := by simp; omega
    rw [min_eq_right (by omega), List.drop_length, List.drop_eq_nil_of_le hd,
      List.take_of_length_le hd, List.take_of_length_le (by simp)]
    exact ⟨rfl, rfl⟩

/-- `copy(dst, src)`: the first `min(len(dst), len(src))` elements of `dst` are
overwritten by those of `src`, read before any is written. -/
def copyInto {α : Type} (dst src : List α) : List α :=
  src.take dst.length ++ dst.drop src.length

/-- The shift Enqueue performs: `append` a zero element, `copy(q[i+1:], q[i:])`,
then `q[i] = x`. -/
def insertShift {α : Type} (zero : α) (q : List α) (i : Nat) (x : α) : List α :=
  let q₁ := q ++ [zero]
  (q₁.take (i + 1) ++ copyInto (q₁.drop (i + 1)) (q₁.drop i)).set i x

/-- The append/copy/assign shift is insertion at `i`. -/
theorem insertShift_eq {α : Type} (zero : α) (q : List α) {i : Nat} (h : i < q.length)
    (x : α) : insertShift zero q i x = q.take i ++ x :: q.drop i := by
  have hc : copyInto ((q ++ [zero]).drop (i + 1)) ((q ++ [zero]).drop i) = q.drop i := by
    have e : q.length - (i + 1) + 1 = q.length - i := by omega
    rw [List.drop_append_of_le_length (by omega : i + 1 ≤ q.length),
      List.drop_append_of_le_length (by omega : i ≤ q.length), copyInto]
    simp [List.take_append_eq_append_take, List.drop_append_eq_append_drop, e]
    omega
  have ht : (q ++ [zero]).take (i + 1) = q.take i ++ [q[i]] := by
    rw [List.take_append_of_le_length (by omega), List.take_succ, List.getElem?_eq_getElem h]
    rfl
  rw [insertShift, hc, ht, List.append_assoc, List.set_append_right _ _ (by simp)]
  simp [Nat.min_eq_left h.le]

/-! ## `sort.Search`

Go's loop keeps `f` false below `i` and true from `j` on, halving `[i, j)`:

```
i, j := 0, n
for i < j {
	h := int(uint(i+j) >> 1)
	if !f(h) { i = h + 1 } else { j = h }
}
return i
```
-/

/-- The loop of `sort.Search`, with fuel for the width of the interval. -/
def searchLoop (f : Nat → Bool) : Nat → Nat → Nat → Nat
  | 0, i, _ => i
  | fuel + 1, i, j =>
    if i < j then
      let h := (i + j) / 2
      if !f h then searchLoop f fuel (h + 1) j else searchLoop f fuel i h
    else i

/-- `sort.Search(n, f)`. -/
def sortSearch (n : Nat) (f : Nat → Bool) : Nat := searchLoop f n 0 n

/-- What the loop keeps: the answer lies in `[i, j]`. -/
def SearchInv (n : Nat) (f : Nat → Bool) (i j : Nat) : Prop :=
  i ≤ j ∧ j ≤ n ∧ (∀ k < i, f k = false) ∧ (∀ k, j ≤ k → k < n → f k = true)

/-- The first-true-index characterisation of an answer. -/
def IsFirstTrue (n : Nat) (f : Nat → Bool) (r : Nat) : Prop :=
  r ≤ n ∧ (∀ k < r, f k = false) ∧ (∀ k, r ≤ k → k < n → f k = true)

/-- `f` is monotone on `[0, n)`: false, then true. -/
def MonotoneOn (n : Nat) (f : Nat → Bool) : Prop :=
  ∀ a b, a ≤ b → b < n → f a = true → f b = true

section Search

variable {n : Nat} {f : Nat → Bool}

theorem searchLoop_spec (hf : MonotoneOn n f) :
    ∀ fuel i j, j - i ≤ fuel → SearchInv n f i j → IsFirstTrue n f (searchLoop f fuel i j)
  | 0, i, j, hfuel, ⟨hij, hjn, hlo, hhi⟩ => by
    have : i = j := by omega
    subst this
    exact ⟨hjn, hlo, hhi⟩
  | fuel + 1, i, j, hfuel, ⟨hij, hjn, hlo, hhi⟩ => by
    simp only [searchLoop]
    split
    · rename_i hlt
      split
      · rename_i hh
        refine searchLoop_spec hf fuel _ _ (by omega) ⟨by omega, hjn, fun k hk => ?_, hhi⟩
        by_cases hk' : k < i
        · exact hlo k hk'
        · by_contra hne
          simp only [Bool.not_eq_true', Bool.not_eq_false] at hh hne
          have := hf k ((i + j) / 2) (by omega) (by omega) hne
          simp [hh] at this
      · rename_i hh
        simp only [Bool.not_eq_true', Bool.not_eq_false] at hh
        refine searchLoop_spec hf fuel _ _ (by omega) ⟨by omega, by omega, hlo, fun k hk hkn => ?_⟩
        exact hf _ k hk hkn hh
    · exact ⟨by omega, hlo, fun k hk hkn => hhi k (by omega) hkn⟩

/-- On a monotone predicate `sort.Search` returns the first true index. -/
theorem sortSearch_spec (hf : MonotoneOn n f) : IsFirstTrue n f (sortSearch n f) :=
  searchLoop_spec hf n 0 n (by omega) ⟨by omega, le_rfl, fun _ h => absurd h (by omega),
    fun _ h h' => absurd h' (by omega)⟩

/-- Searching a list for the first element satisfying `p` splits it into the
elements before, none of which satisfies `p`, and those after, all of which do. -/
theorem firstTrue_take_drop {α : Type} {l : List α} {p : α → Bool} {r : Nat}
    (h : IsFirstTrue l.length (fun k => l[k]?.any p) r) :
    l.take r = l.filter (fun x => !p x) ∧ l.drop r = l.filter p := by
  obtain ⟨hr, hlo, hhi⟩ := h
  have hfalse : ∀ x ∈ l.take r, p x = false := by
    intro x hx
    obtain ⟨k, hk, rfl⟩ := List.mem_iff_getElem.mp hx
    have hk' : k < r := by simp at hk; omega
    have := hlo k hk'
    simpa [List.getElem?_eq_getElem (by simp at hk; omega : k < l.length)] using this
  have htrue : ∀ x ∈ l.drop r, p x = true := by
    intro x hx
    obtain ⟨k, hk, rfl⟩ := List.mem_iff_getElem.mp hx
    simp only [List.length_drop] at hk
    have := hhi (r + k) (by omega) (by omega)
    simpa [List.getElem?_eq_getElem (by omega : r + k < l.length)] using this
  constructor
  · conv_rhs => rw [← List.take_append_drop r l]
    rw [List.filter_append, List.filter_eq_self.mpr (by simpa using hfalse),
      List.filter_eq_nil_iff.mpr (by simpa using htrue), List.append_nil]
  · conv_rhs => rw [← List.take_append_drop r l]
    rw [List.filter_append, List.filter_eq_self.mpr htrue,
      List.filter_eq_nil_iff.mpr (by simpa using hfalse), List.nil_append]

end Search

end Ably.Go
