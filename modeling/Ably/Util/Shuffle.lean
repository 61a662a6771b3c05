import Mathlib.Data.List.Perm.Basic
import Mathlib.Logic.Function.Basic

/-!
# `ablyutil.Shuffle`

`Shuffle` (`internal/ablyutil/strings.go`) shuffles the fallback hosts in place:

    for i := range l {
        n := r.Intn(len(l) - 1)
        l[i], l[n] = l[n], l[i]
    }

The random source is an argument: `src i` is what it gives at turn `i`, and
`intn` turns that into the result of `Intn`, so that every value in `[0, n)` is
one the source may give and no other is.  `Intn` of a bound that is not positive
panics, and so does an index out of range; the model returns `none` for both.
The loop never looks at the entries, so the model is generic in their type.

Every draw is below `len - 1`, hence:

* the entry at the last index is untouched until the last turn, which moves it
  before the last position (`shuffleTurns_last`);
* the turns before the last are a Fisher–Yates shuffle of the first `len - 1`
  positions, and reach every arrangement of them (`shuffleTurns_reach`).

So the results over all random sources are exactly the rearrangements that put
an occurrence of the last entry before the last position (`shuffle_reachable`).
A list of one entry panics, and a list of two entries always comes back
reversed (`shuffle_one_panics_two_swaps`).

## Honest boundary

`Intn`'s result is the source's value modulo the bound: the model says which
values occur, not how often, and nothing here is about the distribution of the
results.
-/

namespace Ably.AblyUtil

variable {α : Type}

/-! ## The code -/

/-- `r.Intn(n)`, for the value `v` the source gives: a value in `[0, n)`; it
panics when `n <= 0`. -/
def intn (n : Int) (v : Nat) : Option Nat :=
  if 0 < n then some (v % n.toNat) else none

/-- `l[i], l[j] = l[j], l[i]`: both entries are read, then both written; an index
out of range panics. -/
def swap (l : List α) (i j : Nat) : Option (List α) :=
  match l[i]?, l[j]? with
  | some a, some b => some ((l.set i b).set j a)
  | _, _ => none

/-- One turn of the loop of `Shuffle`, at index `i`. -/
def shuffleTurn (src : Nat → Nat) (l : List α) (i : Nat) : Option (List α) := do
  let n ← intn ((l.length : Int) - 1) (src i)
  swap l i n

/-- The turns `is` of the loop, in order. -/
def shuffleTurns (src : Nat → Nat) : List Nat → List α → Option (List α)
  | [], l => some l
  | i :: is, l => (shuffleTurn src l i).bind (shuffleTurns src is)

/-- `Shuffle`: a turn for every index of the list. -/
def shuffle (src : Nat → Nat) (l : List α) : Option (List α) :=
  shuffleTurns src (List.range l.length) l

/-! ## One turn -/

theorem intn_of_pos {n : Int} (h : 0 < n) (v : Nat) : intn n v = some (v % n.toNat) := if_pos h

theorem intn_of_nonpos {n : Int} (h : n ≤ 0) (v : Nat) : intn n v = none := if_neg (by omega)

theorem swap_eq {l : List α} {i j : Nat} (hi : i < l.length) (hj : j < l.length) :
    swap l i j = some ((l.set i l[j]).set j l[i]) := by
  simp [swap, List.getElem?_eq_getElem hi, List.getElem?_eq_getElem hj]

theorem swap_eq_none {l : List α} {i j : Nat} (h : l.length ≤ i ∨ l.length ≤ j) :
    swap l i j = none := by
  rcases h with h | h <;> simp [swap, List.getElem?_eq_none h]

theorem getElem?_swap {l : List α} {i j : Nat} (hi : i < l.length) (hj : j < l.length) (k : Nat) :
    ((l.set i l[j]).set j l[i])[k]? = if k = j then l[i]? else if k = i then l[j]? else l[k]? := by
  simp only [List.getElem?_set, List.length_set, List.getElem?_eq_getElem hi,
    List.getElem?_eq_getElem hj]
  split_ifs <;> first | rfl | omega

theorem swap_perm {l : List α} {i j : Nat} (hi : i < l.length) (hj : j < l.length) :
    ((l.set i l[j]).set j l[i]).Perm l := by
  classical
  refine List.perm_iff_count.mpr fun a => ?_
  have hle : (if l[i] == a then 1 else 0) ≤ l.count a := by
    split
    · exact List.count_pos_iff.mpr (beq_iff_eq.mp ‹_› ▸ List.getElem_mem hi)
    · exact Nat.zero_le _
  rw [List.count_set _ _ _ _ (by simpa using hj), List.count_set _ _ _ _ hi, List.getElem_set]
  split <;> simp_all

theorem swap_eq_some {l l' : List α} {i j : Nat} (h : swap l i j = some l') :
    ∃ (hi : i < l.length) (hj : j < l.length), l' = (l.set i l[j]).set j l[i] := by
  by_cases hi : i < l.length
  · by_cases hj : j < l.length
    · rw [swap_eq hi hj, Option.some_inj] at h
      exact ⟨hi, hj, h.symm⟩
    · rw [swap_eq_none (.inr (by omega))] at h; cases h
  · rw [swap_eq_none (.inl (by omega))] at h; cases h

theorem length_sub_one_toNat (l : List α) : ((l.length : Int) - 1).toNat = l.length - 1 := by
  omega

theorem shuffleTurn_of_two_le {l : List α} (hl : 2 ≤ l.length) (src : Nat → Nat) (i : Nat) :
    shuffleTurn src l i = swap l i (src i % (l.length - 1)) := by
  simp only [shuffleTurn, intn_of_pos (by omega : (0 : Int) < l.length - 1), length_sub_one_toNat]
  rfl

/-- What one turn does: for a list of at least two entries, it exchanges the
entry at `i` with the one at the drawn index `j < len - 1`. -/
theorem shuffleTurn_eq_some {src : Nat → Nat} {l l' : List α} {i : Nat}
    (h : shuffleTurn src l i = some l') :
    2 ≤ l.length ∧ l'.Perm l ∧ ∀ k, l'[k]? =
      if k = src i % (l.length - 1) then l[i]?
      else if k = i then l[src i % (l.length - 1)]? else l[k]? := by
  have hl : 2 ≤ l.length := by
    by_contra hl
    simp [shuffleTurn, intn_of_nonpos (by omega : ((l.length : Int) - 1) ≤ 0)] at h
  rw [shuffleTurn_of_two_le hl] at h
  obtain ⟨hi, hj, rfl⟩ := swap_eq_some h
  exact ⟨hl, swap_perm hi hj, getElem?_swap hi hj⟩

theorem shuffleTurn_isSome {l : List α} (hl : 2 ≤ l.length) (src : Nat → Nat) {i : Nat}
    (hi : i < l.length) : ∃ l', shuffleTurn src l i = some l' := by
  have hj := Nat.mod_lt (src i) (by omega : 0 < l.length - 1)
  rw [shuffleTurn_of_two_le hl, swap_eq hi (by omega)]
  exact ⟨_, rfl⟩

/-! ## Whole runs -/

theorem shuffleTurns_append (src : Nat → Nat) (is js : List Nat) (l : List α) :
    shuffleTurns src (is ++ js) l = (shuffleTurns src is l).bind (shuffleTurns src js) := by
  induction is generalizing l with
  | nil => rfl
  | cons i is ih =>
    simp only [List.cons_append, shuffleTurns]
    cases shuffleTurn src l i <;> simp [ih]

/-- A run that returns keeps the entries up to order. -/
theorem shuffleTurns_perm {src : Nat → Nat} :
    ∀ {is : List Nat} {l l' : List α}, shuffleTurns src is l = some l' → l'.Perm l
  | [], _, _, h => by cases h; exact List.Perm.refl _
  | i :: is, l, l', h => by
    obtain ⟨q, hq, h⟩ := Option.bind_eq_some.mp h
    exact (shuffleTurns_perm h).trans (shuffleTurn_eq_some hq).2.1

/-- On a list of at least two entries, a run over turns within the list returns. -/
theorem shuffleTurns_isSome (src : Nat → Nat) :
    ∀ {is : List Nat} {l : List α}, 2 ≤ l.length → (∀ i ∈ is, i < l.length) →
      ∃ l', shuffleTurns src is l = some l'
  | [], l, _, _ => ⟨l, rfl⟩
  | i :: is, l, hl, his => by
    obtain ⟨q, hq⟩ := shuffleTurn_isSome hl src (his i (List.mem_cons_self _ _))
    have hlen := (shuffleTurn_eq_some hq).2.1.length_eq
    obtain ⟨l', h⟩ := @shuffleTurns_isSome src is q (by omega)
      fun j hj => hlen ▸ his j (List.mem_cons_of_mem _ hj)
    exact ⟨l', by simp [shuffleTurns, hq, h]⟩

/-- Turns before the last index never touch the last entry: every draw is below
`len - 1`. -/
theorem shuffleTurns_last {src : Nat → Nat} :
    ∀ {is : List Nat} {l l' : List α}, shuffleTurns src is l = some l' →
      (∀ i ∈ is, i < l.length - 1) → l'[l.length - 1]? = l[l.length - 1]?
  | [], _, _, h, _ => by cases h; rfl
  | i :: is, l, l', h, his => by
    obtain ⟨q, hq, h⟩ := Option.bind_eq_some.mp h
    obtain ⟨hl, hperm, hget⟩ := shuffleTurn_eq_some hq
    have hi := his i (List.mem_cons_self _ _)
    have hj := Nat.mod_lt (src i) (by omega : 0 < l.length - 1)
    have hlen : q.length = l.length := hperm.length_eq
    have hrest := shuffleTurns_last h fun j hj => hlen ▸ his j (List.mem_cons_of_mem _ hj)
    rw [hlen] at hrest
    rw [hrest, hget, if_neg (by omega), if_neg (by omega)]

/-- A run reads the random source only at its own turns. -/
theorem shuffleTurns_congr {src src' : Nat → Nat} :
    ∀ {is : List Nat}, (∀ i ∈ is, src i = src' i) → ∀ l : List α,
      shuffleTurns src is l = shuffleTurns src' is l
  | [], _, _ => rfl
  | i :: is, h, l => by
    simp only [shuffleTurns, shuffleTurn, h i (List.mem_cons_self _ _),
      shuffleTurns_congr fun j hj => h j (List.mem_cons_of_mem _ hj)]

/-! ## Which orders a run can reach -/

/-- Two rearrangements of each other that agree before `i` and from `m` on hold
the same entries in between: the entry of `t` at `i` sits in `c` at some `j` in
`[i, m)`. -/
theorem exists_mid_of_perm {s t : List α} (hperm : t.Perm s) {i m : Nat} (him : i < m)
    (hm : m ≤ s.length) (hpre : ∀ p < i, t[p]? = s[p]?) (hsuf : ∀ p, m ≤ p → t[p]? = s[p]?) :
    ∃ j, i ≤ j ∧ j < m ∧ s[j]? = t[i]? := by
  have split3 : ∀ l : List α, l.take i ++ (l.take m).drop i ++ l.drop m = l := fun l => by
    calc l.take i ++ (l.take m).drop i ++ l.drop m
        = (l.take m).take i ++ (l.take m).drop i ++ l.drop m := by
          rw [List.take_take, Nat.min_eq_left him.le]
      _ = l := by rw [List.take_append_drop, List.take_append_drop]
  have hA : t.take i = s.take i := List.ext_getElem? fun p => by
    rw [List.getElem?_take, List.getElem?_take]
    split_ifs with hp
    · exact hpre p hp
    · rfl
  have hB : t.drop m = s.drop m := List.ext_getElem? fun p => by
    rw [List.getElem?_drop, List.getElem?_drop]
    exact hsuf _ (by omega)
  have hmid : ((t.take m).drop i).Perm ((s.take m).drop i) := by
    rw [← split3 t, ← split3 s, hA, hB] at hperm
    exact (List.perm_append_left_iff _).mp ((List.perm_append_right_iff _).mp hperm)
  obtain ⟨v, hv⟩ : ∃ v, t[i]? = some v :=
    ⟨_, List.getElem?_eq_getElem (by rw [hperm.length_eq]; omega)⟩
  have hvt : v ∈ (t.take m).drop i :=
    List.mem_iff_getElem?.mpr
      ⟨0, by rw [List.getElem?_drop, List.getElem?_take_of_lt (by omega)]; exact hv⟩
  obtain ⟨q, hq⟩ := List.mem_iff_getElem?.mp (hmid.subset hvt)
  rw [List.getElem?_drop, List.getElem?_take] at hq
  split_ifs at hq with hqm
  · exact ⟨i + q, by omega, hqm, hq.trans hv.symm⟩

/-- Fisher–Yates within the first `len - 1` positions: from turn `i` on, a run
can reach any rearrangement that agrees with the list before `i` and at the last
index. -/
theorem shuffleTurns_reach : ∀ (k i : Nat) {s t : List α}, 2 ≤ s.length → i + k + 1 = s.length →
    t.Perm s → (∀ p < i, t[p]? = s[p]?) → t[s.length - 1]? = s[s.length - 1]? →
    ∃ src, shuffleTurns src (List.range' i k) s = some t
  | 0, i, s, t, _, hk, hperm, hpre, hlast => by
    refine ⟨fun _ => 0, congrArg some (List.ext_getElem? fun p => ?_)⟩
    rcases Nat.lt_or_ge p (s.length - 1) with hp | hp
    · exact (hpre p (by omega)).symm
    · rcases Nat.lt_or_ge p s.length with hp' | hp'
      · rw [show p = s.length - 1 by omega]
        exact hlast.symm
      · rw [List.getElem?_eq_none hp', List.getElem?_eq_none (by rw [hperm.length_eq]; exact hp')]
  | k + 1, i, s, t, hl, hk, hperm, hpre, hlast => by
    obtain ⟨j, hij, hjm, hcj⟩ := exists_mid_of_perm hperm (by omega : i < s.length - 1) (by omega)
      hpre fun p hp => by
        rcases Nat.lt_or_ge p s.length with hp' | hp'
        · rw [show p = s.length - 1 by omega]; exact hlast
        · rw [List.getElem?_eq_none hp', List.getElem?_eq_none (by rw [hperm.length_eq]; exact hp')]
    have hi : i < s.length := by omega
    have hj : j < s.length := by omega
    set s' := (s.set i s[j]).set j s[i] with hs'
    have hget : ∀ p, s'[p]? = if p = j then s[i]? else if p = i then s[j]? else s[p]? :=
      getElem?_swap hi hj
    have hlen : s'.length = s.length := by simp [hs']
    obtain ⟨src, hsrc⟩ := @shuffleTurns_reach k (i + 1) s' t (by omega) (by omega)
      (hperm.trans (swap_perm hi hj).symm)
      (fun p hp => by
        rw [hget]
        split_ifs with h1 h2
        · obtain rfl : p = i := by omega
          obtain rfl := h1
          exact hcj.symm
        · subst h2; exact hcj.symm
        · exact hpre p (by omega))
      (by rw [hlen, hget, if_neg (by omega), if_neg (by omega)]; exact hlast)
    refine ⟨Function.update src i j, ?_⟩
    have hturn : shuffleTurn (Function.update src i j) s i = some s' := by
      rw [shuffleTurn_of_two_le hl, Function.update_same, Nat.mod_eq_of_lt hjm, swap_eq hi hj]
    rw [List.range'_succ, shuffleTurns, hturn, Option.some_bind, ← hsrc]
    exact shuffleTurns_congr (fun p hp => Function.update_noteq
      (by have := List.mem_range'_1.mp hp; omega) _ _) s'

/-! ## `Shuffle` -/

/-- Apart from a list of one entry, `Shuffle` returns, and returns a
rearrangement of its argument. -/
theorem shuffle_perm (src : Nat → Nat) {l : List α} (hl : l.length ≠ 1) :
    ∃ l', shuffle src l = some l' ∧ l'.Perm l := by
  rcases Nat.lt_or_ge l.length 2 with h | h
  · obtain rfl : l = [] := List.eq_nil_of_length_eq_zero (by omega)
    exact ⟨[], rfl, List.Perm.refl _⟩
  · obtain ⟨l', hl'⟩ := shuffleTurns_isSome src h fun i hi => List.mem_range.mp hi
    exact ⟨l', hl', shuffleTurns_perm hl'⟩

theorem shuffle_perm_sample :
    ∃ l', shuffle (fun i => i) ["a", "b", "c"] = some l' ∧ l'.Perm ["a", "b", "c"] :=
  shuffle_perm _ (by decide)

/-- `Shuffle` is the turns before the last index, then the turn at the last. -/
theorem shuffle_eq_last_turn (src : Nat → Nat) {l : List α} (hl : 1 ≤ l.length) :
    shuffle src l = (shuffleTurns src (List.range (l.length - 1)) l).bind
      fun q => shuffleTurn src q (l.length - 1) := by
  have hsplit : List.range l.length = List.range (l.length - 1) ++ [l.length - 1] := by
    rw [← List.range_succ]
    congr 1
    omega
  rw [shuffle, hsplit, shuffleTurns_append]
  simp only [shuffleTurns, Option.bind_some]

/-- Every result of `Shuffle` on a list of at least two entries rearranges it and
puts an occurrence of its last entry before the last position: the last turn
swaps the untouched last entry with one at a draw below `len - 1`. -/
theorem shuffle_moves_last {src : Nat → Nat} {l l' : List α} (hl : 2 ≤ l.length)
    (h : shuffle src l = some l') :
    l'.Perm l ∧ ∃ j, j + 1 < l.length ∧ l'[j]? = l[l.length - 1]? := by
  rw [shuffle_eq_last_turn src (by omega)] at h
  obtain ⟨q, hq, h⟩ := Option.bind_eq_some.mp h
  have hqlast := shuffleTurns_last hq fun i hi => List.mem_range.mp hi
  have hqlen : q.length = l.length := (shuffleTurns_perm hq).length_eq
  obtain ⟨-, hperm, hget⟩ := shuffleTurn_eq_some h
  rw [hqlen] at hget
  refine ⟨hperm.trans (shuffleTurns_perm hq), src (l.length - 1) % (l.length - 1),
    by have := Nat.mod_lt (src (l.length - 1)) (by omega : 0 < l.length - 1); omega, ?_⟩
  rw [hget, if_pos rfl, hqlast]

/-- Every rearrangement of a list of at least two entries that puts an occurrence
of its last entry at `j < len - 1` is a result of `Shuffle`: swap that entry
back to the last index, reach the rest by the turns before the last, and draw
`j` at the last turn. -/
theorem shuffle_of_moves_last {l l' : List α} (hl : 2 ≤ l.length) (hperm : l'.Perm l) {j : Nat}
    (hj : j + 1 < l.length) (hlj : l'[j]? = l[l.length - 1]?) :
    ∃ src, shuffle src l = some l' := by
  have hn : l'.length = l.length := hperm.length_eq
  have hj' : j < l'.length := by omega
  have hlast : l'.length - 1 < l'.length := by omega
  have hq := getElem?_swap hj' hlast
  set q := (l'.set j l'[l'.length - 1]).set (l'.length - 1) l'[j]
  have hqperm : q.Perm l := (swap_perm hj' hlast).trans hperm
  have hqlen : q.length = l.length := hqperm.length_eq
  obtain ⟨src, hsrc⟩ := shuffleTurns_reach (l.length - 1) 0 hl (by omega) hqperm
    (fun p hp => absurd hp (Nat.not_lt_zero _))
    (by rw [hq, hn, if_pos rfl, hlj])
  have hcongr : ∀ i ∈ List.range (l.length - 1),
      Function.update src (l.length - 1) j i = src i :=
    fun i hi => Function.update_noteq (by have := List.mem_range.mp hi; omega) _ _
  refine ⟨Function.update src (l.length - 1) j, ?_⟩
  rw [shuffle_eq_last_turn _ (by omega), shuffleTurns_congr hcongr, List.range_eq_range', hsrc,
    Option.some_bind, shuffleTurn_of_two_le (by omega), Function.update_same, hqlen,
    Nat.mod_eq_of_lt (by omega), swap_eq (by omega) (by omega)]
  refine congrArg some (List.ext_getElem? fun k => ?_)
  rw [getElem?_swap (by omega) (by omega), hq, hq, hq, hn]
  split_ifs <;> first | rfl | omega | (subst_vars; rfl)

/-- The results of `Shuffle` over every random source, for a list of at least
two entries: exactly its rearrangements that put an occurrence of its last entry
before the last position. -/
theorem shuffle_reachable {l l' : List α} (hl : 2 ≤ l.length) :
    (∃ src, shuffle src l = some l') ↔
      l'.Perm l ∧ ∃ j, j + 1 < l.length ∧ l'[j]? = l[l.length - 1]? :=
  ⟨fun ⟨_, h⟩ => shuffle_moves_last hl h,
    fun ⟨hperm, _, hj, hlj⟩ => shuffle_of_moves_last hl hperm hj hlj⟩

/-- The last of three hosts can come first. -/
theorem shuffle_reachable_sample : ∃ src, shuffle src ["a", "b", "c"] = some ["c", "a", "b"] :=
  (shuffle_reachable (by decide)).mpr ⟨by decide, 0, by decide, rfl⟩

/-- `Shuffle` of a list of one entry panics, and of a list of two entries
always swaps them. -/
theorem shuffle_one_panics_two_swaps :
    (∀ (src : Nat → Nat) (a : String), shuffle src [a] = none) ∧
      ∀ (src : Nat → Nat) (a b : String), shuffle src [a, b] = some [b, a] := by
  refine ⟨fun src a => rfl, fun src a b => ?_⟩
  simp [shuffle, shuffleTurns, shuffleTurn, intn, swap, Nat.mod_one]

end Ably.AblyUtil
