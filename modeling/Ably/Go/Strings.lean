/-!
# `strings.Split`, `strings.Join` and `strings.HasPrefix` on `/`

The codec's encoding chains and the paginators' paths are `/`-separated.  The
two functions are modelled on the characters of a string, where splitting is
structural recursion, and proved inverse to each other on the lists of
elements that hold no `/` (`joinSlash_splitSlash`, `splitSlash_joinSlash`).
-/

namespace Ably.Go

namespace Strings

/-- `strings.Split(s, "/")`, on characters. -/
def splitSlash : List Char → List (List Char)
  | [] => [[]]
  | c :: cs =>
    if c = '/' then [] :: splitSlash cs
    else match splitSlash cs with
      | w :: ws => (c :: w) :: ws
      | [] => [[c]]

/-- `strings.Join(ws, "/")`, on characters. -/
def joinSlash : List (List Char) → List Char
  | [] => []
  | [w] => w
  | w :: ws => w ++ '/' :: joinSlash ws

def split (s : String) : List String := (splitSlash s.data).map String.mk

def join (ts : List String) : String := ⟨joinSlash (ts.map String.data)⟩

def hasPrefix (s p : String) : Bool := p.data.isPrefixOf s.data

theorem splitSlash_ne_nil (cs : List Char) : splitSlash cs ≠ [] := by
  cases cs with
  | nil => simp [splitSlash]
  | cons c cs =>
    unfold splitSlash
    split
    · simp
    · split <;> simp

theorem not_mem_of_mem_splitSlash {cs w : List Char} (h : w ∈ splitSlash cs) : '/' ∉ w := by
  induction cs generalizing w with
  | nil => simp [splitSlash] at h; simp [h]
  | cons c cs ih =>
    unfold splitSlash at h
    split at h
    · rcases List.mem_cons.mp h with rfl | h
      · simp
      · exact ih h
    · rename_i hc
      split at h
      · rename_i w' ws heq
        rcases List.mem_cons.mp h with rfl | h
        · simp only [List.mem_cons, not_or]
          exact ⟨Ne.symm hc, ih (by rw [heq]; exact List.mem_cons_self _ _)⟩
        · exact ih (by rw [heq]; exact List.mem_cons_of_mem _ h)
      · exact absurd ‹_› (splitSlash_ne_nil cs)

@[simp] theorem joinSlash_cons_cons (c : Char) (w : List Char) (ws : List (List Char)) :
    joinSlash ((c :: w) :: ws) = c :: joinSlash (w :: ws) := by
  cases ws <;> rfl

/-- Joining what was split gives the string back. -/
theorem joinSlash_splitSlash (cs : List Char) : joinSlash (splitSlash cs) = cs := by
  induction cs with
  | nil => rfl
  | cons c cs ih =>
    unfold splitSlash
    split
    · rename_i hc
      obtain ⟨w, ws, heq⟩ := List.exists_cons_of_ne_nil (splitSlash_ne_nil cs)
      rw [heq] at ih
      rw [heq, hc]
      cases ws <;> simp_all [joinSlash]
    · split
      · rename_i w ws heq
        rw [heq] at ih
        rw [joinSlash_cons_cons, ih]
      · exact absurd ‹_› (splitSlash_ne_nil cs)

theorem splitSlash_of_not_mem {w : List Char} (h : '/' ∉ w) : splitSlash w = [w] := by
  induction w with
  | nil => rfl
  | cons c w ih =>
    simp only [List.mem_cons, not_or] at h
    simp [splitSlash, Ne.symm h.1, ih h.2]

theorem splitSlash_append_slash {w : List Char} (h : '/' ∉ w) (rest : List Char) :
    splitSlash (w ++ '/' :: rest) = w :: splitSlash rest := by
  induction w with
  | nil => simp [splitSlash]
  | cons c w ih =>
    simp only [List.mem_cons, not_or] at h
    simp [splitSlash, Ne.symm h.1, ih h.2]

/-- Splitting what was joined gives the tokens back, when none holds a `/`. -/
theorem splitSlash_joinSlash : ∀ {ws : List (List Char)}, ws ≠ [] → (∀ w ∈ ws, '/' ∉ w) →
    splitSlash (joinSlash ws) = ws
  | [], h, _ => absurd rfl h
  | [w], _, hw => splitSlash_of_not_mem (hw w (List.mem_singleton_self w))
  | w :: w' :: ws, _, hw => by
    rw [joinSlash.eq_3 w (w' :: ws) (List.cons_ne_nil _ _),
      splitSlash_append_slash (hw w (List.mem_cons_self _ _)),
      splitSlash_joinSlash (List.cons_ne_nil _ _) fun v hv => hw v (List.mem_cons_of_mem _ hv)]

theorem joinSlash_eq_nil {ws : List (List Char)} (h : joinSlash ws = []) : ws = [] ∨ ws = [[]] := by
  match ws, h with
  | [], _ => exact .inl rfl
  | [w], h => exact .inr (by simp_all [joinSlash])
  | w :: w' :: ws, h => simp [joinSlash] at h

theorem join_split (s : String) : join (split s) = s := by
  simp only [join, split, List.map_map]
  show String.mk (joinSlash ((splitSlash s.data).map id)) = s
  rw [List.map_id, joinSlash_splitSlash]

theorem split_join {ts : List String} (hne : ts ≠ []) (hs : ∀ t ∈ ts, '/' ∉ t.data) :
    split (join ts) = ts := by
  simp only [split, join]
  rw [splitSlash_joinSlash (by simpa using hne) (by simpa using hs), List.map_map]
  show ts.map id = ts
  exact List.map_id ts

theorem not_mem_of_mem_split {s t : String} (h : t ∈ split s) : '/' ∉ t.data := by
  obtain ⟨w, hw, rfl⟩ := List.mem_map.mp h
  exact not_mem_of_mem_splitSlash hw

theorem join_eq_empty {ts : List String} (h : join ts = "") : ts = [] ∨ ts = [""] := by
  have := joinSlash_eq_nil (congrArg String.data h)
  rcases this with h' | h'
  · exact .inl (List.map_eq_nil_iff.mp h')
  · right
    match ts, h' with
    | [t], h' => simp at h'; exact congrArg (· :: []) (String.ext h')
    | _ :: _ :: _, h' => simp at h'
theorem split_ne_nil (s : String) : split s ≠ [] := by
  simpa [split] using splitSlash_ne_nil s.data

theorem joinSlash_append_singleton : ∀ {ws : List (List Char)}, ws ≠ [] → ∀ w,
    joinSlash (ws ++ [w]) = joinSlash ws ++ '/' :: w
  | [], h, _ => absurd rfl h
  | [v], _, w => rfl
  | v :: v' :: ws, _, w => by
    rw [List.cons_append, joinSlash.eq_3 v _ (by simp),
      joinSlash_append_singleton (List.cons_ne_nil v' ws),
      joinSlash.eq_3 v _ (List.cons_ne_nil v' ws)]
    simp

theorem join_ne_empty {t : String} (ht : t ≠ "") (ts : List String) : join (t :: ts) ≠ "" := by
  intro h
  rcases join_eq_empty h with h | h <;> simp_all

end Strings

end Ably.Go
