import Ably.Go.Runtime
import Ably.Proto

/-!
# The pending-ack queue

`pendingEmitter` (`state.go`) holds the published frames still waiting for the
server's verdict, each with the channel its outcome is sent on.  `Enqueue` puts
a frame in place by binary search, `Ack` and `Nack` complete a prefix of the
queue and drop it.

The model follows the Go text line for line: the bounds `Ack` and `Nack`
compute, in wrapping `int` arithmetic, and the slices they take, which panic
(`none`) when the bounds are out of order.  A send `sch.ch <- err` is recorded in
the returned list of `Send`s, in the order the loops make them.  The logger is
left out: its calls change nothing the queue or a channel sees.

## Spec lemmas

* `ack_shape`, `nack_shape`: whatever the branch, a call that returns completes
  a prefix of the queue, exactly once each, and keeps the rest.
* `search_split`: on an ascending queue `Search` splits it at the serial.
* `enqueue_of_fresh`: a fresh serial is inserted in order.
-/

namespace Ably

open Go

/-- `msgCh`: a published frame and the channel its outcome goes to.  A channel
is named by a number. -/
structure MsgCh where
  msg : ProtocolMessage
  ch : Nat
  deriving DecidableEq, Repr

/-- The zero value `msgCh{}` that `Enqueue` appends before shifting. -/
def MsgCh.zero : MsgCh := ⟨⟨0, 0⟩, 0⟩

/-- One `sch.ch <- err`: the entry whose channel received it, and the value. -/
abbrev Send := MsgCh × Option ErrorInfo

/-- `pendingEmitter`, its queue. -/
structure PendingEmitter where
  queue : List MsgCh
  deriving DecidableEq, Repr

namespace PendingEmitter

/-- `Len`. -/
def len (q : PendingEmitter) : Nat := q.queue.length

/-- `Search`: the first index whose serial is at least `msg`'s. -/
def search (q : PendingEmitter) (msg : ProtocolMessage) : Nat :=
  sortSearch q.len fun i => q.queue[i]?.any fun e => msg.msgSerial ≤ e.msg.msgSerial

/-- `Enqueue`.  Go's switch tests `i == q.Len()` first; `i` never exceeds the
length, so `i < len` is its negation. -/
def enqueue (q : PendingEmitter) (msg : ProtocolMessage) (ch : Nat) : PendingEmitter :=
  let i := q.search msg
  if h : i < q.queue.length then
    if q.queue[i].msg.msgSerial = msg.msgSerial then q  -- "duplicated message serial"
    else ⟨insertShift MsgCh.zero q.queue i ⟨msg, ch⟩⟩
  else ⟨q.queue ++ [⟨msg, ch⟩]⟩

/-- The bounds `(nack, ack)` that `Ack` computes. -/
def ackBounds (q : PendingEmitter) (msg : ProtocolMessage) : Int × Int :=
  let i := q.search msg
  if h : i < q.queue.length then
    if q.queue[i].msg.msgSerial = msg.msgSerial then (i, min (goAdd i msg.count) q.len)
    else (i + 1, min (goAdd (i + 1) msg.count) q.len)
  else (q.len, 0)

/-- `Ack`: NACK `queue[:nack]` with `errInfo` (or `errSerialSkipped`), ACK
`queue[nack:ack]` with nil, keep `queue[ack:]`. -/
def ack (q : PendingEmitter) (msg : ProtocolMessage) (errInfo : Option ErrorInfo) :
    Option (PendingEmitter × List Send) :=
  if q.len = 0 then some (q, []) else
  let (nack, ack) := q.ackBounds msg
  let err := if unwrapNil errInfo = none ∧ 0 < nack then some errSerialSkipped
    else unwrapNil errInfo
  do
    let nacked ← slice q.queue 0 nack
    let acked ← slice q.queue nack ack
    let rest ← slice q.queue ack q.len
    pure (⟨rest⟩, nacked.map (·, err) ++ acked.map (·, none))

/-- The bound `nack` that `Nack` computes. -/
def nackBound (q : PendingEmitter) (msg : ProtocolMessage) : Int :=
  let i := q.search msg
  if h : i < q.queue.length then
    if q.queue[i].msg.msgSerial = msg.msgSerial then min (goAdd i msg.count) q.len
    else min (goAdd (i + 1) msg.count) q.len
  else q.len

/-- `Nack`: NACK `queue[:nack]` with `errInfo`, keep `queue[nack:]`. -/
def nack (q : PendingEmitter) (msg : ProtocolMessage) (errInfo : Option ErrorInfo) :
    Option (PendingEmitter × List Send) :=
  if q.len = 0 then some (q, []) else
  let n := q.nackBound msg
  let err := unwrapNil errInfo
  do
    let nacked ← slice q.queue 0 n
    let rest ← slice q.queue n q.len
    pure (⟨rest⟩, nacked.map (·, err))

/-- The queue is strictly ascending by serial. -/
def Ascending (q : PendingEmitter) : Prop :=
  q.queue.Pairwise fun a b => a.msg.msgSerial < b.msg.msgSerial

instance : DecidablePred Ascending := fun q =>
  inferInstanceAs
    (Decidable (q.queue.Pairwise fun a b : MsgCh => a.msg.msgSerial < b.msg.msgSerial))

/-- The serials in the queue. -/
def serials (q : PendingEmitter) : List Int := q.queue.map (·.msg.msgSerial)

/-! ## What a call that returns does to the queue -/

section Shape

variable {q : PendingEmitter} {msg : ProtocolMessage} {errInfo : Option ErrorInfo}
  {r : PendingEmitter × List Send}

/-- An `Ack` that returns completes a prefix of the queue, in order, and keeps the
rest. -/
theorem ack_shape (h : q.ack msg errInfo = some r) :
    ∃ k ≤ q.queue.length, r.1.queue = q.queue.drop k ∧ r.2.map Prod.fst = q.queue.take k := by
  unfold ack at h
  split at h
  · cases h
    exact ⟨0, by omega, by simp, by simp⟩
  · generalize q.ackBounds msg = b at h
    obtain ⟨nack, ack⟩ := b
    simp only [Option.bind_eq_bind, Option.bind_eq_some, Option.pure_def,
      Option.some.injEq] at h
    obtain ⟨x, hx, y, hy, z, hz, rfl⟩ := h
    obtain ⟨k, hk, hxy, rfl⟩ := slice_split3 hx hy hz
    exact ⟨k, hk, rfl, by simpa [Function.comp_def] using hxy⟩

/-- A `Nack` that returns completes a prefix of the queue, in order, and keeps the
rest. -/
theorem nack_shape (h : q.nack msg errInfo = some r) :
    ∃ k ≤ q.queue.length, r.1.queue = q.queue.drop k ∧ r.2.map Prod.fst = q.queue.take k := by
  unfold nack at h
  split at h
  · cases h
    exact ⟨0, by omega, by simp, by simp⟩
  · simp only [Option.bind_eq_bind, Option.bind_eq_some, Option.pure_def,
      Option.some.injEq] at h
    obtain ⟨x, hx, z, hz, rfl⟩ := h
    obtain ⟨k, hk, rfl, rfl⟩ := slice_split hx hz
    exact ⟨k, hk, rfl, by simp [Function.comp_def]⟩

/-- Every value a `Nack` sends is `errInfo.unwrapNil()`. -/
theorem nack_sends (h : q.nack msg errInfo = some r) : ∀ p ∈ r.2, p.2 = errInfo := by
  unfold nack at h
  split at h
  · cases h; simp
  · simp only [Option.bind_eq_bind, Option.bind_eq_some, Option.pure_def,
      Option.some.injEq] at h
    obtain ⟨x, -, z, -, rfl⟩ := h
    simp

end Shape

/-! ## `Search` on an ascending queue -/

section Search

variable {q : PendingEmitter}

theorem search_monotone (hq : q.Ascending) (msg : ProtocolMessage) :
    MonotoneOn q.queue.length
      fun i => q.queue[i]?.any fun e => msg.msgSerial ≤ e.msg.msgSerial := by
  intro a b hab hb ha
  simp only [List.getElem?_eq_getElem (by omega : a < q.queue.length),
    List.getElem?_eq_getElem hb, Option.any_some, decide_eq_true_eq] at ha ⊢
  rcases Nat.lt_or_eq_of_le hab with hlt | rfl
  · exact ha.trans (List.pairwise_iff_getElem.mp hq a b (by omega) hb hlt).le
  · exact ha

/-- On an ascending queue `Search` splits it into the serials below `msg`'s and
the rest. -/
theorem search_split (hq : q.Ascending) (msg : ProtocolMessage) :
    q.queue.take (q.search msg) = q.queue.filter (·.msg.msgSerial < msg.msgSerial) ∧
    q.queue.drop (q.search msg) = q.queue.filter (msg.msgSerial ≤ ·.msg.msgSerial) := by
  have := @firstTrue_take_drop _ q.queue _ _ (sortSearch_spec (search_monotone hq msg))
  simpa [search, len, ← decide_not, not_le] using this

/-- When the serial is pending, `Search` lands on it. -/
theorem search_at_mem (hq : q.Ascending) (msg : ProtocolMessage)
    (hs : msg.msgSerial ∈ q.serials) :
    ∃ h : q.search msg < q.queue.length,
      q.queue[q.search msg].msg.msgSerial = msg.msgSerial := by
  obtain ⟨x, hx, hxs⟩ := List.mem_map.mp hs
  have hdrop := (search_split hq msg).2
  have hx' : x ∈ q.queue.drop (q.search msg) := by rw [hdrop]; simp [hx, hxs]
  have hlt : q.search msg < q.queue.length := by
    by_contra hge; rw [List.drop_eq_nil_of_le (by omega)] at hx'; simp at hx'
  refine ⟨hlt, ?_⟩
  have hsub : (q.queue.drop (q.search msg)).Pairwise
      fun a b => a.msg.msgSerial < b.msg.msgSerial := hq.sublist (List.drop_sublist _ _)
  have hge : msg.msgSerial ≤ q.queue[q.search msg].msg.msgSerial := by
    have : q.queue[q.search msg] ∈ q.queue.drop (q.search msg) := by
      rw [List.drop_eq_getElem_cons hlt]; exact List.mem_cons_self _ _
    rw [hdrop] at this; simpa using this
  rw [List.drop_eq_getElem_cons hlt] at hx' hsub
  rcases List.mem_cons.mp hx' with rfl | htl
  · exact hxs
  · have := List.rel_of_pairwise_cons hsub htl
    omega

/-- When the serial is above every pending one, `Search` runs off the end. -/
theorem search_of_gt (hq : q.Ascending) {msg : ProtocolMessage}
    (hs : ∀ x ∈ q.queue, x.msg.msgSerial < msg.msgSerial) :
    q.queue.length ≤ q.search msg := by
  have hdrop := (search_split hq msg).2
  rwa [List.filter_eq_nil_iff.mpr (fun x hx => by simpa using hs x hx),
    List.drop_eq_nil_iff] at hdrop

end Search

/-! ## `Enqueue` -/

section Enqueue

variable {q : PendingEmitter}

/-- `Enqueue` of a serial not yet pending inserts it in order. -/
theorem enqueue_of_fresh (hq : q.Ascending) {msg : ProtocolMessage}
    (hfresh : msg.msgSerial ∉ q.serials) (ch : Nat) :
    (q.enqueue msg ch).queue = q.queue.filter (·.msg.msgSerial < msg.msgSerial) ++
      ⟨msg, ch⟩ :: q.queue.filter (msg.msgSerial ≤ ·.msg.msgSerial) := by
  obtain ⟨htake, hdrop⟩ := search_split hq msg
  simp only [enqueue]
  split
  · rename_i hlt
    have hne : q.queue[q.search msg].msg.msgSerial ≠ msg.msgSerial := fun h =>
      hfresh (h ▸ List.mem_map_of_mem _ (List.getElem_mem _))
    rw [if_neg hne, insertShift_eq _ _ hlt, htake, hdrop]
  · rename_i hge
    rw [← htake, ← hdrop, List.take_of_length_le (by omega), List.drop_eq_nil_of_le (by omega)]

/-- `Enqueue` of a fresh serial adds exactly its entry. -/
theorem enqueue_perm (hq : q.Ascending) {msg : ProtocolMessage}
    (hfresh : msg.msgSerial ∉ q.serials) (ch : Nat) :
    (q.enqueue msg ch).queue.Perm (⟨msg, ch⟩ :: q.queue) := by
  obtain ⟨htake, hdrop⟩ := search_split hq msg
  rw [enqueue_of_fresh hq hfresh, ← htake, ← hdrop]
  simpa using @List.perm_middle _ (⟨msg, ch⟩ : MsgCh) (q.queue.take (q.search msg))
    (q.queue.drop (q.search msg))

/-- `Enqueue` of a fresh serial keeps the queue ascending. -/
theorem enqueue_ascending (hq : q.Ascending) {msg : ProtocolMessage}
    (hfresh : msg.msgSerial ∉ q.serials) (ch : Nat) : (q.enqueue msg ch).Ascending := by
  have hlow : (q.queue.filter (·.msg.msgSerial < msg.msgSerial)).Pairwise
      fun a b => a.msg.msgSerial < b.msg.msgSerial := hq.sublist (List.filter_sublist _)
  have hhigh : (q.queue.filter (msg.msgSerial ≤ ·.msg.msgSerial)).Pairwise
      fun a b => a.msg.msgSerial < b.msg.msgSerial := hq.sublist (List.filter_sublist _)
  have hgt : ∀ b ∈ q.queue.filter (msg.msgSerial ≤ ·.msg.msgSerial),
      msg.msgSerial < b.msg.msgSerial := by
    intro b hb
    simp only [List.mem_filter, decide_eq_true_eq] at hb
    exact lt_of_le_of_ne hb.2 fun h => hfresh (h ▸ List.mem_map_of_mem _ hb.1)
  unfold Ascending
  rw [enqueue_of_fresh hq hfresh, List.pairwise_append, List.pairwise_cons]
  refine ⟨hlow, ⟨hgt, hhigh⟩, fun a ha b hb => ?_⟩
  simp only [List.mem_filter, decide_eq_true_eq] at ha
  rcases List.mem_cons.mp hb with rfl | hb
  · exact ha.2
  · exact ha.2.trans (hgt b hb)
end Enqueue

/-! ## `Ack` and `Nack` by their bounds

Whatever branch computed them, bounds of the form `(a, min(a+n, len))` make the
two calls take the same three slices; these lemmas evaluate them once. -/

section Window

variable {q : PendingEmitter} {msg : ProtocolMessage}

/-- `Ack` with bounds `(a, min(a+n, len))`: the first `a` entries are NACKed, the
next `n` ACKed. -/
theorem ack_of_window (hne : q.len ≠ 0) {a : Nat} (ha : a ≤ q.queue.length)
    (h : q.ackBounds msg = ((a : Int), min (a + msg.count) q.len)) (hn : 0 ≤ msg.count)
    (errInfo : Option ErrorInfo) :
    q.ack msg errInfo = some (⟨(q.queue.drop a).drop msg.count.toNat⟩,
      (q.queue.take a).map (·, some (errInfo.getD errSerialSkipped)) ++
        ((q.queue.drop a).take msg.count.toNat).map (·, none)) := by
  have hmin : min ((a : Int) + msg.count) q.len =
      ((min (a + msg.count.toNat) q.queue.length : Nat) : Int) := by
    simp only [len]; omega
  obtain ⟨hw₁, hw₂⟩ := take_drop_window q.queue a msg.count.toNat
  simp only [ack, if_neg hne, h, hmin]
  rw [slice_zero _ _ ha, slice_mid _ (by omega) (by omega),
    show (q.len : Int) = q.queue.length from rfl, slice_length _ _ (by omega)]
  simp only [Option.bind_eq_bind, Option.some_bind, Option.pure_def, hw₁, hw₂]
  rcases Nat.eq_zero_or_pos a with rfl | hpos
  · simp
  · cases errInfo <;> simp [hpos]

/-- `Nack` with bound `min(a+n, len)`: the first `a + n` entries are NACKed. -/
theorem nack_of_window (hne : q.len ≠ 0) {a : Nat} (ha : a ≤ q.queue.length)
    (h : q.nackBound msg = min (a + msg.count) q.len) (hn : 0 ≤ msg.count)
    (errInfo : Option ErrorInfo) :
    q.nack msg errInfo = some (⟨(q.queue.drop a).drop msg.count.toNat⟩,
      (q.queue.take a ++ (q.queue.drop a).take msg.count.toNat).map (·, errInfo)) := by
  have hmin : min ((a : Int) + msg.count) q.len =
      ((min (a + msg.count.toNat) q.queue.length : Nat) : Int) := by
    simp only [len]; omega
  obtain ⟨hw₁, hw₂⟩ := take_drop_window q.queue a msg.count.toNat
  have hsplit : q.queue.take (min (a + msg.count.toNat) q.queue.length) =
      q.queue.take a ++ (q.queue.drop a).take (min (a + msg.count.toNat) q.queue.length - a) := by
    rw [← List.take_add, Nat.add_sub_cancel' (by omega)]
  simp only [nack, if_neg hne, h, hmin]
  rw [slice_zero _ _ (by omega), show (q.len : Int) = q.queue.length from rfl,
    slice_length _ _ (by omega)]
  simp only [Option.bind_eq_bind, Option.some_bind, Option.pure_def, hsplit, hw₁, hw₂,
    unwrapNil_eq]
end Window

end PendingEmitter

end Ably
