import Ably.Pending.Emitter

/-!
# What one ACK or NACK completes

The spec words an ACK `(s, n)` by serial ranges: everything below `s` is
NACKed, `[s, s+n)` is ACKed.  The code counts *queue positions*: it finds `s`
with `Search` and completes the `n` entries from there, whatever their serials.
The two agree when the pending serials from `s` on are consecutive, which is
what the connection produces (`Pending/Pipeline.lean`), and disagree on a queue
with gaps (`ack_counts_positions`, `nack_counts_positions`).

The laws are proved where the code's design determines them: an ACK or NACK
naming a pending serial, and a NACK past every pending serial.  Three other
inputs run into slips of the code, each proved as what it does:

* an ACK past every pending serial panics on `queue[len:0]`
  (`ack_panics_past_pending`);
* an ACK or NACK naming a serial between pending ones completes the first entry
  *above* it as if it were below (`ack_nacks_first_above`,
  `nack_overreaches_first_above`): the default branch reads `Search`'s answer
  as the last index below `s`;
* `i + Count` wraps for a count near `2^63`, so the laws assume
  `len + n < 2^63`.
-/

namespace Ably.PendingEmitter

open Go

variable {q : PendingEmitter} {msg : ProtocolMessage}

/-! ## The bounds, branch by branch -/

theorem ackBounds_of_mem (hq : q.Ascending) (hs : msg.msgSerial ∈ q.serials)
    (hn : 0 ≤ msg.count) (hov : q.len + msg.count < 2 ^ 63) :
    q.ackBounds msg = ((q.search msg : Int), min (q.search msg + msg.count) q.len) := by
  obtain ⟨hlt, heq⟩ := search_at_mem hq msg hs
  simp only [ackBounds, dif_pos hlt, heq, if_true]
  rw [goAdd, goInt_of_lt (by omega) (by simp only [len] at hov; omega)]

theorem nackBound_of_mem (hq : q.Ascending) (hs : msg.msgSerial ∈ q.serials)
    (hn : 0 ≤ msg.count) (hov : q.len + msg.count < 2 ^ 63) :
    q.nackBound msg = min (q.search msg + msg.count) q.len := by
  obtain ⟨hlt, heq⟩ := search_at_mem hq msg hs
  simp only [nackBound, dif_pos hlt, heq, if_true]
  rw [goAdd, goInt_of_lt (by omega) (by simp only [len] at hov; omega)]

theorem ackBounds_of_absent (hs : msg.msgSerial ∉ q.serials)
    (hlt : q.search msg < q.queue.length) (hn : 0 ≤ msg.count)
    (hov : q.len + msg.count < 2 ^ 63) :
    q.ackBounds msg = (((q.search msg + 1 : Nat) : Int),
      min ((q.search msg + 1 : Nat) + msg.count) q.len) := by
  have hne : q.queue[q.search msg].msg.msgSerial ≠ msg.msgSerial := fun h =>
    hs (h ▸ List.mem_map_of_mem _ (List.getElem_mem _))
  simp only [ackBounds, dif_pos hlt, if_neg hne]
  rw [goAdd, goInt_of_lt (by omega) (by simp only [len] at hov; omega)]
  push_cast; rfl

theorem nackBound_of_absent (hs : msg.msgSerial ∉ q.serials)
    (hlt : q.search msg < q.queue.length) (hn : 0 ≤ msg.count)
    (hov : q.len + msg.count < 2 ^ 63) :
    q.nackBound msg = min ((q.search msg + 1 : Nat) + msg.count) q.len := by
  have hne : q.queue[q.search msg].msg.msgSerial ≠ msg.msgSerial := fun h =>
    hs (h ▸ List.mem_map_of_mem _ (List.getElem_mem _))
  simp only [nackBound, dif_pos hlt, if_neg hne]
  rw [goAdd, goInt_of_lt (by omega) (by simp only [len] at hov; omega)]
  push_cast; rfl

theorem ackBounds_of_gt (hq : q.Ascending) (hs : ∀ x ∈ q.queue, x.msg.msgSerial < msg.msgSerial) :
    q.ackBounds msg = ((q.len : Int), 0) := by
  simp only [ackBounds, dif_neg (not_lt.mpr (search_of_gt hq hs))]

theorem nackBound_of_gt (hq : q.Ascending) (hs : ∀ x ∈ q.queue, x.msg.msgSerial < msg.msgSerial) :
    q.nackBound msg = q.len := by
  simp only [nackBound, dif_neg (not_lt.mpr (search_of_gt hq hs))]

/-! ## ACK -/

/-- An ACK naming a pending serial `s` sends one error to every entry below `s`
(`errInfo`, or `errSerialSkipped` without one), nil to the next `n` entries from
`s`, nothing to the rest, which stay queued in order. -/
theorem ack_of_pending_serial (hq : q.Ascending) {s n : Int} (hs : s ∈ q.serials)
    (hn : 0 ≤ n) (hov : q.len + n < 2 ^ 63) (errInfo : Option ErrorInfo) :
    q.ack ⟨s, n⟩ errInfo = some (⟨(q.queue.filter (s ≤ ·.msg.msgSerial)).drop n.toNat⟩,
      (q.queue.filter (·.msg.msgSerial < s)).map (·, some (errInfo.getD errSerialSkipped)) ++
        ((q.queue.filter (s ≤ ·.msg.msgSerial)).take n.toNat).map (·, none)) := by
  obtain ⟨htake, hdrop⟩ := search_split hq ⟨s, n⟩
  obtain ⟨hlt, -⟩ := search_at_mem hq ⟨s, n⟩ hs
  rw [ack_of_window (by simp only [len]; omega) hlt.le (ackBounds_of_mem hq hs hn hov) hn,
    htake, hdrop]

theorem ack_of_pending_serial_sample :
    PendingEmitter.ack ⟨[⟨⟨1, 0⟩, 10⟩, ⟨⟨2, 0⟩, 20⟩, ⟨⟨3, 0⟩, 30⟩]⟩ ⟨2, 1⟩ none =
      some (⟨[⟨⟨3, 0⟩, 30⟩]⟩, [(⟨⟨1, 0⟩, 10⟩, some errSerialSkipped), (⟨⟨2, 0⟩, 20⟩, none)]) :=
  (ack_of_pending_serial (by decide) (by decide) (by decide) (by decide) none).trans (by decide)

/-- The serial-range reading fails on a queue with a gap: ACK `(0, 2)` on serials
`0, 5` ACKs serial `5` too and leaves nothing queued, where the range `[0, 2)`
would keep it. -/
theorem ack_counts_positions :
    (PendingEmitter.ack ⟨[⟨⟨0, 0⟩, 0⟩, ⟨⟨5, 0⟩, 1⟩]⟩ ⟨0, 2⟩ none).map (·.1.queue) ≠
      some ([⟨⟨0, 0⟩, 0⟩, ⟨⟨5, 0⟩, 1⟩].filter fun e : MsgCh => 0 + 2 ≤ e.msg.msgSerial) := by
  decide

/-- An ACK past every pending serial sends its errors and then panics on
`queue[len:0]`. -/
theorem ack_panics_past_pending (hq : q.Ascending) (hne : q.queue ≠ [])
    (hs : ∀ x ∈ q.queue, x.msg.msgSerial < msg.msgSerial) (errInfo : Option ErrorInfo) :
    q.ack msg errInfo = none := by
  have hlen : q.len ≠ 0 := by simpa [len] using hne
  have hpanic : slice q.queue q.queue.length 0 = none :=
    slice_eq_none (by simp only [len] at hlen; omega)
  simp [ack, if_neg hlen, ackBounds_of_gt hq hs, slice_zero _ _ le_rfl, len, hpanic, hne]

theorem ack_panics_past_pending_sample :
    PendingEmitter.ack ⟨[⟨⟨0, 0⟩, 0⟩, ⟨⟨1, 0⟩, 1⟩]⟩ ⟨2, 1⟩ none = none :=
  ack_panics_past_pending (by decide) (by decide) (by decide) none

/-- An ACK naming a serial between pending ones (or below them all) NACKs the
first entry above it, then ACKs the `n` after that. -/
theorem ack_nacks_first_above (hq : q.Ascending) {s n : Int} (hs : s ∉ q.serials)
    {x : MsgCh} {rest : List MsgCh} (habove : q.queue.filter (s ≤ ·.msg.msgSerial) = x :: rest)
    (hn : 0 ≤ n) (hov : q.len + n < 2 ^ 63) (errInfo : Option ErrorInfo) :
    q.ack ⟨s, n⟩ errInfo = some (⟨rest.drop n.toNat⟩,
      (q.queue.filter (·.msg.msgSerial < s) ++ [x]).map
          (·, some (errInfo.getD errSerialSkipped)) ++
        (rest.take n.toNat).map (·, none)) := by
  obtain ⟨htake, hdrop⟩ := search_split hq ⟨s, n⟩
  have hlt : q.search ⟨s, n⟩ < q.queue.length := by
    by_contra hge
    rw [List.drop_eq_nil_of_le (by omega)] at hdrop
    rw [← hdrop] at habove; cases habove
  have hsplit := List.drop_eq_getElem_cons hlt
  rw [hdrop, habove] at hsplit
  obtain ⟨hx, hrest⟩ := List.cons.inj hsplit
  rw [ack_of_window (by simp only [len]; omega) hlt (ackBounds_of_absent hs hlt hn hov) hn,
    List.take_succ, List.getElem?_eq_getElem hlt, htake, ← hrest, ← hx]
  rfl

theorem ack_nacks_first_above_sample :
    PendingEmitter.ack ⟨[⟨⟨5, 0⟩, 0⟩, ⟨⟨6, 0⟩, 1⟩, ⟨⟨7, 0⟩, 2⟩]⟩ ⟨3, 3⟩ none =
      some (⟨[]⟩, [(⟨⟨5, 0⟩, 0⟩, some errSerialSkipped), (⟨⟨6, 0⟩, 1⟩, none),
        (⟨⟨7, 0⟩, 2⟩, none)]) :=
  (@ack_nacks_first_above ⟨[⟨⟨5, 0⟩, 0⟩, ⟨⟨6, 0⟩, 1⟩, ⟨⟨7, 0⟩, 2⟩]⟩ (by decide) 3 3 (by decide)
    ⟨⟨5, 0⟩, 0⟩ [⟨⟨6, 0⟩, 1⟩, ⟨⟨7, 0⟩, 2⟩] (by decide) (by decide) (by decide) none).trans
    (by decide)

/-! ## NACK -/

/-- A NACK naming a pending serial `s` NACKs the entries below `s` and the `n`
entries from `s` on. -/
theorem nack_of_mem (hq : q.Ascending) {s n : Int} (hs : s ∈ q.serials) (hn : 0 ≤ n)
    (hov : q.len + n < 2 ^ 63) (errInfo : Option ErrorInfo) :
    q.nack ⟨s, n⟩ errInfo = some (⟨(q.queue.filter (s ≤ ·.msg.msgSerial)).drop n.toNat⟩,
      (q.queue.filter (·.msg.msgSerial < s) ++
        (q.queue.filter (s ≤ ·.msg.msgSerial)).take n.toNat).map (·, errInfo)) := by
  obtain ⟨htake, hdrop⟩ := search_split hq ⟨s, n⟩
  obtain ⟨hlt, -⟩ := search_at_mem hq ⟨s, n⟩ hs
  rw [nack_of_window (by simp only [len]; omega) hlt.le (nackBound_of_mem hq hs hn hov) hn,
    htake, hdrop]

/-- A NACK past every pending serial NACKs the whole queue. -/
theorem nack_of_gt (hq : q.Ascending) {s n : Int} (hs : ∀ x ∈ q.queue, x.msg.msgSerial < s)
    (hn : 0 ≤ n) (errInfo : Option ErrorInfo) :
    q.nack ⟨s, n⟩ errInfo = some (⟨[]⟩, q.queue.map (·, errInfo)) := by
  by_cases h0 : q.len = 0
  · obtain ⟨qs⟩ := q
    obtain rfl : qs = [] := List.eq_nil_of_length_eq_zero h0
    rfl
  rw [nack_of_window h0 le_rfl (by rw [nackBound_of_gt hq hs]; simp only [len]; omega) hn]
  simp

/-- A NACK naming a pending serial `s`, or a serial past every pending one, sends
`errInfo` to every entry below `s` and to the next `n` entries from `s`, nothing
to the rest, which stay queued in order. -/
theorem nack_of_covered_serial (hq : q.Ascending) {s n : Int}
    (hs : s ∈ q.serials ∨ ∀ x ∈ q.queue, x.msg.msgSerial < s) (hn : 0 ≤ n)
    (hov : q.len + n < 2 ^ 63) (errInfo : ErrorInfo) :
    q.nack ⟨s, n⟩ (some errInfo) =
      some (⟨(q.queue.filter (s ≤ ·.msg.msgSerial)).drop n.toNat⟩,
        (q.queue.filter (·.msg.msgSerial < s) ++
          (q.queue.filter (s ≤ ·.msg.msgSerial)).take n.toNat).map (·, some errInfo)) := by
  rcases hs with hs | hs
  · exact nack_of_mem hq hs hn hov (some errInfo)
  · have hlow : q.queue.filter (·.msg.msgSerial < s) = q.queue :=
      List.filter_eq_self.mpr fun x hx => by simpa using hs x hx
    have hhigh : q.queue.filter (s ≤ ·.msg.msgSerial) = [] :=
      List.filter_eq_nil_iff.mpr fun x hx => by simpa using hs x hx
    rw [nack_of_gt hq hs hn, hlow, hhigh]
    simp

theorem nack_of_covered_serial_sample :
    PendingEmitter.nack ⟨[⟨⟨1, 0⟩, 10⟩, ⟨⟨2, 0⟩, 20⟩, ⟨⟨3, 0⟩, 30⟩]⟩ ⟨2, 1⟩
        (some errSerialSkipped) =
      some (⟨[⟨⟨3, 0⟩, 30⟩]⟩, [(⟨⟨1, 0⟩, 10⟩, some errSerialSkipped),
        (⟨⟨2, 0⟩, 20⟩, some errSerialSkipped)]) :=
  (nack_of_covered_serial (by decide) (Or.inl (by decide)) (by decide) (by decide)
    errSerialSkipped).trans (by decide)

/-- NACK `(0, 2)` on serials `0, 5` NACKs serial `5` too, where the range
`[0, 2)` would keep it queued. -/
theorem nack_counts_positions :
    (PendingEmitter.nack ⟨[⟨⟨0, 0⟩, 0⟩, ⟨⟨5, 0⟩, 1⟩]⟩ ⟨0, 2⟩
        (some ⟨.literal 40000, "rejected"⟩)).map (·.1.queue) ≠
      some ([⟨⟨0, 0⟩, 0⟩, ⟨⟨5, 0⟩, 1⟩].filter fun e : MsgCh => 0 + 2 ≤ e.msg.msgSerial) := by
  decide

/-- A NACK naming a serial between pending ones (or below them all) completes the
first entry above it and the `n` after that: one more than the range. -/
theorem nack_overreaches_first_above (hq : q.Ascending) {s n : Int} (hs : s ∉ q.serials)
    {x : MsgCh} {rest : List MsgCh} (habove : q.queue.filter (s ≤ ·.msg.msgSerial) = x :: rest)
    (hn : 0 ≤ n) (hov : q.len + n < 2 ^ 63) (errInfo : Option ErrorInfo) :
    q.nack ⟨s, n⟩ errInfo = some (⟨rest.drop n.toNat⟩,
      (q.queue.filter (·.msg.msgSerial < s) ++ x :: rest.take n.toNat).map (·, errInfo)) := by
  obtain ⟨htake, hdrop⟩ := search_split hq ⟨s, n⟩
  have hlt : q.search ⟨s, n⟩ < q.queue.length := by
    by_contra hge
    rw [List.drop_eq_nil_of_le (by omega)] at hdrop
    rw [← hdrop] at habove; cases habove
  have hsplit := List.drop_eq_getElem_cons hlt
  rw [hdrop, habove] at hsplit
  obtain ⟨hx, hrest⟩ := List.cons.inj hsplit
  rw [nack_of_window (by simp only [len]; omega) hlt (nackBound_of_absent hs hlt hn hov) hn,
    List.take_succ, List.getElem?_eq_getElem hlt, htake, ← hrest, ← hx]
  simp

theorem nack_overreaches_first_above_sample :
    PendingEmitter.nack ⟨[⟨⟨5, 0⟩, 0⟩, ⟨⟨6, 0⟩, 1⟩, ⟨⟨7, 0⟩, 2⟩]⟩ ⟨3, 1⟩ none =
      some (⟨[⟨⟨7, 0⟩, 2⟩]⟩, [(⟨⟨5, 0⟩, 0⟩, none), (⟨⟨6, 0⟩, 1⟩, none)]) :=
  (@nack_overreaches_first_above ⟨[⟨⟨5, 0⟩, 0⟩, ⟨⟨6, 0⟩, 1⟩, ⟨⟨7, 0⟩, 2⟩]⟩ (by decide) 3 1
    (by decide) ⟨⟨5, 0⟩, 0⟩ [⟨⟨6, 0⟩, 1⟩, ⟨⟨7, 0⟩, 2⟩] (by decide) (by decide) (by decide)
    none).trans (by decide)

end Ably.PendingEmitter
