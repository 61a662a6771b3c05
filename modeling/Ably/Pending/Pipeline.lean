import Ably.Pending.Complete
import Ably.Pending.MsgQueue

/-!
# The publish pipeline

A connection owns both queues of `state.go`: a frame published while it is
connected is sent at once, which gives it the next message serial and puts it
on the pending-ack queue (`pendingEmitter`); a frame published while it is not
is put on the outbound queue (`msgQueue`), whose `Flush` hands every queued
frame to the same `send` on connecting and whose `Fail` sends every queued
listener an error.  The server's ACKs and NACKs then complete prefixes of the
pending-ack queue.

`PendingEmitter.Ack` and `Nack` count queue *positions* from the serial they
find, where the spec counts *serials*.  Along every run of the pipeline the two
readings agree: the pending serials are always consecutive and end just below
the next serial (`run_consecutive`), so an ACK or NACK naming a pending serial
completes exactly the serial ranges the spec names (`ack_serial_range`,
`nack_serial_range`).  `Flush` moves the outbound queue, in its order, to the
end of the pending-ack queue, numbered from the next serial
(`flush_appends_in_order`).  No frame is lost or completed twice: the
frames completed, pending and queued are together the frames published
(`run_conserves_frames`).  And where every direct `send` finds the outbound
queue empty, as the connection sees to, the frames in flight stand in the order
they were published (`run_keeps_publish_order`).

## Honest boundary

The connection's `send` and the serial counter are not among the source files:
they are modelled from the spec ("`msgSerial` on outbound MESSAGE/PRESENCE
frames is strictly monotonic per connection", "if the connection is CONNECTED,
hand the frame directly to the pending-ack pipeline; otherwise enqueue").  The
connection state that picks between `send` and `Enqueue` is left out: a run is
any interleaving of the calls, which covers every order the state machine
allows.  Transport errors of `send` are left out.  A queued frame is a value:
that both queues hold pointers, which `send` stamps in place, is not modelled.
-/

namespace Ably

/-- Modelled from the spec: the publish side of a connection.  `msgSerial` is
the serial the next outbound frame gets, `pending` the pending-ack queue,
`queue` the outbound queue, and `completed` every value sent on a listener's
channel so far, oldest first. -/
structure Pipeline where
  msgSerial : Int
  pending : PendingEmitter
  queue : MsgQueue
  completed : List Send
  deriving DecidableEq, Repr

/-- What moves the pipeline: a publish on a connected connection, a call on the
outbound queue (an `Enqueue` while not connected, the `Flush` on connecting, the
`Fail` on failing), and an ACK or NACK from the server. -/
inductive PipelineOp (ε : Type) where
  | send (msg : ProtocolMessage) (ch : Nat)
  | queue (op : QueueOp ε)
  | ack (msg : ProtocolMessage) (errInfo : Option ErrorInfo)
  | nack (msg : ProtocolMessage) (errInfo : Option ErrorInfo)
  deriving DecidableEq, Repr

/-- The listener of the frame a call publishes: a `send`, or an `Enqueue` on the
outbound queue. -/
def PipelineOp.listener? {ε : Type} : PipelineOp ε → Option Nat
  | .send _ ch => some ch
  | .queue (.enqueue _ ch) => some ch
  | _ => none

/-- Entries with the serials `a, a + 1, …`, in order. -/
def Consecutive : Int → List MsgCh → Prop
  | _, [] => True
  | a, e :: es => e.msg.msgSerial = a ∧ Consecutive (a + 1) es

instance Consecutive.instDecidable : ∀ a l, Decidable (Consecutive a l)
  | _, [] => isTrue trivial
  | a, e :: es =>
    have := Consecutive.instDecidable (a + 1) es
    inferInstanceAs (Decidable (e.msg.msgSerial = a ∧ Consecutive (a + 1) es))

/-- The entries `l` as `send` numbers them in turn from the serial `a`. -/
def stamp : Int → List MsgCh → List MsgCh
  | _, [] => []
  | a, e :: es => ⟨{ e.msg with msgSerial := a }, e.ch⟩ :: stamp (a + 1) es

namespace Pipeline

/-- A connection that has sent nothing, its first serial `msgSerial`. -/
def init (msgSerial : Int) : Pipeline := ⟨msgSerial, ⟨[]⟩, ⟨[]⟩, []⟩

/-- Modelled from the spec: `conn.send(msg, ch)` on a connected connection
stamps the frame with the next serial and hands it to `pending.Enqueue`. -/
def send (p : Pipeline) (msg : ProtocolMessage) (ch : Nat) : Pipeline :=
  { p with msgSerial := p.msgSerial + 1,
           pending := p.pending.enqueue { msg with msgSerial := p.msgSerial } ch }

/-- What the connection does with an effect of the outbound queue: a flushed
frame goes through `send`, a failed one's error reaches its listener. -/
def effect (p : Pipeline) : QueueEffect → Pipeline
  | .send m => p.send m.msg m.ch
  | .fail m e => { p with completed := p.completed ++ [(m, some e)] }

variable {ε : Type} (newError : Nat → ε → ErrorInfo)

/-- One call; `none` when it panics. -/
def step (p : Pipeline) : PipelineOp ε → Option Pipeline
  | .send msg ch => some (p.send msg ch)
  | .queue op =>
    let (q, effects) := p.queue.step newError op
    some (effects.foldl effect { p with queue := q })
  | .ack msg errInfo => (p.pending.ack msg errInfo).map fun (q, sends) =>
    { p with pending := q, completed := p.completed ++ sends }
  | .nack msg errInfo => (p.pending.nack msg errInfo).map fun (q, sends) =>
    { p with pending := q, completed := p.completed ++ sends }

/-- A run of calls, stopped by the first panic. -/
def run : Pipeline → List (PipelineOp ε) → Option Pipeline
  | p, [] => some p
  | p, op :: ops => (step newError p op).bind fun p' => run p' ops

/-- What every reachable pipeline keeps: the pending serials are the
`len` serials just below the next one. -/
def Inv (p : Pipeline) : Prop :=
  Consecutive (p.msgSerial - p.pending.len) p.pending.queue

instance (p : Pipeline) : Decidable p.Inv :=
  inferInstanceAs (Decidable (Consecutive (p.msgSerial - p.pending.len) p.pending.queue))

/-- The listeners of the frames the calls publish, in order. -/
def published : List (PipelineOp ε) → List Nat
  | [] => []
  | op :: ops => op.listener?.toList ++ published ops

/-- The listeners of every frame the pipeline has completed, still awaits a
verdict for, or still queues. -/
def listeners (p : Pipeline) : List Nat :=
  p.completed.map (·.1.ch) ++ p.pending.queue.map (·.ch) ++ p.queue.queue.map (·.ch)

/-- The listeners of the frames in flight: those awaiting a verdict, in the
order of their serials, then those queued. -/
def inFlight (p : Pipeline) : List Nat :=
  p.pending.queue.map (·.ch) ++ p.queue.queue.map (·.ch)

/-- Modelled from the spec: the connection publishes directly only while
connected, and flushes the outbound queue on connecting, so every direct `send`
of a run finds the outbound queue empty. -/
def sendsOnEmptyQueue (p : Pipeline) : List (PipelineOp ε) → Bool
  | [] => true
  | op :: ops =>
    (match op with
      | .send _ _ => p.queue.queue.isEmpty
      | _ => true) &&
    match step newError p op with
    | some p' => sendsOnEmptyQueue p' ops
    | none => true

end Pipeline

/-! ## Consecutive serials -/

namespace Consecutive

variable {a : Int} {l : List MsgCh}

theorem le_of_mem (hc : Consecutive a l) {e : MsgCh} (he : e ∈ l) : a ≤ e.msg.msgSerial := by
  induction l generalizing a with
  | nil => cases he
  | cons x xs ih =>
    rcases List.mem_cons.mp he with rfl | he
    · exact hc.1.ge
    · have := ih hc.2 he; omega

theorem lt_of_mem (hc : Consecutive a l) {e : MsgCh} (he : e ∈ l) :
    e.msg.msgSerial < a + l.length := by
  induction l generalizing a with
  | nil => cases he
  | cons x xs ih =>
    rw [List.length_cons, Nat.cast_succ]
    rcases List.mem_cons.mp he with rfl | he
    · have := hc.1; omega
    · have := ih hc.2 he; omega

theorem ascending (hc : Consecutive a l) : PendingEmitter.Ascending ⟨l⟩ := by
  induction l generalizing a with
  | nil => exact List.Pairwise.nil
  | cons x xs ih =>
    refine List.Pairwise.cons (fun y hy => ?_) (ih hc.2)
    have := hc.2.le_of_mem hy
    have := hc.1
    omega

theorem append_singleton (hc : Consecutive a l) {e : MsgCh}
    (he : e.msg.msgSerial = a + l.length) : Consecutive a (l ++ [e]) := by
  induction l generalizing a with
  | nil => exact ⟨by simpa using he, trivial⟩
  | cons x xs ih =>
    refine ⟨hc.1, ih hc.2 ?_⟩
    rw [he, List.length_cons, Nat.cast_succ]
    ring

theorem drop (hc : Consecutive a l) (k : Nat) : Consecutive (a + k) (l.drop k) := by
  induction l generalizing a k with
  | nil => simp [Consecutive]
  | cons x xs ih =>
    cases k with
    | zero => simpa using hc
    | succ k =>
      rw [List.drop_succ_cons, Nat.cast_succ, ← add_assoc, add_right_comm]
      exact ih hc.2 k

/-- The entries from the serial `t` on are those after the first `t - a`. -/
theorem filter_le (hc : Consecutive a l) (t : Int) :
    l.filter (t ≤ ·.msg.msgSerial) = l.drop (t - a).toNat := by
  induction l generalizing a with
  | nil => simp
  | cons x xs ih =>
    rw [List.filter_cons, ih hc.2, hc.1]
    by_cases h : t ≤ a
    · rw [if_pos (decide_eq_true h), show (t - (a + 1)).toNat = 0 by omega,
        show (t - a).toNat = 0 by omega]
      rfl
    · rw [if_neg (by simpa using h), show (t - a).toNat = (t - (a + 1)).toNat + 1 by omega]
      rfl

/-- The entries below the serial `t` are the first `t - a`. -/
theorem filter_lt (hc : Consecutive a l) (t : Int) :
    l.filter (·.msg.msgSerial < t) = l.take (t - a).toNat := by
  induction l generalizing a with
  | nil => simp
  | cons x xs ih =>
    rw [List.filter_cons, ih hc.2, hc.1]
    by_cases h : a < t
    · rw [if_pos (decide_eq_true h), show (t - a).toNat = (t - (a + 1)).toNat + 1 by omega]
      rfl
    · rw [if_neg (by simpa using h), show (t - (a + 1)).toNat = 0 by omega,
        show (t - a).toNat = 0 by omega]
      rfl

/-! From a serial `s` on, counting `n` entries is counting `n` serials. -/

variable {s n : Int}

theorem filter_le_drop (hc : Consecutive a l) (hs : a ≤ s) (hn : 0 ≤ n) :
    (l.filter (s ≤ ·.msg.msgSerial)).drop n.toNat = l.filter (s + n ≤ ·.msg.msgSerial) := by
  rw [hc.filter_le s, hc.filter_le (s + n), List.drop_drop]
  congr 1
  omega

theorem filter_le_take (hc : Consecutive a l) (hs : a ≤ s) :
    (l.filter (s ≤ ·.msg.msgSerial)).take n.toNat =
      l.filter fun e => s ≤ e.msg.msgSerial ∧ e.msg.msgSerial < s + n := by
  have hd := hc.drop (s - a).toNat
  rw [show a + ((s - a).toNat : Int) = s by omega] at hd
  have htake : (l.drop (s - a).toNat).take n.toNat =
      (l.drop (s - a).toNat).filter (·.msg.msgSerial < s + n) := by
    rw [hd.filter_lt (s + n), show s + n - s = n by ring]
  rw [hc.filter_le s, htake, ← hc.filter_le s, List.filter_filter]
  congr 1
  funext e
  simp only [Bool.decide_and]
  exact Bool.and_comm _ _

theorem filter_lt_append (hc : Consecutive a l) (hs : a ≤ s) (hn : 0 ≤ n) :
    l.filter (·.msg.msgSerial < s) ++ (l.filter (s ≤ ·.msg.msgSerial)).take n.toNat =
      l.filter (·.msg.msgSerial < s + n) := by
  rw [hc.filter_lt s, hc.filter_le s, hc.filter_lt (s + n), ← List.take_add]
  congr 1
  omega

end Consecutive

/-! ## One call keeps the serials consecutive -/

namespace Pipeline

variable {ε : Type} {newError : Nat → ε → ErrorInfo} {p p' : Pipeline}

/-- On a pipeline that keeps its invariant, `send` appends the frame, stamped
with the next serial, to the pending-ack queue: `Enqueue`'s binary search lands
past every pending serial. -/
theorem send_eq (hi : p.Inv) (msg : ProtocolMessage) (ch : Nat) :
    p.send msg ch = { p with
      msgSerial := p.msgSerial + 1
      pending := ⟨p.pending.queue ++ [⟨{ msg with msgSerial := p.msgSerial }, ch⟩]⟩ } := by
  have hc : Consecutive (p.msgSerial - p.pending.len) p.pending.queue := hi
  have hlt : ∀ e ∈ p.pending.queue, e.msg.msgSerial < p.msgSerial := fun e he => by
    have := hc.lt_of_mem he
    simp only [PendingEmitter.len] at this
    omega
  have hge := @PendingEmitter.search_of_gt p.pending hc.ascending
    { msg with msgSerial := p.msgSerial } hlt
  simp only [send, PendingEmitter.enqueue, dif_neg (not_lt.mpr hge)]

theorem send_inv (hi : p.Inv) (msg : ProtocolMessage) (ch : Nat) : (p.send msg ch).Inv := by
  have hc : Consecutive (p.msgSerial - p.pending.len) p.pending.queue := hi
  rw [send_eq hi]
  unfold Inv PendingEmitter.len
  dsimp only
  rw [List.length_append, List.length_singleton, Nat.cast_add, Nat.cast_one,
    add_sub_add_right_eq_sub]
  exact hc.append_singleton (by simp only [PendingEmitter.len]; ring)

theorem effect_inv (hi : p.Inv) (e : QueueEffect) : (p.effect e).Inv := by
  cases e with
  | send m => exact send_inv hi m.msg m.ch
  | fail m e => exact hi

theorem foldl_effect_inv (hi : p.Inv) (effects : List QueueEffect) :
    (effects.foldl effect p).Inv := by
  induction effects generalizing p with
  | nil => exact hi
  | cons e es ih => exact ih (effect_inv hi e)

theorem foldl_send (hi : p.Inv) (l : List MsgCh) :
    (l.map QueueEffect.send).foldl effect p = { p with
      msgSerial := p.msgSerial + l.length
      pending := ⟨p.pending.queue ++ stamp p.msgSerial l⟩ } := by
  induction l generalizing p with
  | nil => simp [stamp]
  | cons e es ih =>
    rw [List.map_cons, List.foldl_cons, effect, ih (send_inv hi _ _), send_eq hi]
    simp only [List.length_cons, Nat.cast_succ, stamp, List.append_assoc, List.singleton_append]
    ring_nf

theorem foldl_fail (l : List MsgCh) (e : ErrorInfo) (p : Pipeline) :
    (l.map fun m => QueueEffect.fail m e).foldl effect p =
      { p with completed := p.completed ++ l.map (·, some e) } := by
  induction l generalizing p with
  | nil => simp
  | cons m ms ih => simp [effect, ih]

/-- What one call does, on a pipeline keeping its invariant: a `send` appends the
stamped frame to the pending queue, an `Enqueue` appends to the outbound queue,
a `Flush` moves the outbound queue to the pending queue, a `Fail` completes it
with the error, and an ACK or NACK completes a prefix of the pending queue. -/
theorem step_cases (hi : p.Inv) {op : PipelineOp ε} (h : step newError p op = some p') :
    (∃ msg ch, op = .send msg ch ∧ p' = { p with
      msgSerial := p.msgSerial + 1
      pending := ⟨p.pending.queue ++ [⟨{ msg with msgSerial := p.msgSerial }, ch⟩]⟩ }) ∨
    (∃ msg ch, op = .queue (.enqueue msg ch) ∧
      p' = { p with queue := ⟨p.queue.queue ++ [⟨msg, ch⟩]⟩ }) ∨
    (op = .queue .flush ∧ p' = { p with
      msgSerial := p.msgSerial + p.queue.queue.length
      pending := ⟨p.pending.queue ++ stamp p.msgSerial p.queue.queue⟩
      queue := ⟨[]⟩ }) ∨
    (∃ err, op = .queue (.fail err) ∧ p' = { p with
      queue := ⟨[]⟩
      completed := p.completed ++ p.queue.queue.map (·, some (newError 90000 err)) }) ∨
    (op.listener? = none ∧ ∃ k ≤ p.pending.queue.length, ∃ sends : List Send,
      sends.map Prod.fst = p.pending.queue.take k ∧
      p' = { p with pending := ⟨p.pending.queue.drop k⟩, completed := p.completed ++ sends }) := by
  cases op with
  | send msg ch => cases h; exact .inl ⟨msg, ch, rfl, send_eq hi msg ch⟩
  | queue op =>
    cases op with
    | enqueue msg ch =>
      simp only [step, MsgQueue.step, MsgQueue.enqueue, List.foldl_nil, Option.some.injEq] at h
      exact .inr (.inl ⟨msg, ch, rfl, h.symm⟩)
    | flush =>
      simp only [step, MsgQueue.step, MsgQueue.flush, Option.some.injEq] at h
      rw [@foldl_send { p with queue := ⟨[]⟩ } hi p.queue.queue] at h
      exact .inr (.inr (.inl ⟨rfl, h.symm⟩))
    | fail err =>
      simp only [step, MsgQueue.step, MsgQueue.fail, foldl_fail, Option.some.injEq] at h
      exact .inr (.inr (.inr (.inl ⟨err, rfl, h.symm⟩)))
  | ack msg errInfo =>
    obtain ⟨⟨⟨q⟩, sends⟩, hp, rfl⟩ := Option.map_eq_some'.mp h
    obtain ⟨k, hk, hq, hs⟩ := PendingEmitter.ack_shape hp
    dsimp only at hq
    subst hq
    exact .inr (.inr (.inr (.inr ⟨rfl, k, hk, sends, hs, rfl⟩)))
  | nack msg errInfo =>
    obtain ⟨⟨⟨q⟩, sends⟩, hp, rfl⟩ := Option.map_eq_some'.mp h
    obtain ⟨k, hk, hq, hs⟩ := PendingEmitter.nack_shape hp
    dsimp only at hq
    subst hq
    exact .inr (.inr (.inr (.inr ⟨rfl, k, hk, sends, hs, rfl⟩)))

/-- Dropping the first `k` pending entries keeps the invariant. -/
theorem Inv.drop (hi : p.Inv) {k : Nat} (hk : k ≤ p.pending.queue.length) (sends : List Send) :
    Inv { p with pending := ⟨p.pending.queue.drop k⟩, completed := p.completed ++ sends } := by
  have := Consecutive.drop hi k
  unfold Inv
  simp only [PendingEmitter.len, List.length_drop] at this ⊢
  rwa [show p.msgSerial - ((p.pending.queue.length - k : Nat) : Int) =
    p.msgSerial - p.pending.queue.length + k by omega]

theorem Inv.step (hi : p.Inv) {op : PipelineOp ε} (h : Pipeline.step newError p op = some p') :
    p'.Inv := by
  rcases step_cases hi h with ⟨msg, ch, -, rfl⟩ | ⟨-, -, -, rfl⟩ | ⟨-, rfl⟩ | ⟨-, -, rfl⟩ |
    ⟨-, k, hk, sends, -, rfl⟩
  · exact send_eq hi msg ch ▸ send_inv hi msg ch
  · exact hi
  · have := @foldl_effect_inv { p with queue := ⟨[]⟩ } hi (p.queue.queue.map .send)
    rwa [@foldl_send { p with queue := ⟨[]⟩ } hi] at this
  · exact hi
  · exact hi.drop hk sends

theorem Inv.run (hi : p.Inv) {ops : List (PipelineOp ε)} (h : run newError p ops = some p') :
    p'.Inv := by
  induction ops generalizing p with
  | nil => cases h; exact hi
  | cons op ops ih =>
    obtain ⟨p₁, h₁, h₂⟩ := Option.bind_eq_some.mp h
    exact ih (hi.step h₁) h₂

theorem init_inv (msgSerial : Int) : (init msgSerial).Inv := trivial

/-! ## Along every run -/

/-- Along every run of a connection, whatever the interleaving of publishes,
outbound-queue calls and server verdicts, the pending serials are consecutive
and end just below the serial the next frame gets. -/
theorem run_consecutive {msgSerial : Int} {ops : List (PipelineOp ε)}
    (h : run newError (init msgSerial) ops = some p) :
    Consecutive (p.msgSerial - p.pending.queue.length) p.pending.queue :=
  (init_inv msgSerial).run h

theorem run_consecutive_sample :
    ∃ p, run (fun c (e : String) => ⟨.literal c, e⟩) (init 0)
        [.send ⟨9, 0⟩ 1, .queue (.enqueue ⟨9, 0⟩ 2), .send ⟨9, 0⟩ 3, .ack ⟨0, 1⟩ none,
          .queue .flush] = some p ∧
      Consecutive (p.msgSerial - p.pending.queue.length) p.pending.queue :=
  ⟨_, rfl, @run_consecutive String (fun c e => ⟨.literal c, e⟩) _ 0
    [.send ⟨9, 0⟩ 1, .queue (.enqueue ⟨9, 0⟩ 2), .send ⟨9, 0⟩ 3, .ack ⟨0, 1⟩ none, .queue .flush]
    rfl⟩

/-- On connecting, `Flush` moves the outbound queue, in its order, to the end of
the pending-ack queue, the frames numbered from the next serial on. -/
theorem flush_appends_in_order (hi : p.Inv) :
    step newError p (.queue .flush) = some { p with
      msgSerial := p.msgSerial + p.queue.queue.length
      pending := ⟨p.pending.queue ++ stamp p.msgSerial p.queue.queue⟩
      queue := ⟨[]⟩ } := by
  simp only [step, MsgQueue.step, MsgQueue.flush]
  rw [@foldl_send { p with queue := ⟨[]⟩ } hi p.queue.queue]

theorem flush_appends_in_order_sample :
    let p : Pipeline := ⟨5, ⟨[⟨⟨4, 0⟩, 1⟩]⟩, ⟨[⟨⟨0, 0⟩, 2⟩, ⟨⟨0, 0⟩, 3⟩]⟩, []⟩
    p.Inv ∧ step (fun c (e : String) => ⟨.literal c, e⟩) p (.queue .flush) =
      some ⟨7, ⟨[⟨⟨4, 0⟩, 1⟩, ⟨⟨5, 0⟩, 2⟩, ⟨⟨6, 0⟩, 3⟩]⟩, ⟨[]⟩, []⟩ :=
  ⟨by decide, flush_appends_in_order (by decide)⟩

/-! ## No frame lost or completed twice -/

@[simp] theorem map_ch_stamp : ∀ (a : Int) (l : List MsgCh), (stamp a l).map (·.ch) = l.map (·.ch)
  | _, [] => rfl
  | a, e :: es => by simp [stamp, map_ch_stamp (a + 1) es]

/-- Completing the first `k` pending entries moves their listeners to the
completed ones. -/
theorem listeners_complete_prefix {k : Nat} {sends : List Send}
    (hs : sends.map Prod.fst = p.pending.queue.take k) :
    ({ p with pending := ⟨p.pending.queue.drop k⟩, completed := p.completed ++ sends } :
      Pipeline).listeners.Perm p.listeners := by
  have hch : sends.map (·.1.ch) = (p.pending.queue.take k).map (·.ch) := by
    rw [← hs, List.map_map]
    rfl
  have hsplit := congrArg (fun l => (l.map (·.ch)).count)
    (List.take_append_drop k p.pending.queue)
  refine List.perm_iff_count.mpr fun c => ?_
  simp only [List.map_append, List.count_append] at hsplit
  simp only [listeners, List.map_append, hch, List.count_append]
  have := congrFun hsplit c
  omega

/-- One call adds the listener of the frame it publishes, and loses none. -/
theorem listeners_step (hi : p.Inv) {op : PipelineOp ε} (h : step newError p op = some p') :
    p'.listeners.Perm (p.listeners ++ op.listener?.toList) := by
  rcases step_cases hi h with ⟨msg, ch, rfl, rfl⟩ | ⟨msg, ch, rfl, rfl⟩ | ⟨rfl, rfl⟩ |
    ⟨err, rfl, rfl⟩ | ⟨hl, k, -, sends, hs, rfl⟩
  · refine List.perm_iff_count.mpr fun c => ?_
    simp [listeners, PipelineOp.listener?, List.count_cons]
  · simp [listeners, PipelineOp.listener?]
  · refine List.perm_iff_count.mpr fun c => ?_
    simp [listeners, PipelineOp.listener?]
  · refine List.perm_iff_count.mpr fun c => ?_
    simp [listeners, PipelineOp.listener?, Function.comp_def]
    omega
  · simpa [hl] using listeners_complete_prefix hs

theorem Inv.listeners_run (hi : p.Inv) {ops : List (PipelineOp ε)}
    (h : Pipeline.run newError p ops = some p') :
    p'.listeners.Perm (p.listeners ++ published ops) := by
  induction ops generalizing p with
  | nil => cases h; simp [published]
  | cons op ops ih =>
    obtain ⟨p₁, h₁, h₂⟩ := Option.bind_eq_some.mp h
    have := (ih (hi.step h₁) h₂).trans ((listeners_step hi h₁).append_right _)
    simpa [published, List.append_assoc] using this

/-- Along every run, no published frame is lost or completed twice: the
listeners of the completed, the pending and the queued frames are, together,
exactly the listeners of the published ones; so when every publish has its own
listener, none is completed twice. -/
theorem run_conserves_frames {msgSerial : Int} {ops : List (PipelineOp ε)}
    (h : run newError (init msgSerial) ops = some p) :
    p.listeners.Perm (published ops) ∧
      ((published ops).Nodup → (p.completed.map (·.1.ch)).Nodup) := by
  have hp : p.listeners.Perm (published ops) := by
    simpa [listeners, init] using (init_inv msgSerial).listeners_run h
  refine ⟨hp, fun hnd => ?_⟩
  have := hp.nodup_iff.mpr hnd
  exact this.sublist ((List.sublist_append_left _ _).trans (List.sublist_append_left _ _))

theorem run_conserves_frames_sample :
    ∃ p, run (fun c (e : String) => ⟨.literal c, e⟩) (init 0)
        [.send ⟨9, 0⟩ 1, .queue (.enqueue ⟨9, 0⟩ 2), .send ⟨9, 0⟩ 3, .ack ⟨0, 1⟩ none,
          .queue .flush, .nack ⟨1, 1⟩ none] = some p ∧
      p.listeners.Perm [1, 2, 3] ∧ ([1, 2, 3].Nodup → (p.completed.map (·.1.ch)).Nodup) :=
  ⟨_, rfl, @run_conserves_frames String (fun c e => ⟨.literal c, e⟩) _ 0
    [.send ⟨9, 0⟩ 1, .queue (.enqueue ⟨9, 0⟩ 2), .send ⟨9, 0⟩ 3, .ack ⟨0, 1⟩ none,
      .queue .flush, .nack ⟨1, 1⟩ none] rfl⟩

/-! ## Publish order

A direct `send` that found frames queued would overtake them.  The connection
never makes one: it sends directly only while connected, and the outbound queue
is flushed on connecting.  Along such a run the frames in flight stand in the
order they were published; since the pending serials ascend
(`run_consecutive`), serial order is publish order. -/

theorem sendsOnEmptyQueue_cons {op : PipelineOp ε} {ops : List (PipelineOp ε)}
    (h : sendsOnEmptyQueue newError p (op :: ops) = true) (h₁ : step newError p op = some p') :
    (∀ msg ch, op = .send msg ch → p.queue.queue = []) ∧
      sendsOnEmptyQueue newError p' ops = true := by
  simp only [sendsOnEmptyQueue, h₁, Bool.and_eq_true] at h
  refine ⟨fun msg ch hop => ?_, h.2⟩
  subst hop
  simpa using h.1

/-- One call that is not a `send` past queued frames keeps the frames in flight
in publish order, adding the frame it publishes at the end. -/
theorem inFlight_step (hi : p.Inv) {op : PipelineOp ε} (h : step newError p op = some p')
    (hq : ∀ msg ch, op = .send msg ch → p.queue.queue = []) :
    p'.inFlight.Sublist (p.inFlight ++ op.listener?.toList) := by
  rcases step_cases hi h with ⟨msg, ch, rfl, rfl⟩ | ⟨msg, ch, rfl, rfl⟩ | ⟨rfl, rfl⟩ |
    ⟨err, rfl, rfl⟩ | ⟨hl, k, -, sends, -, rfl⟩
  · simp [inFlight, PipelineOp.listener?, hq msg ch rfl]
  · simp [inFlight, PipelineOp.listener?]
  · simp [inFlight, PipelineOp.listener?]
  · simp [inFlight, PipelineOp.listener?]
  · simpa [inFlight, hl] using
      ((List.drop_sublist k p.pending.queue).map (·.ch)).append_right (p.queue.queue.map (·.ch))

theorem Inv.inFlight_run (hi : p.Inv) {ops : List (PipelineOp ε)}
    (hd : sendsOnEmptyQueue newError p ops = true) (h : Pipeline.run newError p ops = some p') :
    p'.inFlight.Sublist (p.inFlight ++ published ops) := by
  induction ops generalizing p with
  | nil => cases h; simp [published]
  | cons op ops ih =>
    obtain ⟨p₁, h₁, h₂⟩ := Option.bind_eq_some.mp h
    obtain ⟨hq, hd₁⟩ := sendsOnEmptyQueue_cons hd h₁
    simpa [published, List.append_assoc] using
      (ih (hi.step h₁) hd₁ h₂).trans ((inFlight_step hi h₁ hq).append_right _)

/-- Along every run in which each direct `send` finds the outbound queue empty,
the frames awaiting a verdict, in serial order, and then the queued ones, are
published in that order. -/
theorem run_keeps_publish_order {msgSerial : Int} {ops : List (PipelineOp ε)}
    (hd : sendsOnEmptyQueue newError (init msgSerial) ops = true)
    (h : run newError (init msgSerial) ops = some p) :
    (p.pending.queue.map (·.ch) ++ p.queue.queue.map (·.ch)).Sublist (published ops) := by
  simpa [inFlight, init] using (init_inv msgSerial).inFlight_run hd h

theorem run_keeps_publish_order_sample :
    ∃ p, sendsOnEmptyQueue (fun c (e : String) => ⟨.literal c, e⟩) (init 0)
        [.queue (.enqueue ⟨9, 0⟩ 1), .queue (.enqueue ⟨9, 0⟩ 2), .queue .flush, .send ⟨9, 0⟩ 3,
          .ack ⟨0, 1⟩ none] = true ∧
      run (fun c (e : String) => ⟨.literal c, e⟩) (init 0)
        [.queue (.enqueue ⟨9, 0⟩ 1), .queue (.enqueue ⟨9, 0⟩ 2), .queue .flush, .send ⟨9, 0⟩ 3,
          .ack ⟨0, 1⟩ none] = some p ∧
      (p.pending.queue.map (·.ch) ++ p.queue.queue.map (·.ch)).Sublist [1, 2, 3] :=
  ⟨_, rfl, rfl, @run_keeps_publish_order String (fun c e => ⟨.literal c, e⟩) _ 0
    [.queue (.enqueue ⟨9, 0⟩ 1), .queue (.enqueue ⟨9, 0⟩ 2), .queue .flush, .send ⟨9, 0⟩ 3,
      .ack ⟨0, 1⟩ none] rfl rfl⟩

/-- Without the discipline a direct `send` overtakes the queued frame. -/
example : (run (fun c (e : String) => ⟨.literal c, e⟩) (init 0)
    [.queue (.enqueue ⟨9, 0⟩ 1), .send ⟨9, 0⟩ 2]).map inFlight = some [2, 1] := by decide

/-! ## ACK and NACK read as serial ranges -/

variable {msgSerial : Int} {ops : List (PipelineOp ε)}

/-- In every state a connection reaches, an ACK `(s, n)` naming a pending serial
does what the spec words by serials: it NACKs the entries below `s` (with its
error, or `errSerialSkipped`), ACKs those in `[s, s + n)` and keeps those from
`s + n` on. -/
theorem ack_serial_range (h : run newError (init msgSerial) ops = some p) {s n : Int}
    (hs : s ∈ p.pending.serials) (hn : 0 ≤ n) (hov : p.pending.len + n < 2 ^ 63)
    (errInfo : Option ErrorInfo) :
    p.pending.ack ⟨s, n⟩ errInfo = some (⟨p.pending.queue.filter (s + n ≤ ·.msg.msgSerial)⟩,
      (p.pending.queue.filter (·.msg.msgSerial < s)).map
          (·, some (errInfo.getD errSerialSkipped)) ++
        (p.pending.queue.filter fun e => s ≤ e.msg.msgSerial ∧ e.msg.msgSerial < s + n).map
          (·, none)) := by
  have hc : Consecutive (p.msgSerial - p.pending.len) p.pending.queue := (init_inv msgSerial).run h
  have hq : p.pending.Ascending := hc.ascending
  obtain ⟨e, he, rfl⟩ := List.mem_map.mp hs
  obtain ⟨htake, hdrop⟩ := PendingEmitter.search_split hq ⟨e.msg.msgSerial, n⟩
  obtain ⟨hlt, -⟩ := PendingEmitter.search_at_mem hq ⟨e.msg.msgSerial, n⟩ hs
  rw [PendingEmitter.ack_of_window (by simp only [PendingEmitter.len]; omega) hlt.le
    (PendingEmitter.ackBounds_of_mem hq hs hn hov) hn, htake, hdrop,
    hc.filter_le_drop (hc.le_of_mem he) hn, hc.filter_le_take (hc.le_of_mem he)]

theorem ack_serial_range_sample :
    let p : Pipeline := ⟨3, ⟨[⟨⟨0, 0⟩, 1⟩, ⟨⟨1, 0⟩, 2⟩, ⟨⟨2, 0⟩, 3⟩]⟩, ⟨[]⟩, []⟩
    run (fun c (e : String) => ⟨.literal c, e⟩) (init 0)
        [.send ⟨9, 0⟩ 1, .send ⟨9, 0⟩ 2, .send ⟨9, 0⟩ 3] = some p ∧
      (1 : Int) ∈ p.pending.serials ∧ (0 : Int) ≤ 1 ∧ (p.pending.len : Int) + 1 < 2 ^ 63 ∧
      p.pending.ack ⟨1, 1⟩ none =
        some (⟨[⟨⟨2, 0⟩, 3⟩]⟩, [(⟨⟨0, 0⟩, 1⟩, some errSerialSkipped), (⟨⟨1, 0⟩, 2⟩, none)]) :=
  ⟨rfl, by decide, by decide, by decide,
    (@ack_serial_range _ (fun c (e : String) => ⟨.literal c, e⟩) _ 0
      [.send ⟨9, 0⟩ 1, .send ⟨9, 0⟩ 2, .send ⟨9, 0⟩ 3] rfl 1 1 (by decide) (by decide) (by decide)
      none).trans (by decide)⟩

/-- In every state a connection reaches, a NACK `(s, n)` naming a pending serial,
or a serial past every pending one, sends its error to exactly the entries below
`s + n` and keeps the others. -/
theorem nack_serial_range (h : run newError (init msgSerial) ops = some p) {s n : Int}
    (hs : s ∈ p.pending.serials ∨ ∀ x ∈ p.pending.queue, x.msg.msgSerial < s) (hn : 0 ≤ n)
    (hov : p.pending.len + n < 2 ^ 63) (errInfo : ErrorInfo) :
    p.pending.nack ⟨s, n⟩ (some errInfo) =
      some (⟨p.pending.queue.filter (s + n ≤ ·.msg.msgSerial)⟩,
        (p.pending.queue.filter (·.msg.msgSerial < s + n)).map (·, some errInfo)) := by
  have hc : Consecutive (p.msgSerial - p.pending.len) p.pending.queue := (init_inv msgSerial).run h
  have hq : p.pending.Ascending := hc.ascending
  rcases hs with hs | hs
  · obtain ⟨e, he, rfl⟩ := List.mem_map.mp hs
    rw [PendingEmitter.nack_of_mem hq hs hn hov, hc.filter_le_drop (hc.le_of_mem he) hn,
      hc.filter_lt_append (hc.le_of_mem he) hn]
  · have hlow : p.pending.queue.filter (·.msg.msgSerial < s + n) = p.pending.queue :=
      List.filter_eq_self.mpr fun e he => by
        have := hs e he; simp only [decide_eq_true_eq]; omega
    have hhigh : p.pending.queue.filter (s + n ≤ ·.msg.msgSerial) = [] :=
      List.filter_eq_nil_iff.mpr fun e he => by
        have := hs e he; simp only [decide_eq_true_eq]; omega
    rw [PendingEmitter.nack_of_gt hq hs hn, hlow, hhigh]

theorem nack_serial_range_sample :
    let p : Pipeline := ⟨3, ⟨[⟨⟨0, 0⟩, 1⟩, ⟨⟨1, 0⟩, 2⟩, ⟨⟨2, 0⟩, 3⟩]⟩, ⟨[]⟩, []⟩
    run (fun c (e : String) => ⟨.literal c, e⟩) (init 0)
        [.send ⟨9, 0⟩ 1, .send ⟨9, 0⟩ 2, .send ⟨9, 0⟩ 3] = some p ∧
      ((1 : Int) ∈ p.pending.serials ∨ ∀ x ∈ p.pending.queue, x.msg.msgSerial < 1) ∧
      (0 : Int) ≤ 1 ∧ (p.pending.len : Int) + 1 < 2 ^ 63 ∧
      p.pending.nack ⟨1, 1⟩ (some errSerialSkipped) =
        some (⟨[⟨⟨2, 0⟩, 3⟩]⟩, [(⟨⟨0, 0⟩, 1⟩, some errSerialSkipped),
          (⟨⟨1, 0⟩, 2⟩, some errSerialSkipped)]) :=
  ⟨rfl, Or.inl (by decide), by decide, by decide,
    (@nack_serial_range _ (fun c (e : String) => ⟨.literal c, e⟩) _ 0
      [.send ⟨9, 0⟩ 1, .send ⟨9, 0⟩ 2, .send ⟨9, 0⟩ 3] rfl 1 1 (Or.inl (by decide)) (by decide)
      (by decide) errSerialSkipped).trans (by decide)⟩

end Pipeline

end Ably
