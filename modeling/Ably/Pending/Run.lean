import Ably.Pending.Emitter

/-!
# Runs of the pending-ack queue

The connection calls `Enqueue` when it sends a frame and `Ack` or `Nack` when the
server answers, in any order the network produces.  Over every finite run of
such calls the queue stays ascending, and the queue together with everything
already sent on a channel is exactly what was enqueued: no entry is lost,
duplicated, or completed twice.

A run is the list of calls; a panicking call ends it (`step` returns `none`),
since a panic does not return to the connection's loop.  The run lemma follows
the shape of the two spec lemmas of `Emitter.lean`: `Enqueue` inserts a fresh
entry in order, `Ack` and `Nack` move a prefix of the queue to the sent log.  No
branch of either is split here.
-/

namespace Ably.PendingEmitter

/-- A call on the pending queue. -/
inductive Op where
  | enqueue (msg : ProtocolMessage) (ch : Nat)
  | ack (msg : ProtocolMessage) (errInfo : Option ErrorInfo)
  | nack (msg : ProtocolMessage) (errInfo : Option ErrorInfo)
  deriving DecidableEq, Repr

/-- The entry an `Enqueue` call offers. -/
def Op.entry? : Op → Option MsgCh
  | .enqueue msg ch => some ⟨msg, ch⟩
  | _ => none

/-- The queue and every send made on a channel so far, oldest first. -/
structure Run where
  emitter : PendingEmitter
  sent : List Send
  deriving DecidableEq, Repr

/-- The run before any call. -/
def Run.init : Run := ⟨⟨[]⟩, []⟩

/-- One call; `none` when it panics. -/
def step (r : Run) : Op → Option Run
  | .enqueue msg ch => some ⟨r.emitter.enqueue msg ch, r.sent⟩
  | .ack msg errInfo => (r.emitter.ack msg errInfo).map fun p => ⟨p.1, r.sent ++ p.2⟩
  | .nack msg errInfo => (r.emitter.nack msg errInfo).map fun p => ⟨p.1, r.sent ++ p.2⟩

/-- A run of calls, stopped by the first panic. -/
def run : Run → List Op → Option Run
  | r, [] => some r
  | r, op :: ops => (step r op).bind fun r' => run r' ops

/-- The entries the calls enqueue, in order. -/
def enqueued (ops : List Op) : List MsgCh := ops.filterMap Op.entry?

/-- What a run keeps: the queue ascends, and the sent entries and the queue are
together a rearrangement of the enqueued ones. -/
def Invariant (enq : List MsgCh) (r : Run) : Prop :=
  r.emitter.Ascending ∧ (r.sent.map Prod.fst ++ r.emitter.queue).Perm enq

section Step

variable {enq : List MsgCh} {r r' : Run}

/-- Moving a prefix of the queue to the sent log keeps the invariant. -/
theorem Invariant.complete_prefix (hi : Invariant enq r) {k : Nat} {sends : List Send}
    (hs : sends.map Prod.fst = r.emitter.queue.take k) :
    Invariant enq ⟨⟨r.emitter.queue.drop k⟩, r.sent ++ sends⟩ := by
  refine ⟨hi.1.sublist (List.drop_sublist _ _), ?_⟩
  simpa [hs] using hi.2

/-- One call that returns keeps the invariant, the enqueued entries growing by
the entry it offers, provided that entry's serial is fresh. -/
theorem Invariant.step (hi : Invariant enq r) {op : Op} (h : step r op = some r')
    (hfresh : ∀ e ∈ op.entry?, e.msg.msgSerial ∉ enq.map (·.msg.msgSerial)) :
    Invariant (enq ++ op.entry?.toList) r' := by
  cases op with
  | enqueue msg ch =>
    cases h
    have hnot : msg.msgSerial ∉ r.emitter.serials := fun hm => by
      obtain ⟨x, hx, hxs⟩ := List.mem_map.mp hm
      exact hfresh ⟨msg, ch⟩ rfl
        (List.mem_map.mpr ⟨x, hi.2.subset (List.mem_append_right _ hx), hxs⟩)
    refine ⟨enqueue_ascending hi.1 hnot ch, ?_⟩
    have := ((enqueue_perm hi.1 hnot ch).append_left (r.sent.map Prod.fst)).trans
      (List.perm_middle.trans ((hi.2.cons _).trans (List.perm_append_singleton _ _).symm))
    simpa [Op.entry?] using this
  | ack msg errInfo =>
    obtain ⟨⟨⟨q'⟩, sends⟩, hp, rfl⟩ := Option.map_eq_some'.mp h
    obtain ⟨k, -, hq, hs⟩ := ack_shape hp
    dsimp only at hq hs
    subst hq
    simpa [Op.entry?] using hi.complete_prefix hs
  | nack msg errInfo =>
    obtain ⟨⟨⟨q'⟩, sends⟩, hp, rfl⟩ := Option.map_eq_some'.mp h
    obtain ⟨k, -, hq, hs⟩ := nack_shape hp
    dsimp only at hq hs
    subst hq
    simpa [Op.entry?] using hi.complete_prefix hs

end Step

/-- The run lemma: from any state satisfying the invariant, a run whose enqueued
serials are fresh and pairwise distinct ends in a state satisfying it. -/
theorem Invariant.run {enq : List MsgCh} {r r' : Run} (hi : Invariant enq r) :
    ∀ {ops : List Op}, ((enq ++ enqueued ops).map (·.msg.msgSerial)).Nodup →
      run r ops = some r' → Invariant (enq ++ enqueued ops) r'
  | [], _, h => by cases h; simpa [enqueued] using hi
  | op :: ops, hnd, h => by
    obtain ⟨r₁, h₁, h₂⟩ := Option.bind_eq_some.mp h
    have hcons : enqueued (op :: ops) = op.entry?.toList ++ enqueued ops := by
      cases op <;> rfl
    rw [hcons, ← List.append_assoc] at hnd ⊢
    refine Invariant.run (hi.step h₁ fun e he hm => ?_) hnd h₂
    rw [List.map_append, List.map_append] at hnd
    have hnd' := List.nodup_append.mp (List.nodup_append.mp hnd).1
    exact hnd'.2.2 hm (List.mem_map_of_mem _ (by simpa using he))

/-- Every call of a run from the empty queue that returns leaves the queue
strictly ascending by serial, and the entries sent a value together with the
queue are the enqueued entries, each exactly once. -/
theorem run_keeps_queue_exact (ops : List Op)
    (hserials : ((enqueued ops).map (·.msg.msgSerial)).Nodup) {r : Run}
    (h : run Run.init ops = some r) :
    r.emitter.Ascending ∧ (r.sent.map Prod.fst ++ r.emitter.queue).Perm (enqueued ops) ∧
      (r.sent.map Prod.fst ++ r.emitter.queue).Nodup := by
  have hinit : Invariant [] Run.init := ⟨List.Pairwise.nil, List.Perm.refl _⟩
  obtain ⟨hasc, hperm⟩ := hinit.run (by simpa using hserials) h
  simp only [List.nil_append] at hperm
  exact ⟨hasc, hperm, hperm.nodup_iff.mpr (List.Nodup.of_map _ hserials)⟩

theorem run_keeps_queue_exact_sample :
    run Run.init [.enqueue ⟨1, 0⟩ 1, .enqueue ⟨0, 0⟩ 0, .enqueue ⟨2, 0⟩ 2, .ack ⟨0, 2⟩ none] =
        some ⟨⟨[⟨⟨2, 0⟩, 2⟩]⟩, [(⟨⟨0, 0⟩, 0⟩, none), (⟨⟨1, 0⟩, 1⟩, none)]⟩ ∧
      PendingEmitter.Ascending ⟨[⟨⟨2, 0⟩, 2⟩]⟩ ∧
      ([⟨⟨0, 0⟩, 0⟩, ⟨⟨1, 0⟩, 1⟩, ⟨⟨2, 0⟩, 2⟩] : List MsgCh).Perm
        (enqueued [.enqueue ⟨1, 0⟩ 1, .enqueue ⟨0, 0⟩ 0, .enqueue ⟨2, 0⟩ 2, .ack ⟨0, 2⟩ none]) ∧
      ([⟨⟨0, 0⟩, 0⟩, ⟨⟨1, 0⟩, 1⟩, ⟨⟨2, 0⟩, 2⟩] : List MsgCh).Nodup :=
  ⟨by decide, @run_keeps_queue_exact
    [.enqueue ⟨1, 0⟩ 1, .enqueue ⟨0, 0⟩ 0, .enqueue ⟨2, 0⟩ 2, .ack ⟨0, 2⟩ none] (by decide)
    ⟨⟨[⟨⟨2, 0⟩, 2⟩]⟩, [(⟨⟨0, 0⟩, 0⟩, none), (⟨⟨1, 0⟩, 1⟩, none)]⟩ (by decide)⟩

end Ably.PendingEmitter
