import Ably.Pending.Emitter

/-!
# The outbound queue

`msgQueue` (`state.go`) holds the frames published while the connection cannot
take them.  `Enqueue` appends a frame with its listener, `Flush` hands every
queued frame to `conn.send` in order and empties the queue, and `Fail` sends
each queued listener `newError(90000, err)` and empties the queue.  Each
operation holds the queue's mutex for its whole body, so concurrent callers
make a sequence of whole operations, and a run is a list of them.

The queue neither loses nor repeats a frame: along every run, the frames handed
to `conn.send`, the frames failed and the frames still queued are, in this
order, the frames enqueued, each once and in the order of enqueueing
(`MsgQueue.run_drains_in_order`).

## Honest boundary

`conn.send` and `newError` are not among the source files: a flushed frame is
recorded as handed to `conn.send` with its listener, and `newError` is a
parameter.  The line `Fail` logs changes nothing the queue or a listener sees.
A listener's channel is taken to have room for the error, as the channel of
`newErrResult`, which holds one value and is given one frame, does.
-/

namespace Ably

/-- `msgQueue`, its queue of `msgch` pairs, which have the fields of `msgCh`. -/
structure MsgQueue where
  queue : List MsgCh
  deriving DecidableEq, Repr

/-- What a queue operation does outside the queue. -/
inductive QueueEffect where
  /-- `q.conn.send(msgch.msg, msgch.ch)`. -/
  | send (m : MsgCh)
  /-- `msgch.ch <- e`, for the entry `m`. -/
  | fail (m : MsgCh) (e : ErrorInfo)
  deriving DecidableEq, Repr

/-- The entry an effect is about. -/
def QueueEffect.entry : QueueEffect → MsgCh
  | .send m => m
  | .fail m _ => m

/-- The operations of `msgQueue`, with `ε` the errors `Fail` is given. -/
inductive QueueOp (ε : Type) where
  | enqueue (msg : ProtocolMessage) (listen : Nat)
  | flush
  | fail (err : ε)
  deriving DecidableEq, Repr

namespace MsgQueue

variable {ε : Type} (newError : Nat → ε → ErrorInfo)

/-- `q.Enqueue(msg, listen)`. -/
def enqueue (q : MsgQueue) (msg : ProtocolMessage) (listen : Nat) : MsgQueue :=
  ⟨q.queue ++ [⟨msg, listen⟩]⟩

/-- `q.Flush()`. -/
def flush (q : MsgQueue) : MsgQueue × List QueueEffect :=
  (⟨[]⟩, q.queue.map .send)

/-- `q.Fail(err)`. -/
def fail (q : MsgQueue) (err : ε) : MsgQueue × List QueueEffect :=
  (⟨[]⟩, q.queue.map fun m => .fail m (newError 90000 err))

/-- One operation: the queue after it and what it did outside. -/
def step (q : MsgQueue) : QueueOp ε → MsgQueue × List QueueEffect
  | .enqueue msg listen => (q.enqueue msg listen, [])
  | .flush => q.flush
  | .fail err => q.fail newError err

/-- A run of operations: the queue after it and everything it did outside. -/
def run : List (QueueOp ε) → MsgQueue → MsgQueue × List QueueEffect
  | [], q => (q, [])
  | op :: ops, q =>
    let (q', out) := q.step newError op
    let (q'', out') := run ops q'
    (q'', out ++ out')

/-- The entries the operations enqueue, in order. -/
def enqueued : List (QueueOp ε) → List MsgCh
  | [] => []
  | .enqueue msg listen :: ops => ⟨msg, listen⟩ :: enqueued ops
  | _ :: ops => enqueued ops

/-- One operation drains a prefix of the queue it was given followed by what it
enqueues: the effects' entries, then the queue, are the old queue and the new
entry. -/
theorem step_drains (q : MsgQueue) (op : QueueOp ε) :
    (q.step newError op).2.map QueueEffect.entry ++ (q.step newError op).1.queue =
      q.queue ++ enqueued [op] := by
  cases op with
  | enqueue msg listen => simp [step, enqueue, enqueued]
  | flush => simp [step, flush, enqueued, List.map_map, Function.comp_def, QueueEffect.entry]
  | fail err => simp [step, fail, enqueued, List.map_map, Function.comp_def, QueueEffect.entry]

theorem enqueued_cons (op : QueueOp ε) (ops : List (QueueOp ε)) :
    enqueued (op :: ops) = enqueued [op] ++ enqueued ops := by
  cases op <;> rfl

/-- Along every run, the frames handed to `conn.send` or failed, then those
still queued, are the frames queued at the start and those enqueued, each
once and in order. -/
theorem run_drains_in_order (ops : List (QueueOp ε)) (q : MsgQueue) :
    (run newError ops q).2.map QueueEffect.entry ++ (run newError ops q).1.queue =
      q.queue ++ enqueued ops := by
  induction ops generalizing q with
  | nil => simp [run, enqueued]
  | cons op ops ih =>
    have h := step_drains newError q op
    simp only [run, List.map_append, List.append_assoc]
    rw [ih, ← List.append_assoc, h, enqueued_cons op ops, List.append_assoc]

end MsgQueue

end Ably
