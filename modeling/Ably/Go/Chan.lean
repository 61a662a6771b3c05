/-!
# Go channels and a two-way `select`

A buffered channel is its buffer, oldest value first, and whether it is closed.
`recv?`, `send?` and `close?` are `<-c`, `c <- v` and `close(c)` at a point
where they can proceed; `none` stands for a receive or a send that would block
and for the panics of sending on, or closing, a closed channel.  In a run of
interleaved events (`Ably/Result.lean`) an operation that cannot proceed is
simply not the next event.
-/

namespace Ably.Go

/-- A buffered channel. -/
structure Chan (α : Type) where
  buf : List α
  closed : Bool
  deriving DecidableEq, Repr

namespace Chan

variable {α : Type}

/-- `make(chan α, n)`. -/
def empty : Chan α := ⟨[], false⟩

/-- `v, ok := <-c`: the oldest buffered value, or on a closed, empty channel the
zero value (`none`); it blocks on an open, empty channel. -/
def recv? (c : Chan α) : Option (Option α × Chan α) :=
  match c.buf with
  | v :: rest => some (some v, ⟨rest, c.closed⟩)
  | [] => if c.closed then some (none, c) else none

/-- `c <- v` on a channel of capacity `cap`: it blocks on a full buffer and
panics on a closed channel. -/
def send? (cap : Nat) (c : Chan α) (v : α) : Option (Chan α) :=
  if !c.closed && c.buf.length < cap then some ⟨c.buf ++ [v], false⟩ else none

/-- `close(c)`: it panics on a closed channel. -/
def close? (c : Chan α) : Option (Chan α) :=
  if c.closed then none else some ⟨c.buf, true⟩

@[simp] theorem recv?_empty : (empty : Chan α).recv? = none := rfl

@[simp] theorem recv?_cons (v : α) (rest : List α) (closed : Bool) :
    (⟨v :: rest, closed⟩ : Chan α).recv? = some (some v, ⟨rest, closed⟩) := rfl

/-- A receive can proceed exactly on a non-empty or closed channel. -/
theorem recv?_isSome (c : Chan α) : c.recv?.isSome = (!c.buf.isEmpty || c.closed) := by
  rcases c with ⟨_ | _, _ | _⟩ <;> rfl

end Chan

/-- A `select` with a case on `<-ctx.Done()` and a case receiving from a channel:
`some true` when it takes the receive, `some false` when it takes `ctx.Done()`,
`none` when neither is ready and it blocks.  When both are ready the runtime
chooses; `pickRecv` is that choice. -/
def select (done recvReady pickRecv : Bool) : Option Bool :=
  if recvReady && (pickRecv || !done) then some true
  else if done then some false
  else none

theorem select_recv {done recvReady pickRecv : Bool}
    (h : select done recvReady pickRecv = some true) : recvReady = true := by
  revert h
  cases done <;> cases recvReady <;> cases pickRecv <;> decide

theorem select_done {done recvReady pickRecv : Bool}
    (h : select done recvReady pickRecv = some false) : done = true := by
  revert h
  cases done <;> cases recvReady <;> cases pickRecv <;> decide

end Ably.Go
