import Mathlib.Tactic.SplitIfs
import Ably.Go.Chan
import Ably.Proto

/-!
# Results and `Wait`

`result` (`state.go`) is what an asynchronous operation hands back: `Wait(ctx)`
blocks until the operation completes and returns its error, and the interface
documents that `Wait` may be called more than once.  Three results implement it:

* `goWaiter(f)` runs `f` in a goroutine that sends `f`'s error on a channel of
  capacity one and closes it; `Wait` selects between `ctx.Done()` and a receive;
* `newErrResult` hands the operation the sending end of a channel; the first
  `Wait` takes the channel away (`res.listen = nil`), stores what its `select`
  gives (the value, or `ctx.Err()`), and every `Wait` returns what is stored;
* `listenResult` registers a `Once` listener for the expected state and for each
  failed state, each passing the change into a buffered channel; `Wait` selects
  between `ctx.Done()` and a change, derives the error from the change, and on
  return removes all the listeners.

Each is a state machine of the channel and the operation's side (`Waiter`), and
a run interleaves the operation's steps with `Wait` calls, each taken at the
point where its `select` resolves.  The repeated `Wait` the interface allows
goes wrong in all three (`wait_again_diverges`): `goWaiter`'s second `Wait`
receives the zero value of the closed channel, `nil`; `errResult` keeps a
cancelled `Wait`'s `ctx.Err()` for good; and after any `Wait` of `listenResult`
the listeners are gone, so a later `Wait` can block for ever.

`listenResult` makes its channel as large as its listeners are many, "not to
block the sender if the Result is never waited on".  It does not: every change
in the channel took a listener away, so after any run, waited on or not, every
further emission goes through (`listenResult_never_blocks_emitter`).

## Honest boundary

`Once` and the handler `changes.Receive` are not among the source files.  They
are modelled from the spec: a `Once` listener fires at the first emission of
its event and passes the change into the channel at once.  A nil `*errResult`
(`nopResult`) is left out.
-/

namespace Ably

open Go

/-- A Go `error` as the results hand it on: a done context's `ctx.Err()`, or an
`ErrorInfo`. -/
inductive Err where
  | ctxErr
  | info (e : ErrorInfo)
  deriving DecidableEq, Repr

/-- One call of `Wait`, at the point where its `select` resolves: whether the
context is done by then, and which case the runtime picks when both are ready. -/
structure WaitCall where
  done : Bool
  pickRecv : Bool
  deriving DecidableEq, Repr

/-- A `Wait` whose context is never done. -/
def WaitCall.live : WaitCall := ⟨false, true⟩

/-- A `Wait` whose context is done before anything else is ready. -/
def WaitCall.cancelled : WaitCall := ⟨true, false⟩

/-- An event of a run: a step of the operation behind the result, or a `Wait`. -/
inductive Event (ε : Type) where
  | op (e : ε)
  | wait (c : WaitCall)
  deriving DecidableEq, Repr

/-- A result with the operation behind it: what a step of the operation does,
and what a `Wait` returns; `none` when the step or the `Wait` cannot proceed. -/
structure Waiter (σ ε : Type) where
  op : σ → ε → Option σ
  wait : σ → WaitCall → Option (Option Err × σ)

variable {σ ε : Type}

/-- A run of events: each `Wait` with what it returned, in order, and the final
state; `none` when some event cannot happen where it stands. -/
def Waiter.run (w : Waiter σ ε) : σ → List (Event ε) → Option (List (WaitCall × Option Err) × σ)
  | s, [] => some ([], s)
  | s, .op e :: evs => (w.op s e).bind fun s' => w.run s' evs
  | s, .wait c :: evs =>
    (w.wait s c).bind fun p => (w.run p.2 evs).map fun q => ((c, p.1) :: q.1, q.2)

/-! ## `goWaiter` -/

/-- How far the goroutine of `goWaiter` has got. -/
inductive GoStage where
  | running
  | sent
  | closed
  deriving DecidableEq, Repr

/-- The goroutine's steps: `err <- f()`, then the deferred `close(err)`. -/
inductive GoOp where
  | send (v : Option Err)
  | close
  deriving DecidableEq, Repr

/-- The goroutine's progress and the channel `err`. -/
structure GoWaiterState where
  stage : GoStage
  ch : Chan (Option Err)
  deriving DecidableEq, Repr

/-- The receiving case of a `select`: the value, or `nil` from a closed channel. -/
def recvErr (c : Chan (Option Err)) : Option (Option Err × Chan (Option Err)) :=
  c.recv?.map fun p => (p.1.getD none, p.2)

/-- `goWaiter(f)`. -/
def goWaiter : Waiter GoWaiterState GoOp where
  op s
    | .send v => if s.stage = .running then (s.ch.send? 1 v).map (⟨.sent, ·⟩) else none
    | .close => if s.stage = .sent then s.ch.close?.map (⟨.closed, ·⟩) else none
  wait s c :=
    match select c.done s.ch.recv?.isSome c.pickRecv with
    | some true => (recvErr s.ch).map fun p => (p.1, { s with ch := p.2 })
    | some false => some (some .ctxErr, s)
    | none => none

/-- `goWaiter` as it returns: the goroutine started, the channel empty. -/
def GoWaiterState.init : GoWaiterState := ⟨.running, Chan.empty⟩

/-! ## `errResult` -/

/-- The operation's one step: `listen <- err`. -/
inductive ErrOp where
  | send (v : Option Err)
  deriving DecidableEq, Repr

/-- An `errResult` and its channel: the stored `err`, whether `listen` is still
set, and the channel. -/
structure ErrResultState where
  err : Option Err
  listen : Bool
  ch : Chan (Option Err)
  deriving DecidableEq, Repr

/-- `errResult.Wait`, with the owner's sends. -/
def errResult : Waiter ErrResultState ErrOp where
  op s
    | .send v => (s.ch.send? 1 v).map ({ s with ch := · })
  wait s c :=
    if s.listen then
      match select c.done s.ch.recv?.isSome c.pickRecv with
      | some true => (recvErr s.ch).map fun p => (p.1, ⟨p.1, false, p.2⟩)
      | some false => some (some .ctxErr, ⟨some .ctxErr, false, s.ch⟩)
      | none => none
    else some (s.err, s)

/-- `newErrResult()`. -/
def ErrResultState.init : ErrResultState := ⟨none, true, Chan.empty⟩

/-! ## `listenResult` -/

/-- A state change as `listenResult` reads it: the new state and the reason. -/
structure StateChange (S : Type) where
  current : S
  reason : Option ErrorInfo
  deriving DecidableEq, Repr

/-- The emitter's step: it emits a change. -/
inductive EmitOp (S : Type) where
  | emit (change : StateChange S)
  deriving DecidableEq, Repr

/-- The `Once` listeners still registered, by their event, and the channel
`changes`. -/
structure ListenState (S : Type) where
  live : List S
  changes : Chan (StateChange S)
  deriving DecidableEq, Repr

section Listen

variable {S : Type} [DecidableEq S] [Inhabited S]

/-- The error `Wait` derives from a change: none for the expected state, the
change's reason, or an internal error naming the state. -/
def changeOutcome (code : ErrorCode) (label : String) (name : S → String) (expected : S)
    (change : StateChange S) : Option Err :=
  if change.current = expected then none
  else match change.reason with
    | some r => some (.info r)
    | none => some (.info ⟨code, "failed " ++ label ++ " change: " ++ name change.current⟩)

/-- Modelled from the spec: an emission fires every `Once` listener still
registered for its event, once; each passes the change into `changes`. -/
def emit (cap : Nat) (s : ListenState S) (change : StateChange S) : Option (ListenState S) :=
  let n := s.live.count change.current
  ((List.replicate n change).foldlM (fun (c : Chan (StateChange S)) v => c.send? cap v)
    s.changes).map
    (⟨s.live.filter (· ≠ change.current), ·⟩)

/-- `listenResult(expected, failed...)`, for the emitter family whose internal
error is `code` and whose states are printed by `name`. -/
def listenResult (code : ErrorCode) (label : String) (name : S → String) (expected : S)
    (failed : List S) : Waiter (ListenState S) (EmitOp S) where
  op s
    | .emit change => emit (1 + failed.length) s change
  wait s c :=
    match select c.done s.changes.recv?.isSome c.pickRecv with
    | some true => s.changes.recv?.map fun p =>
        (changeOutcome code label name expected (p.1.getD ⟨default, none⟩), ⟨[], p.2⟩)
    | some false => some (some .ctxErr, ⟨[], s.changes⟩)
    | none => none

/-- `listenResult` as it returns: a listener for each event, no change yet. -/
def ListenState.init (expected : S) (failed : List S) : ListenState S :=
  ⟨expected :: failed, Chan.empty⟩

/-- `ChannelEventEmitter.listenResult`. -/
def ChannelEventEmitter.listenResult (name : S → String) (expected : S) (failed : List S) :=
  Ably.listenResult .internalChannelError "channel" name expected failed

/-- `ConnectionEventEmitter.listenResult`. -/
def ConnectionEventEmitter.listenResult (name : S → String) (expected : S) (failed : List S) :=
  Ably.listenResult .internalConnectionError "connection" name expected failed

end Listen

/-! ## Runs -/

theorem Waiter.run_op (w : Waiter σ ε) (s : σ) (e : ε) (evs : List (Event ε)) :
    w.run s (.op e :: evs) = (w.op s e).bind fun s' => w.run s' evs := rfl

/-- Inverting one step of a run. -/
theorem Waiter.run_cons_eq_some {w : Waiter σ ε} {s : σ} {ev : Event ε} {evs : List (Event ε)}
    {out : List (WaitCall × Option Err)} {s' : σ} (h : w.run s (ev :: evs) = some (out, s')) :
    (∃ e s₁, ev = .op e ∧ w.op s e = some s₁ ∧ w.run s₁ evs = some (out, s')) ∨
      (∃ c r s₁ out', ev = .wait c ∧ w.wait s c = some (r, s₁) ∧ w.run s₁ evs = some (out', s') ∧
        out = (c, r) :: out') := by
  cases ev with
  | op e =>
    obtain ⟨s₁, h₁, h⟩ := Option.bind_eq_some.mp h
    exact .inl ⟨e, s₁, rfl, h₁, h⟩
  | wait c =>
    obtain ⟨⟨r, s₁⟩, h₁, h⟩ := Option.bind_eq_some.mp h
    obtain ⟨⟨out', s''⟩, h₂, h⟩ := Option.map_eq_some'.mp h
    cases h
    exact .inr ⟨c, r, s₁, out', rfl, h₁, h₂, rfl⟩

/-- An error an operation may fail with. -/
def errSample : Err := .info ⟨.literal 40000, "failed"⟩

/-! ## Repeated `Wait`s on `errResult` -/

theorem errResult_op_err {s s₁ : ErrResultState} {e : ErrOp} (h : errResult.op s e = some s₁) :
    s₁.err = s.err ∧ s₁.listen = s.listen := by
  cases e with
  | send v =>
    obtain ⟨ch, -, rfl⟩ := Option.map_eq_some'.mp h
    exact ⟨rfl, rfl⟩

/-- What a `Wait` does to an `errResult`: it returns what the result then
stores, and takes the channel away. -/
theorem errResult_wait_eq {s s₁ : ErrResultState} {c : WaitCall} {r : Option Err}
    (h : errResult.wait s c = some (r, s₁)) :
    r = s₁.err ∧ s₁.listen = false ∧ (s.listen = false → s₁.err = s.err) := by
  unfold errResult at h
  dsimp only at h
  by_cases hl : s.listen
  · rw [if_pos hl] at h
    split at h
    · obtain ⟨p, -, hp⟩ := Option.map_eq_some'.mp h
      cases hp
      exact ⟨rfl, rfl, by simp [hl]⟩
    · cases h
      exact ⟨rfl, rfl, by simp [hl]⟩
    · cases h
  · rw [if_neg hl] at h
    cases h
    simp_all

theorem errResult_run_err : ∀ {evs : List (Event ErrOp)} {s s' : ErrResultState}
    {out : List (WaitCall × Option Err)}, errResult.run s evs = some (out, s') →
      s.listen = false → s'.err = s.err ∧ s'.listen = false
  | [], s, s', out, h, hl => by cases h; exact ⟨rfl, hl⟩
  | ev :: evs, s, s', out, h, hl => by
    rcases Waiter.run_cons_eq_some h with ⟨e, s₁, -, h₁, hrun⟩ | ⟨c, r, s₁, out', -, h₁, hrun, -⟩
    · obtain ⟨he, hl'⟩ := errResult_op_err h₁
      obtain ⟨h', hl''⟩ := errResult_run_err hrun (hl' ▸ hl)
      exact ⟨h'.trans he, hl''⟩
    · obtain ⟨-, hl₁, he⟩ := errResult_wait_eq h₁
      obtain ⟨h', hl''⟩ := errResult_run_err hrun hl₁
      exact ⟨h'.trans (he hl), hl''⟩

/-- Every `Wait` on an `errResult` returns the same value: the one the first
`Wait` stored. -/
theorem errResult_waits_agree : ∀ {evs : List (Event ErrOp)} {s s' : ErrResultState}
    {out : List (WaitCall × Option Err)}, errResult.run s evs = some (out, s') →
      ∀ p ∈ out, p.2 = s'.err
  | [], s, s', out, h => by cases h; simp
  | ev :: evs, s, s', out, h => by
    rcases Waiter.run_cons_eq_some h with ⟨e, s₁, -, -, hrun⟩ | ⟨c, r, s₁, out', -, h₁, hrun, rfl⟩
    · exact errResult_waits_agree hrun
    · obtain ⟨hr, hl₁, -⟩ := errResult_wait_eq h₁
      intro p hp
      rcases List.mem_cons.mp hp with rfl | hp
      · exact hr.trans (errResult_run_err hrun hl₁).1.symm
      · exact errResult_waits_agree hrun p hp

theorem errResult_waits_agree_sample :
    [(WaitCall.cancelled, some Err.ctxErr), (WaitCall.live, some Err.ctxErr)].all
      (fun p => p.2 = some Err.ctxErr) :=
  List.all_eq_true.mpr fun p hp => decide_eq_true <|
    @errResult_waits_agree [.wait .cancelled, .op (.send (some errSample)), .wait .live]
      ErrResultState.init ⟨some .ctxErr, false, ⟨[some errSample], false⟩⟩ _ rfl p hp

/-! ## Repeated `Wait`s on `goWaiter` -/

/-- Copies of `some e` the goroutine has yet to hand out: in the buffer, or still
to be sent. -/
def GoWaiterState.pending (s : GoWaiterState) (e : Err) : Nat :=
  s.ch.buf.count (some e) + if s.stage = .running then 1 else 0

theorem goWaiter_op_pending {s s₁ : GoWaiterState} {o : GoOp} (h : goWaiter.op s o = some s₁)
    (e : Err) : s₁.pending e ≤ s.pending e := by
  cases o with
  | send v =>
    simp only [goWaiter] at h
    split_ifs at h with hs
    obtain ⟨ch, hch, rfl⟩ := Option.map_eq_some'.mp h
    simp only [Chan.send?] at hch
    split_ifs at hch
    cases hch
    have := List.count_le_length (some e) [v]
    simp only [GoWaiterState.pending, List.count_append, hs, List.length_singleton] at this ⊢
    simp only [if_true, reduceCtorEq, if_false]
    omega
  | close =>
    simp only [goWaiter] at h
    split_ifs at h with hs
    obtain ⟨ch, hch, rfl⟩ := Option.map_eq_some'.mp h
    simp only [Chan.close?] at hch
    split_ifs at hch
    cases hch
    simp [GoWaiterState.pending, hs]

theorem goWaiter_wait_pending {s s₁ : GoWaiterState} {c : WaitCall} {r : Option Err}
    (h : goWaiter.wait s c = some (r, s₁)) (e : Err) (he : e ≠ .ctxErr) :
    (if r = some e then 1 else 0) + s₁.pending e ≤ s.pending e := by
  simp only [goWaiter] at h
  split at h
  · obtain ⟨p, hp, hps⟩ := Option.map_eq_some'.mp h
    cases hps
    obtain ⟨⟨v, ch⟩, hv, rfl⟩ := Option.map_eq_some'.mp hp
    rcases s with ⟨stage, ⟨_ | ⟨b, rest⟩, closed⟩⟩
    · simp only [Chan.recv?] at hv
      split_ifs at hv
      cases hv
      simp [GoWaiterState.pending]
    · cases hv
      simp only [GoWaiterState.pending, List.count_cons, Option.getD_some]
      split
      · simp_all; omega
      · simp_all
  · cases h
    simp [GoWaiterState.pending, Ne.symm he]
  · cases h

theorem goWaiter_run_pending (e : Err) (he : e ≠ .ctxErr) : ∀ {evs : List (Event GoOp)}
    {s s' : GoWaiterState} {out : List (WaitCall × Option Err)},
    goWaiter.run s evs = some (out, s') → out.countP (·.2 = some e) + s'.pending e ≤ s.pending e
  | [], s, s', out, h => by cases h; simp
  | ev :: evs, s, s', out, h => by
    rcases Waiter.run_cons_eq_some h with ⟨o, s₁, -, h₁, hrun⟩ | ⟨c, r, s₁, out', -, h₁, hrun, rfl⟩
    · exact Nat.le_trans (goWaiter_run_pending e he hrun) (goWaiter_op_pending h₁ e)
    · have h₂ := goWaiter_run_pending e he hrun
      have h₃ := goWaiter_wait_pending h₁ e he
      simp only [List.countP_cons]
      split <;> split at h₃ <;> simp_all <;> omega

/-- `goWaiter` hands `f`'s error to one `Wait` at most: no error other than a
context's is returned twice. -/
theorem goWaiter_error_once {evs : List (Event GoOp)} {out : List (WaitCall × Option Err)}
    {s : GoWaiterState} (h : goWaiter.run GoWaiterState.init evs = some (out, s)) (e : Err)
    (he : e ≠ .ctxErr) : out.countP (·.2 = some e) ≤ 1 := by
  have := goWaiter_run_pending e he h
  simp only [GoWaiterState.pending, GoWaiterState.init, Chan.empty] at this
  simp at this
  omega

theorem goWaiter_error_once_sample :
    [(WaitCall.live, some errSample), (WaitCall.live, none)].countP (·.2 = some errSample) ≤ 1 :=
  @goWaiter_error_once [.op (.send (some errSample)), .op .close, .wait .live, .wait .live] _
    ⟨.closed, ⟨[], true⟩⟩ rfl errSample (by decide)

/-! ## Repeated `Wait`s on `listenResult` -/

section Listen

variable {S : Type} [DecidableEq S]

/-- `changes` is open, and the changes it holds and the listeners left fit in
`cap`. -/
def ListenState.Room (cap : Nat) (s : ListenState S) : Prop :=
  s.changes.closed = false ∧ s.changes.buf.length + s.live.length ≤ cap

theorem length_filter_ne_add_count (a : S) (l : List S) :
    (l.filter (· ≠ a)).length + l.count a = l.length := by
  induction l with
  | nil => rfl
  | cons x xs ih =>
    by_cases h : x = a <;> simp [List.filter_cons, List.count_cons, h] at ih ⊢ <;> omega

/-- `n` sends into an open channel with room for them all go through. -/
theorem foldlM_send?_replicate {α : Type} (cap : Nat) (v : α) :
    ∀ (n : Nat) (c : Chan α), c.closed = false → c.buf.length + n ≤ cap →
      (List.replicate n v).foldlM (fun (c : Chan α) v => c.send? cap v) c =
        some ⟨c.buf ++ List.replicate n v, false⟩
  | 0, ⟨buf, _⟩, hc, _ => by cases hc; simp
  | n + 1, c, hc, hn => by
    have hs : c.send? cap v = some ⟨c.buf ++ [v], false⟩ := by
      simp only [Chan.send?, hc, Bool.not_false, Bool.true_and, decide_eq_true_eq]
      rw [if_pos (by omega)]
    rw [List.replicate_succ, List.foldlM_cons, hs, Option.bind_eq_bind, Option.some_bind,
      foldlM_send?_replicate cap v n _ rfl (by simp; omega)]
    simp

/-- An emission into a state with room goes through and keeps the room. -/
theorem emit_room {cap : Nat} {s : ListenState S} (h : s.Room cap) (change : StateChange S) :
    ∃ s', emit cap s change = some s' ∧ s'.Room cap := by
  obtain ⟨hcl, hroom⟩ := h
  have hc := length_filter_ne_add_count change.current s.live
  have hn : s.changes.buf.length + s.live.count change.current ≤ cap := by omega
  refine ⟨_, by rw [emit, foldlM_send?_replicate cap change _ _ hcl hn]; rfl, rfl, ?_⟩
  simp only [List.length_append, List.length_replicate]
  omega

variable [Inhabited S] {code : ErrorCode} {label : String} {name : S → String} {expected : S}
  {failed : List S}

/-- A `Wait` that returns removes every listener, takes at most one change, and
leaves `changes` open or closed as it was. -/
theorem listenResult_wait_live {s s₁ : ListenState S} {c : WaitCall} {r : Option Err}
    (h : (listenResult code label name expected failed).wait s c = some (r, s₁)) :
    s₁.live = [] ∧ s₁.changes.closed = s.changes.closed ∧
      s₁.changes.buf.length ≤ s.changes.buf.length := by
  simp only [listenResult] at h
  split at h
  · obtain ⟨p, hp, hps⟩ := Option.map_eq_some'.mp h
    cases hps
    rcases s with ⟨live, ⟨_ | ⟨b, rest⟩, closed⟩⟩
    · simp only [Chan.recv?] at hp
      split_ifs at hp
      cases hp
      exact ⟨rfl, rfl, Nat.le_refl _⟩
    · cases hp
      exact ⟨rfl, rfl, Nat.le_succ _⟩
  · cases h
    exact ⟨rfl, rfl, Nat.le_refl _⟩
  · cases h

/-- A `Wait` that returns empties the listeners and takes at most one change. -/
theorem listenResult_wait_room {s s₁ : ListenState S} {c : WaitCall} {r : Option Err}
    (h : (listenResult code label name expected failed).wait s c = some (r, s₁))
    (hs : s.Room (1 + failed.length)) : s₁.Room (1 + failed.length) := by
  obtain ⟨hlive, hcl, hbuf⟩ := listenResult_wait_live h
  obtain ⟨hopen, hroom⟩ := hs
  refine ⟨hcl.trans hopen, ?_⟩
  rw [hlive, List.length_nil, Nat.add_zero]
  omega

/-- Along every run that returns, the room is kept. -/
theorem listenResult_run_room : ∀ {evs : List (Event (EmitOp S))} {s s' : ListenState S}
    {out : List (WaitCall × Option Err)},
    (listenResult code label name expected failed).run s evs = some (out, s') →
      s.Room (1 + failed.length) → s'.Room (1 + failed.length)
  | [], s, s', out, h, hs => by cases h; exact hs
  | ev :: evs, s, s', out, h, hs => by
    rcases Waiter.run_cons_eq_some h with
      ⟨⟨change⟩, s₁, -, h₁, hrun⟩ | ⟨c, r, s₁, out', -, h₁, hrun, -⟩
    · obtain ⟨s₂, he, hr⟩ := emit_room hs change
      exact listenResult_run_room hrun (Option.some_inj.mp (h₁.symm.trans he) ▸ hr)
    · exact listenResult_run_room hrun (listenResult_wait_room h₁ hs)

/-- Emissions into a state with room all go through, and return no `Wait`. -/
theorem listenResult_emits_go_through {s : ListenState S} (hs : s.Room (1 + failed.length)) :
    ∀ emits : List (EmitOp S), ∃ s',
      (listenResult code label name expected failed).run s (emits.map .op) = some ([], s')
  | [] => ⟨s, rfl⟩
  | .emit change :: emits => by
    obtain ⟨s₁, he, hr⟩ := emit_room hs change
    obtain ⟨s', hrun⟩ := listenResult_emits_go_through hr emits
    exact ⟨s', by rw [List.map_cons, Waiter.run_op]; exact (congrArg (Option.bind · _) he).trans hrun⟩

/-- A `listenResult` never blocks its emitter: after any run of emissions and
`Wait`s that returns, whether or not it was ever waited on, every further
emission goes through. -/
theorem listenResult_never_blocks_emitter {evs : List (Event (EmitOp S))}
    {out : List (WaitCall × Option Err)} {s : ListenState S}
    (h : (listenResult code label name expected failed).run (ListenState.init expected failed) evs =
      some (out, s)) (emits : List (EmitOp S)) :
    ∃ s', (listenResult code label name expected failed).run s (emits.map .op) = some ([], s') :=
  listenResult_emits_go_through
    (listenResult_run_room h ⟨rfl, by simp [ListenState.init, Chan.empty, Nat.add_comm]⟩) emits

/-- A result for state `1` failing on `2`, never waited on: both its listeners
fire and fill `changes`, and later emissions still go through. -/
theorem listenResult_never_blocks_emitter_sample :
    ∃ s, (listenResult .internalChannelError "channel" (fun n : Nat => toString n) 1 [2]).run
        (ListenState.init 1 [2]) [.op (.emit ⟨2, none⟩), .op (.emit ⟨1, none⟩)] = some ([], s) ∧
      ∃ s', (listenResult .internalChannelError "channel" (fun n : Nat => toString n) 1 [2]).run s
        ([EmitOp.emit ⟨1, none⟩, .emit ⟨3, none⟩].map .op) = some ([], s') := by
  obtain ⟨s, hs⟩ : ∃ s, (listenResult .internalChannelError "channel" (fun n : Nat => toString n)
      1 [2]).run (ListenState.init 1 [2]) [.op (.emit ⟨2, none⟩), .op (.emit ⟨1, none⟩)] =
      some ([], s) := ⟨_, rfl⟩
  exact ⟨s, hs, listenResult_never_blocks_emitter hs _⟩

end Listen


/-! ## A second `Wait` -/

/-- A second `Wait` goes wrong on all three results: `goWaiter`'s returns `nil`
after `f` failed with `e`; `errResult`'s returns the first `Wait`'s `ctx.Err()`
though the operation has since reported `e`; and `listenResult`'s blocks after
a first `Wait` gave up, though the expected state has been reached. -/
theorem wait_again_diverges (e : Err) {S : Type} [DecidableEq S] [Inhabited S]
    (code : ErrorCode) (label : String) (name : S → String) (expected : S) (failed : List S) :
    (goWaiter.run GoWaiterState.init
        [.op (.send (some e)), .op .close, .wait .live, .wait .live]).map Prod.fst =
      some [(.live, some e), (.live, none)] ∧
    (errResult.run ErrResultState.init
        [.wait .cancelled, .op (.send (some e)), .wait .live]).map Prod.fst =
      some [(.cancelled, some .ctxErr), (.live, some .ctxErr)] ∧
    (listenResult code label name expected failed).run (ListenState.init expected failed)
        [.wait .cancelled, .op (.emit ⟨expected, none⟩), .wait .live] = none :=
  ⟨rfl, rfl, rfl⟩

end Ably
