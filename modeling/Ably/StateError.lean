import Mathlib.Logic.Function.Defs
import Ably.Proto

/-!
# Connection and channel states, and their errors

`ConnectionState` and `ChannelState` (`state.go`) are named values, and each
state has an event of the same name; `UPDATE` is the one event that is no
state.  `connStateError` and `channelStateError` turn the error a state change
carries into the `*ErrorInfo` it reports: an `*ErrorInfo` is reported as it is;
otherwise a state with a default error reports that error, with the given one as
its cause; otherwise the given error is wrapped by `newError(0, err)`, and no
error stays none.  The two functions differ only in their table of defaults, so
they are one definition, `stateError`, applied to each table, and the lemmas
are about `stateError`.

A nil `*ErrorInfo` is a non-nil `error` in Go: the type switch
`e, ok := err.(*ErrorInfo); ok && e != nil` lets it through to the defaults,
and with none it reaches `newError` (`stateError_nilInfo`).

## Honest boundary

`newError` and `newErrorf` are not among the source files.  `newError` is a
parameter; `newErrorf(code, text)` is the `ErrorInfo` of that code and text.
An `error` that is not an `*ErrorInfo` is kept as its text.
-/

namespace Ably

/-- `ConnectionState`. -/
inductive ConnectionState where
  | initialized | connecting | connected | disconnected | suspended | closing | closed | failed
  deriving DecidableEq, Repr

/-- `ChannelState`. -/
inductive ChannelState where
  | initialized | attaching | attached | detaching | detached | suspended | failed
  deriving DecidableEq, Repr

/-- `ConnectionState.String()`. -/
def ConnectionState.name : ConnectionState → String
  | .initialized => "INITIALIZED"
  | .connecting => "CONNECTING"
  | .connected => "CONNECTED"
  | .disconnected => "DISCONNECTED"
  | .suspended => "SUSPENDED"
  | .closing => "CLOSING"
  | .closed => "CLOSED"
  | .failed => "FAILED"

/-- `ChannelState.String()`. -/
def ChannelState.name : ChannelState → String
  | .initialized => "INITIALIZED"
  | .attaching => "ATTACHING"
  | .attached => "ATTACHED"
  | .detaching => "DETACHING"
  | .detached => "DETACHED"
  | .suspended => "SUSPENDED"
  | .failed => "FAILED"

/-- The name of `ConnectionEventUpdate` and `ChannelEventUpdate`; every other
event is `ConnectionEvent(state)` or `ChannelEvent(state)`, of its state's name. -/
def updateEventName : String := "UPDATE"

/-- Distinct connection states have distinct names, and none is `UPDATE`: an
event listener registered for a state hears that state only. -/
theorem ConnectionState.name_injective :
    Function.Injective ConnectionState.name ∧ ∀ s : ConnectionState, s.name ≠ updateEventName := by
  refine ⟨fun a b h => ?_, fun s => ?_⟩
  · cases a <;> cases b <;> first | rfl | exact absurd h (by decide)
  · cases s <;> decide

/-- Distinct channel states have distinct names, and none is `UPDATE`. -/
theorem ChannelState.name_injective :
    Function.Injective ChannelState.name ∧ ∀ s : ChannelState, s.name ≠ updateEventName := by
  refine ⟨fun a b h => ?_, fun s => ?_⟩
  · cases a <;> cases b <;> first | rfl | exact absurd h (by decide)
  · cases s <;> decide

/-! ## The errors of a state change -/

/-- An `error` that is not a non-nil `*ErrorInfo`: a nil `*ErrorInfo`, or
another error, by its text. -/
inductive Cause where
  | nilInfo
  | other (msg : String)
  deriving DecidableEq, Repr

/-- A non-nil Go `error`: an `*ErrorInfo`, with what its `err` field holds, or a
`Cause`. -/
inductive GoErr where
  | info (e : ErrorInfo) (cause : Option Cause)
  | plain (c : Cause)
  deriving DecidableEq, Repr

/-- The defaults `connStateErrors`. -/
def connStateErrors : ConnectionState → Option ErrorInfo
  | .initialized => some ⟨.connectionSuspended, "Unable to establish connection"⟩
  | .disconnected => some ⟨.disconnected, "Connection temporarily unavailable"⟩
  | .failed => some ⟨.connectionFailed, "Connection failed"⟩
  | .suspended => some ⟨.connectionSuspended, "Connection unavailable"⟩
  | _ => none

/-- The defaults `channelStateErrors`. -/
def channelStateErrors : ChannelState → Option ErrorInfo
  | .failed => some ⟨.channelOperationFailed, "Channel state is failed"⟩
  | _ => none

section StateError

variable {S : Type} (defaults : S → Option ErrorInfo) (newError : Nat → GoErr → GoErr)

/-- The body of `connStateError` and `channelStateError`, for a table of
defaults; `none` is a nil error. -/
def stateError (state : S) : Option GoErr → Option GoErr
  | some (.info e c) => some (.info e c)
  | err =>
    match defaults state with
    | some e => some (newError 0 (.info e (match err with
        | some (.plain c) => some c
        | _ => none)))
    | none => err.map (newError 0)

/-- `connStateError(state, err)`. -/
def connStateError (state : ConnectionState) (err : Option GoErr) : Option GoErr :=
  stateError connStateErrors newError state err

/-- `channelStateError(state, err)`. -/
def channelStateError (state : ChannelState) (err : Option GoErr) : Option GoErr :=
  stateError channelStateErrors newError state err

/-- An `*ErrorInfo` is reported as it is. -/
@[simp] theorem stateError_info (state : S) (e : ErrorInfo) (c : Option Cause) :
    stateError defaults newError state (some (.info e c)) = some (.info e c) := rfl

/-- A state with a default reports it, through `newError(0, …)`, with the error
given, if any, as its cause. -/
theorem stateError_of_default {state : S} {e : ErrorInfo} (h : defaults state = some e)
    (c : Option Cause) :
    stateError defaults newError state (c.map .plain) = some (newError 0 (.info e c)) := by
  cases c <;> simp [stateError, h]

/-- Without a default, an error that is no `*ErrorInfo` goes through
`newError(0, err)`, and no error stays none. -/
theorem stateError_of_no_default {state : S} (h : defaults state = none) (c : Option Cause) :
    stateError defaults newError state (c.map .plain) = (c.map .plain).map (newError 0) := by
  cases c <;> simp [stateError, h]

/-- A nil `*ErrorInfo` passes the type switch: it becomes the cause of a
default, or the argument of `newError`. -/
theorem stateError_nilInfo (state : S) :
    stateError defaults newError state (some (.plain .nilInfo)) =
      some (match defaults state with
        | some e => newError 0 (.info e (some .nilInfo))
        | none => newError 0 (.plain .nilInfo)) := by
  simp only [stateError]
  cases defaults state <;> rfl

/-- A state with a default always reports an error. -/
theorem stateError_isSome {state : S} (h : (defaults state).isSome) (err : Option GoErr) :
    (stateError defaults newError state err).isSome := by
  obtain ⟨e, he⟩ := Option.isSome_iff_exists.mp h
  rcases err with _ | ⟨e', c⟩ | c <;> simp [stateError, he]

end StateError

end Ably
