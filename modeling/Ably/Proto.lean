/-!
# Wire-level values the modelled code reads

Only the fields the modelled functions read are kept: a `ProtocolMessage` is its
`MsgSerial` and `Count`, and an `ErrorInfo` is its code and message.  Go's
`*ErrorInfo` may be nil; the model writes it `Option ErrorInfo`.
-/

namespace Ably

/-- The error codes the modelled functions name, and a literal code. -/
inductive ErrorCode where
  | internalError
  | internalChannelError
  | internalConnectionError
  | disconnected
  | connectionSuspended
  | connectionFailed
  | channelOperationFailed
  | literal (code : Nat)
  deriving DecidableEq, Repr

/-- `ErrorInfo`, as far as the modelled code builds and compares it. -/
structure ErrorInfo where
  code : ErrorCode
  message : String
  deriving DecidableEq, Repr

/-- `proto.ProtocolMessage`: the serial of a published frame, and for an ACK or
NACK frame the serial it starts at and how many it covers. -/
structure ProtocolMessage where
  msgSerial : Int
  count : Int
  deriving DecidableEq, Repr

/-- `errInfo.unwrapNil()`.  The helper is not among the source files; it turns a
nil `*ErrorInfo` into a nil `error` and leaves any other as it is, which is the
only reading its callers (`Ack`, `Nack`) and its name allow. -/
def unwrapNil (e : Option ErrorInfo) : Option ErrorInfo := e

@[simp] theorem unwrapNil_eq (e : Option ErrorInfo) : unwrapNil e = e := rfl

/-- `errSerialSkipped`, sent to entries an ACK passes over. -/
def errSerialSkipped : ErrorInfo :=
  ⟨.internalError, "Serial for message was skipped by acknowledgement"⟩

end Ably
