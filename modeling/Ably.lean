import Ably.Go.Runtime
import Ably.Proto
import Ably.StateError
import Ably.Options
import Ably.Go.Strings
import Ably.Go.Url
import Ably.Go.Path
import Ably.Rest.Params
import Ably.Rest.Link
import Ably.Rest.PaginatedResultNew
import Ably.Rest.PaginatedResult
import Ably.Go.Chan
import Ably.Result
import Ably.Codec.Bytes
import Ably.Codec.Json
import Ably.Codec.Message
import Ably.Codec.Reference
import Ably.Codec.Decode
import Ably.Codec.RoundTrip
import Ably.Util.Shuffle
import Ably.Pending.Emitter
import Ably.Pending.Complete
import Ably.Pending.Run
import Ably.Pending.MsgQueue
import Ably.Pending.Pipeline
