import Mathlib.Tactic.SplitIfs
import Ably.Proto
import Ably.Go.Url

/-!
# Client options and logging

`clientOptions` (`state.go`) starts from `defaultOptions`, takes the caller's
`ClientOption`s in order (`applyOptionsWithDefaults`), and is read through
accessors: a duration falls back to its default when it is zero, an endpoint
URL is built from the host, the environment, TLS and the port, and the key
splits at its first `:` into name and secret.  `LoggerOptions` (the logging
part of the source) prints a message when its level is set and at least the
message's; the methods of `sugaredLogger` print at the level each names.

The options setters form a family: each `WithX` sets one field.  They are the
constructors of `ClientOption`, one for each setter of a field the model keeps,
and one, `other`, for the setters of the fields it leaves out; every
`AuthWithX` is a constructor of `AuthOption`, and its twin `WithX` one of
`ClientOption`.

## Results

* `durations_ne_zero`: every duration accessor is nonzero, on every options
  value, because every default is.
* `timeoutConnect_of_applyOptionsWithDefaults`: no setter writes
  `TimeoutConnect`, and `timeoutConnect` falls back to the *default*
  realtime request timeout, so for options built by `applyOptionsWithDefaults`
  it is ten seconds whatever `WithRealtimeRequestTimeout` set.
* `keyName_keySecret`: a key `name:secret` splits back into its name and
  secret.
* `applyOptionsWithDefaults_auth`: the authentication part of the options the
  `WithX` twins of some `AuthWithX` setters build is what those setters build.
* `applyOptionsWithDefaults_logs_iff`: a client logs at a level exactly when
  the last `WithLogLevel` set one at least as verbose; without one it logs
  nothing.

## Honest boundary

`clientOptions` keeps the fields the modelled functions read, and
`authOptions` all of its fields; the fields keep Go's exported names, so that
the accessors of the same name keep Go's lower-case ones.  For `AuthCallback`
and `TokenDetails` only whether they are set is kept, as the code only compares
them with nil; a nil `http.Header` or `url.Values` is `none`.  `TokenParams` is
not among the source files: the code sets its `TTL` and copies the rest.  A `time.Duration` is its number of nanoseconds.  The handler of a
`LoggerOptions` is left out: only its level decides whether a line is printed,
and what is printed is what the default `StdLogger` hands its `log.Logger`.
An operand of `Print` is its `%v` text; that `StdLogger.Print` writes the
tagged first operand back into the caller's slice is not modelled.
-/

namespace Ably

/-- A `time.Duration`, in nanoseconds. -/
abbrev Duration := Int

/-- `time.Second`. -/
def second : Duration := 1000000000

/-- `TokenParams`: its `TTL` in milliseconds, the one field the code sets, and
the fields it copies. -/
structure TokenParams where
  TTL : Int
  Capability : String
  ClientID : String
  Timestamp : Int
  deriving DecidableEq, Repr

/-! ## Logging -/

/-- `LogLevel`: `LogNone` is `0`, then `LogError`, `LogWarning`, `LogInfo`,
`LogVerbose` and `LogDebug`. -/
abbrev LogLevel := Nat

/-- `logLevels`: the tag a `StdLogger` puts before a line; none for `LogNone`. -/
def logLevels (level : LogLevel) : String :=
  match level with
  | 1 => "[ERROR] "
  | 2 => "[WARN] "
  | 3 => "[INFO] "
  | 4 => "[VERBOSE] "
  | 5 => "[DEBUG] "
  | _ => ""

/-- `LoggerOptions`, its level. -/
structure LoggerOptions where
  Level : LogLevel
  deriving DecidableEq, Repr

/-- `l.Is(level)`. -/
def LoggerOptions.is (l : LoggerOptions) (level : LogLevel) : Bool :=
  l.Level ≠ 0 ∧ l.Level ≥ level

/-- `l.Printf(level, format)` with the default `StdLogger`: the format the
`log.Logger` is given, or none when nothing is printed. -/
def LoggerOptions.printf (l : LoggerOptions) (level : LogLevel) (format : String) :
    Option String :=
  if l.is level then some (logLevels level ++ format) else none

/-- `l.Print(level, v...)` with the default `StdLogger`: the operands the
`log.Logger` is given, each as its `%v` text and the first one tagged, or none
when nothing is printed, as with no operands. -/
def LoggerOptions.print (l : LoggerOptions) (level : LogLevel) (v : List String) :
    Option (List String) :=
  if l.is level then
    match v with
    | [] => none
    | v₀ :: vs => some ((logLevels level ++ v₀) :: vs)
  else none

/-- A logger that prints a level prints every more severe one. -/
theorem LoggerOptions.is_mono {l : LoggerOptions} {level level' : LogLevel}
    (h : l.is level = true) (hle : level' ≤ level) : l.is level' = true := by
  simp only [LoggerOptions.is, decide_eq_true_eq] at h ⊢
  exact ⟨h.1, Nat.le_trans hle h.2⟩

theorem LoggerOptions.printf_isSome {l : LoggerOptions} {level : LogLevel} {format : String} :
    (l.printf level format).isSome = l.is level := by
  unfold LoggerOptions.printf
  cases l.is level <;> rfl

theorem LoggerOptions.print_isSome {l : LoggerOptions} {level : LogLevel} {v : List String} :
    (l.print level v).isSome = (l.is level && !v.isEmpty) := by
  unfold LoggerOptions.print
  cases l.is level <;> cases v <;> rfl

/-- `sugaredLogger`, which embeds a `LoggerOptions`. -/
structure SugaredLogger extends LoggerOptions
  deriving DecidableEq, Repr

/-- `l.sugar()`. -/
def LoggerOptions.sugar (l : LoggerOptions) : SugaredLogger := ⟨l⟩

/-! The methods of `sugaredLogger` are `Print` and `Printf` at a fixed level. -/

namespace SugaredLogger

/-- `s.Error(v...)`. -/
def error (s : SugaredLogger) (v : List String) : Option (List String) := s.print 1 v
/-- `s.Errorf(fmt, v...)`. -/
def errorf (s : SugaredLogger) (fmt : String) : Option String := s.printf 1 fmt
/-- `s.Warn(v...)`. -/
def warn (s : SugaredLogger) (v : List String) : Option (List String) := s.print 2 v
/-- `s.Warnf(fmt, v...)`. -/
def warnf (s : SugaredLogger) (fmt : String) : Option String := s.printf 2 fmt
/-- `s.Info(v...)`. -/
def info (s : SugaredLogger) (v : List String) : Option (List String) := s.print 3 v
/-- `s.Infof(fmt, v...)`. -/
def infof (s : SugaredLogger) (fmt : String) : Option String := s.printf 3 fmt
/-- `s.Verbose(v...)`. -/
def verbose (s : SugaredLogger) (v : List String) : Option (List String) := s.print 4 v
/-- `s.Verbosef(fmt, v...)`. -/
def verbosef (s : SugaredLogger) (fmt : String) : Option String := s.printf 4 fmt
/-- `s.Debugf(fmt, v...)`. -/
def debugf (s : SugaredLogger) (fmt : String) : Option String := s.printf 5 fmt
/-- `s.Debug(v...)`. -/
def debug (s : SugaredLogger) (v : List String) : Option (List String) := s.print 5 v

end SugaredLogger

/-! ## Options -/

/-- `authOptions`. -/
structure AuthOptions where
  /-- Whether `AuthCallback` is set. -/
  AuthCallback : Bool
  AuthURL : String
  Key : String
  Token : String
  /-- Whether `TokenDetails` is set. -/
  TokenDetails : Bool
  AuthMethod : String
  /-- `AuthHeaders`, `none` when nil. -/
  AuthHeaders : Option (List (String × List String))
  /-- `AuthParams`, `none` when nil. -/
  AuthParams : Option Go.Values
  UseQueryTime : Bool
  DefaultTokenParams : Option TokenParams
  UseTokenAuth : Bool
  deriving DecidableEq, Repr

/-- `clientOptions`, with its embedded `authOptions`. -/
structure ClientOptions where
  auth : AuthOptions
  RESTHost : String
  RealtimeHost : String
  Environment : String
  Port : Int
  TLSPort : Int
  Logger : LoggerOptions
  NoTLS : Bool
  NoBinaryProtocol : Bool
  IdempotentRESTPublishing : Bool
  TimeoutConnect : Duration
  TimeoutDisconnect : Duration
  ConnectionStateTTL : Duration
  RealtimeRequestTimeout : Duration
  DisconnectedRetryTimeout : Duration
  SuspendedRetryTimeout : Duration
  HTTPOpenTimeout : Duration
  FallbackRetryTimeout : Duration
  deriving DecidableEq, Repr

/-- `restHost`. -/
def restHost : String := "rest.ably.io"

/-- `defaultOptions`. -/
def defaultOptions : ClientOptions where
  auth := ⟨false, "", "", "", false, "", none, none, false, none, false⟩
  RESTHost := restHost
  RealtimeHost := "realtime.ably.io"
  Environment := ""
  Port := 80
  TLSPort := 443
  Logger := ⟨0⟩
  NoTLS := false
  NoBinaryProtocol := false
  IdempotentRESTPublishing := false
  TimeoutConnect := 0
  TimeoutDisconnect := 30 * second
  ConnectionStateTTL := 120 * second
  RealtimeRequestTimeout := 10 * second
  DisconnectedRetryTimeout := 15 * second
  SuspendedRetryTimeout := 30 * second
  HTTPOpenTimeout := 4 * second
  FallbackRetryTimeout := 600 * second

/-- `defaultFallbackHosts()`. -/
def defaultFallbackHosts : List String :=
  ["a.ably-realtime.com", "b.ably-realtime.com", "c.ably-realtime.com", "d.ably-realtime.com",
    "e.ably-realtime.com"]

/-! ## Setting options -/

/-- The `ClientOption` setters, by the field each writes; `other` stands for the
setters of fields the model leaves out (`WithAutoConnect`, `WithClientID`,
`WithEchoMessages`, `WithLogHandler`, `WithQueueMessages`,
`WithHTTPRequestTimeout`, `WithFallbackHosts`, `WithRecover`,
`WithTransportParams`, `WithChannelRetryTimeout`, `WithHTTPMaxRetryCount`,
`WithHTTPClient`, `WithDial`), none of which writes an `authOptions` field. -/
inductive ClientOption where
  | withAuthCallback (set : Bool)
  | withAuthParams (params : Option Go.Values)
  | withAuthURL (url : String)
  | withAuthMethod (method : String)
  | withAuthHeaders (headers : Option (List (String × List String)))
  | withKey (key : String)
  | withDefaultTokenParams (params : TokenParams)
  | withQueryTime (queryTime : Bool)
  | withToken (token : String)
  | withTokenDetails (set : Bool)
  | withUseTokenAuth (use : Bool)
  | withEnvironment (env : String)
  | withLogLevel (level : LogLevel)
  | withPort (port : Int)
  | withRESTHost (host : String)
  | withRealtimeHost (host : String)
  | withTLS (tls : Bool)
  | withTLSPort (port : Int)
  | withUseBinaryProtocol (use : Bool)
  | withDisconnectedRetryTimeout (d : Duration)
  | withHTTPOpenTimeout (d : Duration)
  | withRealtimeRequestTimeout (d : Duration)
  | withSuspendedRetryTimeout (d : Duration)
  | withIdempotentRESTPublishing (idempotent : Bool)
  | other
  deriving Repr

/-- What the setter does to the options. -/
def ClientOption.set : ClientOption → ClientOptions → ClientOptions
  | .withAuthCallback b, o => { o with auth := { o.auth with AuthCallback := b } }
  | .withAuthParams params, o => { o with auth := { o.auth with AuthParams := params } }
  | .withAuthURL url, o => { o with auth := { o.auth with AuthURL := url } }
  | .withAuthMethod method, o => { o with auth := { o.auth with AuthMethod := method } }
  | .withAuthHeaders headers, o => { o with auth := { o.auth with AuthHeaders := headers } }
  | .withKey key, o => { o with auth := { o.auth with Key := key } }
  | .withDefaultTokenParams params, o =>
    { o with auth := { o.auth with DefaultTokenParams := some params } }
  | .withQueryTime queryTime, o => { o with auth := { o.auth with UseQueryTime := queryTime } }
  | .withToken token, o => { o with auth := { o.auth with Token := token } }
  | .withTokenDetails b, o => { o with auth := { o.auth with TokenDetails := b } }
  | .withUseTokenAuth use, o => { o with auth := { o.auth with UseTokenAuth := use } }
  | .withEnvironment env, o => { o with Environment := env }
  | .withLogLevel level, o => { o with Logger := { o.Logger with Level := level } }
  | .withPort port, o => { o with Port := port }
  | .withRESTHost host, o => { o with RESTHost := host }
  | .withRealtimeHost host, o => { o with RealtimeHost := host }
  | .withTLS tls, o => { o with NoTLS := !tls }
  | .withTLSPort port, o => { o with TLSPort := port }
  | .withUseBinaryProtocol use, o => { o with NoBinaryProtocol := !use }
  | .withDisconnectedRetryTimeout d, o => { o with DisconnectedRetryTimeout := d }
  | .withHTTPOpenTimeout d, o => { o with HTTPOpenTimeout := d }
  | .withRealtimeRequestTimeout d, o => { o with RealtimeRequestTimeout := d }
  | .withSuspendedRetryTimeout d, o => { o with SuspendedRetryTimeout := d }
  | .withIdempotentRESTPublishing b, o => { o with IdempotentRESTPublishing := b }
  | .other, o => o

/-- The `TokenParams{TTL: …}` of an hour that both `apply…WithDefaults` fill
in. -/
def defaultTokenParams : TokenParams := ⟨60 * 60 * 1000, "", "", 0⟩

/-- `applyOptionsWithDefaults(os...)`: the default token parameters, an hour,
when no option set any. -/
def applyOptionsWithDefaults (os : List ClientOption) : ClientOptions :=
  let opts := os.foldl (fun o set => set.set o) defaultOptions
  if opts.auth.DefaultTokenParams = none then
    { opts with auth := { opts.auth with DefaultTokenParams := some defaultTokenParams } }
  else opts

/-- The `AuthOption` setters, by the field each writes. -/
inductive AuthOption where
  | authWithCallback (set : Bool)
  | authWithParams (params : Option Go.Values)
  | authWithURL (url : String)
  | authWithMethod (method : String)
  | authWithHeaders (headers : Option (List (String × List String)))
  | authWithKey (key : String)
  | authWithQueryTime (queryTime : Bool)
  | authWithToken (token : String)
  | authWithTokenDetails (set : Bool)
  | authWithUseTokenAuth (use : Bool)
  | authWithDefaultTokenParams (params : TokenParams)
  deriving Repr

/-- What the setter does to the options. -/
def AuthOption.set : AuthOption → AuthOptions → AuthOptions
  | .authWithCallback b, a => { a with AuthCallback := b }
  | .authWithParams params, a => { a with AuthParams := params }
  | .authWithURL url, a => { a with AuthURL := url }
  | .authWithMethod method, a => { a with AuthMethod := method }
  | .authWithHeaders headers, a => { a with AuthHeaders := headers }
  | .authWithKey key, a => { a with Key := key }
  | .authWithQueryTime queryTime, a => { a with UseQueryTime := queryTime }
  | .authWithToken token, a => { a with Token := token }
  | .authWithTokenDetails b, a => { a with TokenDetails := b }
  | .authWithUseTokenAuth use, a => { a with UseTokenAuth := use }
  | .authWithDefaultTokenParams params, a => { a with DefaultTokenParams := some params }

/-- `applyAuthOptionsWithDefaults(os...)`. -/
def applyAuthOptionsWithDefaults (os : List AuthOption) : AuthOptions :=
  let opts := os.foldl (fun a set => set.set a) defaultOptions.auth
  if opts.DefaultTokenParams = none then { opts with DefaultTokenParams := some defaultTokenParams }
  else opts

/-- The client setter that writes the same field as an auth setter:
`AuthWithKey` and `WithKey`, and so on. -/
def AuthOption.toClientOption : AuthOption → ClientOption
  | .authWithCallback b => .withAuthCallback b
  | .authWithParams params => .withAuthParams params
  | .authWithURL url => .withAuthURL url
  | .authWithMethod method => .withAuthMethod method
  | .authWithHeaders headers => .withAuthHeaders headers
  | .authWithKey key => .withKey key
  | .authWithQueryTime queryTime => .withQueryTime queryTime
  | .authWithToken token => .withToken token
  | .authWithTokenDetails b => .withTokenDetails b
  | .authWithUseTokenAuth use => .withUseTokenAuth use
  | .authWithDefaultTokenParams params => .withDefaultTokenParams params

theorem set_toClientOption (set : AuthOption) (o : ClientOptions) :
    (set.toClientOption.set o).auth = set.set o.auth := by
  cases set <;> rfl

theorem foldl_set_auth (os : List AuthOption) (o : ClientOptions) :
    ((os.map AuthOption.toClientOption).foldl (fun o set => set.set o) o).auth =
      os.foldl (fun a set => set.set a) o.auth := by
  induction os generalizing o with
  | nil => rfl
  | cons set os ih => rw [List.map_cons, List.foldl_cons, List.foldl_cons, ih, set_toClientOption]

/-- The two ways of building authentication options agree: the auth part of the
client options built from the client setters is what the auth setters build. -/
theorem applyOptionsWithDefaults_auth (os : List AuthOption) :
    (applyOptionsWithDefaults (os.map AuthOption.toClientOption)).auth =
      applyAuthOptionsWithDefaults os := by
  have h := foldl_set_auth os defaultOptions
  simp only [applyOptionsWithDefaults, applyAuthOptionsWithDefaults, h]
  split_ifs
  · rfl
  · exact h

theorem set_TimeoutConnect (set : ClientOption) (o : ClientOptions) :
    (set.set o).TimeoutConnect = o.TimeoutConnect := by
  cases set <;> rfl

theorem foldl_set_TimeoutConnect (os : List ClientOption) (o : ClientOptions) :
    (os.foldl (fun o set => set.set o) o).TimeoutConnect = o.TimeoutConnect := by
  induction os generalizing o with
  | nil => rfl
  | cons set os ih => rw [List.foldl_cons, ih, set_TimeoutConnect]

/-- The level a setter writes: `WithLogLevel`'s, none for the others. -/
def ClientOption.logLevel? : ClientOption → Option LogLevel
  | .withLogLevel level => some level
  | _ => none

theorem set_Logger_Level (set : ClientOption) (o : ClientOptions) :
    (set.set o).Logger.Level = set.logLevel?.getD o.Logger.Level := by
  cases set <;> rfl

theorem foldl_set_Logger_Level (os : List ClientOption) (o : ClientOptions) :
    (os.foldl (fun o set => set.set o) o).Logger.Level =
      (os.reverse.findSome? ClientOption.logLevel?).getD o.Logger.Level := by
  induction os generalizing o with
  | nil => rfl
  | cons set os ih =>
    rw [List.foldl_cons, ih, set_Logger_Level, List.reverse_cons, List.findSome?_append]
    cases os.reverse.findSome? ClientOption.logLevel? with
    | some l => rfl
    | none => cases set <;> rfl

theorem applyOptionsWithDefaults_Logger_Level (os : List ClientOption) :
    (applyOptionsWithDefaults os).Logger.Level =
      (os.reverse.findSome? ClientOption.logLevel?).getD 0 := by
  simp only [applyOptionsWithDefaults]
  split_ifs <;> exact foldl_set_Logger_Level os defaultOptions

/-- A client logs a line of a level exactly when the last `WithLogLevel` among
its setters set a level other than `LogNone` and at least that one: with none,
it logs nothing. -/
theorem applyOptionsWithDefaults_logs_iff (os : List ClientOption) (level : LogLevel) :
    (applyOptionsWithDefaults os).Logger.is level = true ↔
      ∃ l, os.reverse.findSome? ClientOption.logLevel? = some l ∧ l ≠ 0 ∧ level ≤ l := by
  rw [LoggerOptions.is, applyOptionsWithDefaults_Logger_Level]
  cases os.reverse.findSome? ClientOption.logLevel? <;> simp

/-! ## Durations -/

/-- The shape of the duration accessors: the field when it is set, else the
default. -/
def durationOr (field default : Duration) : Duration :=
  if field ≠ 0 then field else default

namespace ClientOptions

/-- `opts.timeoutConnect()`: unlike the others, it falls back to the default of
another field, `RealtimeRequestTimeout`. -/
def timeoutConnect (o : ClientOptions) : Duration :=
  if o.TimeoutConnect ≠ 0 then o.TimeoutConnect else defaultOptions.RealtimeRequestTimeout

/-- `opts.timeoutDisconnect()`. -/
def timeoutDisconnect (o : ClientOptions) : Duration :=
  durationOr o.TimeoutDisconnect defaultOptions.TimeoutDisconnect

/-- `opts.fallbackRetryTimeout()`. -/
def fallbackRetryTimeout (o : ClientOptions) : Duration :=
  durationOr o.FallbackRetryTimeout defaultOptions.FallbackRetryTimeout

/-- `opts.realtimeRequestTimeout()`. -/
def realtimeRequestTimeout (o : ClientOptions) : Duration :=
  durationOr o.RealtimeRequestTimeout defaultOptions.RealtimeRequestTimeout

/-- `opts.connectionStateTTL()`. -/
def connectionStateTTL (o : ClientOptions) : Duration :=
  durationOr o.ConnectionStateTTL defaultOptions.ConnectionStateTTL

/-- `opts.disconnectedRetryTimeout()`. -/
def disconnectedRetryTimeout (o : ClientOptions) : Duration :=
  durationOr o.DisconnectedRetryTimeout defaultOptions.DisconnectedRetryTimeout

/-- `opts.httpOpenTimeout()`. -/
def httpOpenTimeout (o : ClientOptions) : Duration :=
  durationOr o.HTTPOpenTimeout defaultOptions.HTTPOpenTimeout

/-- `opts.suspendedRetryTimeout()`. -/
def suspendedRetryTimeout (o : ClientOptions) : Duration :=
  durationOr o.SuspendedRetryTimeout defaultOptions.SuspendedRetryTimeout

end ClientOptions

theorem durationOr_ne_zero {field default : Duration} (h : default ≠ 0) :
    durationOr field default ≠ 0 := by
  unfold durationOr
  split_ifs with hf
  · exact hf
  · exact h

/-- Every duration accessor is nonzero, whatever the options: every default is. -/
theorem durations_ne_zero (o : ClientOptions) :
    o.timeoutConnect ≠ 0 ∧ o.timeoutDisconnect ≠ 0 ∧ o.fallbackRetryTimeout ≠ 0 ∧
      o.realtimeRequestTimeout ≠ 0 ∧ o.connectionStateTTL ≠ 0 ∧
      o.disconnectedRetryTimeout ≠ 0 ∧ o.httpOpenTimeout ≠ 0 ∧ o.suspendedRetryTimeout ≠ 0 := by
  have hc : o.timeoutConnect ≠ 0 := by
    unfold ClientOptions.timeoutConnect
    split_ifs with h
    · exact h
    · decide
  exact ⟨hc, durationOr_ne_zero (by decide), durationOr_ne_zero (by decide),
    durationOr_ne_zero (by decide), durationOr_ne_zero (by decide), durationOr_ne_zero (by decide),
    durationOr_ne_zero (by decide), durationOr_ne_zero (by decide)⟩

/-- No setter writes `TimeoutConnect`, so for options built by
`applyOptionsWithDefaults` the connect timeout is the default realtime request
timeout, ten seconds, whatever realtime request timeout the options set. -/
theorem timeoutConnect_of_applyOptionsWithDefaults (os : List ClientOption) :
    (applyOptionsWithDefaults os).timeoutConnect = 10 * second := by
  have h := foldl_set_TimeoutConnect os defaultOptions
  simp only [applyOptionsWithDefaults]
  split_ifs <;> simp only [ClientOptions.timeoutConnect, h] <;> rfl

/-- A client that sets its realtime request timeout to one second still gets a
ten-second connect timeout. -/
example :
    (applyOptionsWithDefaults [.withRealtimeRequestTimeout second]).realtimeRequestTimeout =
      second ∧
    (applyOptionsWithDefaults [.withRealtimeRequestTimeout second]).timeoutConnect =
      10 * second := by
  decide

/-! ## Endpoints -/

/-- `resolveHost(host, environment, defaultHost)`. -/
def resolveHost (host environment defaultHost : String) : String :=
  let host := if host = "" then defaultHost else host
  if host = defaultHost ∧ environment ≠ "" ∧ environment ≠ "production" then
    environment ++ "-" ++ host
  else host

/-- `net.JoinHostPort(host, port)`: a host with a colon goes in brackets. -/
def joinHostPort (host port : String) : String :=
  if ':' ∈ host.data then "[" ++ host ++ "]:" ++ port else host ++ ":" ++ port

/-- The shape of `restURL` and `realtimeURL`: the scheme and the port of the
transport, `Port` (80 when unset) without TLS and `TLSPort` (443) with it. -/
def endpointURL (o : ClientOptions) (host : String) (plain secure : String) : String :=
  if o.NoTLS then
    plain ++ joinHostPort host (toString (if o.Port = 0 then 80 else o.Port))
  else
    secure ++ joinHostPort host (toString (if o.TLSPort = 0 then 443 else o.TLSPort))

namespace ClientOptions

/-- `opts.restURL()`. -/
def restURL (o : ClientOptions) : String :=
  endpointURL o (resolveHost o.RESTHost o.Environment defaultOptions.RESTHost) "http://" "https://"

/-- `opts.realtimeURL()`. -/
def realtimeURL (o : ClientOptions) : String :=
  endpointURL o (resolveHost o.RealtimeHost o.Environment defaultOptions.RealtimeHost) "ws://"
    "wss://"

/-- `opts.protocol()`. -/
def protocol (o : ClientOptions) : String :=
  if o.NoBinaryProtocol then "application/json" else "application/x-msgpack"

end ClientOptions

/-! ## Keys and authentication -/

namespace AuthOptions

/-- `opts.externalTokenAuthSupported()`. -/
def externalTokenAuthSupported (a : AuthOptions) : Bool :=
  !(a.Token = "" ∧ !a.TokenDetails ∧ !a.AuthCallback ∧ a.AuthURL = "")

/-- `opts.authMethod()`. -/
def authMethod (a : AuthOptions) : String :=
  if a.AuthMethod ≠ "" then a.AuthMethod else "GET"

/-- `opts.KeyName()`: the key up to its first `:`, or `""` without one. -/
def keyName (a : AuthOptions) : String :=
  if ':' ∈ a.Key.data then ⟨a.Key.data.takeWhile (· ≠ ':')⟩ else ""

/-- `opts.KeySecret()`: the key after its first `:`, or `""` without one. -/
def keySecret (a : AuthOptions) : String :=
  if ':' ∈ a.Key.data then ⟨(a.Key.data.dropWhile (· ≠ ':')).drop 1⟩ else ""

end AuthOptions

/-- A key `name:secret`, its name free of `:`, splits back into name and secret. -/
theorem keyName_keySecret {a : AuthOptions} {name secret : String} (hname : ':' ∉ name.data)
    (hkey : a.Key = name ++ ":" ++ secret) :
    a.keyName = name ∧ a.keySecret = secret := by
  have hall : ∀ c ∈ name.data, decide (c ≠ ':') = true := fun c hc =>
    decide_eq_true (fun h => hname (h ▸ hc))
  have hdata : a.Key.data = name.data ++ ':' :: secret.data := by
    simp [hkey, String.data_append]
  have hmem : ':' ∈ a.Key.data := by simp [hdata]
  constructor
  · simp only [AuthOptions.keyName, hmem, if_true, hdata,
      List.takeWhile_append_of_pos hall]
    simp
  · simp only [AuthOptions.keySecret, hmem, if_true, hdata,
      List.dropWhile_append_of_pos hall]
    simp

theorem keyName_keySecret_sample :
    ':' ∉ "xVLyHw.A-pwh".data ∧
      ({ defaultOptions.auth with Key := "xVLyHw.A-pwh:bG8uBGxcQ" } : AuthOptions).Key =
        "xVLyHw.A-pwh" ++ ":" ++ "bG8uBGxcQ" ∧
      ({ defaultOptions.auth with Key := "xVLyHw.A-pwh:bG8uBGxcQ" } : AuthOptions).keyName =
        "xVLyHw.A-pwh" ∧
      ({ defaultOptions.auth with Key := "xVLyHw.A-pwh:bG8uBGxcQ" } : AuthOptions).keySecret =
        "bG8uBGxcQ" :=
  ⟨by decide, by decide, keyName_keySecret (by decide) (by decide)⟩

end Ably
