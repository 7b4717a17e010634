import TwinLink.Backoff
import TwinLink.LinkError
import TwinLink.Text.Blank
import TwinLink.Text.Quoted
import TwinLink.Text.Utf8
import TwinLink.Url.Reader

/-! The configuration of a link: an endpoint for each channel, a credential for the command
channel and bounds for delays. It is given directly or by environment variables. A number
that is not one counts as not given, an endpoint that is not one is refused. -/

namespace TwinLink

structure Config where
  liveUrl : Url
  commandUrl : Url
  token : Option String
  tokenParam : String
  liveBackoff : Backoff.Bounds
  commandBackoff : Backoff.Bounds
  connectTimeout : Duration
  deriving DecidableEq

namespace Config

/-- Why a configuration is refused. -/
inductive Fault where
  | invalidUrl (fault : Url.Fault)
  | foreignScheme (text scheme : String)
  | backoff (fault : Backoff.Fault)
  | zeroTimeout
  deriving DecidableEq

def Fault.error : Fault → LinkError
  | invalidUrl fault => .invalidUrl fault
  | foreignScheme text scheme =>
    .invalidConfig s!"endpoint {text} must use ws or wss, not {scheme}"
  | backoff fault => .invalidConfig fault.detail
  | zeroTimeout => .invalidConfig "connect timeout must be positive"

def usualLiveUrl : String := "ws://127.0.0.1:8000/ws/live"

def usualCommandUrl : String := "ws://127.0.0.1:8000/ws/command"

def usualTokenParam : String := "token"

def usualTimeout : Duration := .ofMillis 10000

section Reading

-- How texts of URLs are read.
variable (read : String → Except Url.Fault Url.Location)

def endpointBy (text : String) : Except Fault Url :=
  match read text with
  | .ok (.endpoint url) => .ok url
  | .ok (.foreign scheme _) => .error (.foreignScheme text scheme)
  | .error fault => .error (.invalidUrl fault)

/-- The configuration for two endpoints, without a credential. -/
def ofEndpointsBy (live command : String) : Except Fault Config := do
  let liveUrl ← endpointBy read live
  let commandUrl ← endpointBy read command
  .ok
    { liveUrl, commandUrl
      token := none
      tokenParam := usualTokenParam
      liveBackoff := .usual
      commandBackoff := .usual
      connectTimeout := usualTimeout }

end Reading

def ofEndpoints : String → String → Except Fault Config := ofEndpointsBy Url.read

def withBackoff (c : Config) (b : Backoff.Bounds) : Config :=
  { c with liveBackoff := b, commandBackoff := b }

/-- Checks the bounds of both channels and then the timeout. -/
def validate (c : Config) : Except Fault Unit := do
  c.liveBackoff.validate.mapError Fault.backoff
  c.commandBackoff.validate.mapError Fault.backoff
  if c.connectTimeout.isZero then .error .zeroTimeout else .ok ()

/-- The command endpoint with the credential in its query. -/
def commandEndpoint (c : Config) : Url :=
  match c.token with
  | some token => c.commandUrl.withPair c.tokenParam token
  | none => c.commandUrl

/-- A natural number of 64 bits, perhaps behind a plus sign. -/
def natural? (s : String) : Option Nat :=
  let digits := match s.toList with
    | '+' :: s => s
    | s => s
  if digits.isEmpty ∨ ¬ digits.all Char.isDigit then none
  else
    let n := digits.foldl (fun n c => 10 * n + (c.toNat - '0'.toNat)) 0
    if n < UInt64.size then some n else none

/-- The milliseconds that a variable gives, blanks around the number apart. -/
def millis (value : Option String) (usual : Duration) : Duration :=
  match value.bind fun s => natural? (Text.trim s) with
  | some n => .ofMillis n
  | none => usual

/-- The variables that give a configuration. -/
inductive Variable where
  | liveUrl
  | commandUrl
  | token
  | tokenParam
  | liveInitial
  | liveCeiling
  | commandInitial
  | commandCeiling
  | timeout
  deriving DecidableEq, Repr

namespace Variable

def name : Variable → String
  | liveUrl => "WATCHTOWER_LIVE_URL"
  | commandUrl => "WATCHTOWER_COMMAND_URL"
  | token => "WATCHTOWER_COMMAND_TOKEN"
  | tokenParam => "WATCHTOWER_TOKEN_PARAM"
  | liveInitial => "WATCHTOWER_LIVE_RECONNECT_INITIAL_MS"
  | liveCeiling => "WATCHTOWER_LIVE_RECONNECT_MAX_MS"
  | commandInitial => "WATCHTOWER_COMMAND_RECONNECT_INITIAL_MS"
  | commandCeiling => "WATCHTOWER_COMMAND_RECONNECT_MAX_MS"
  | timeout => "WATCHTOWER_CONNECT_TIMEOUT_MS"

def all : List Variable :=
  [liveUrl, commandUrl, token, tokenParam, liveInitial, liveCeiling, commandInitial,
    commandCeiling, timeout]

end Variable

/-- The configuration that the values of variables give, if texts of URLs are read by `read`.
An empty credential and an empty name for it count as not set. -/
def ofLookupBy (read : String → Except Url.Fault Url.Location)
    (lookup : Variable → Option String) : Except Fault Config := do
  let c ← ofEndpointsBy read ((lookup .liveUrl).getD usualLiveUrl)
    ((lookup .commandUrl).getD usualCommandUrl)
  let initial (v : Variable) : Duration := millis (lookup v) Backoff.Bounds.usual.initial
  let ceiling (v : Variable) : Duration := millis (lookup v) Backoff.Bounds.usual.ceiling
  let c : Config :=
    { c with
      token := (lookup .token).filter (!·.isEmpty)
      tokenParam := ((lookup .tokenParam).filter (!·.isEmpty)).getD c.tokenParam
      liveBackoff := ⟨initial .liveInitial, ceiling .liveCeiling⟩
      commandBackoff := ⟨initial .commandInitial, ceiling .commandCeiling⟩
      connectTimeout := millis (lookup .timeout) c.connectTimeout }
  c.validate
  .ok c

def ofLookup : (Variable → Option String) → Except Fault Config := ofLookupBy Url.read

/-- Variables and the bytes of their values. -/
abbrev Environment := List (String × List UInt8)

/-- A value that is no text counts as not set. -/
def Environment.lookup (env : Environment) (v : Variable) : Option String :=
  (List.lookup v.name env).bind fun bytes => (Text.Utf8.decode bytes).toOption

def ofEnvironment (env : Environment) : Except Fault Config := ofLookup env.lookup

def debugBounds (b : Backoff.Bounds) : String :=
  "BackoffConfig \x7b initial: " ++ b.initial.text ++ ", max: " ++ b.ceiling.text ++ " \x7d"

/-- The configuration in one line. The credential does not show. -/
def debug (c : Config) : String :=
  let token := if c.token.isSome then "Some(\"<redacted>\")" else "None"
  "LinkConfig \x7b live_url: " ++ Text.quoted c.liveUrl.text ++
    ", command_url: " ++ Text.quoted c.commandUrl.text ++
    ", command_token: " ++ token ++
    ", token_param: " ++ Text.quoted c.tokenParam ++
    ", live_backoff: " ++ debugBounds c.liveBackoff ++
    ", command_backoff: " ++ debugBounds c.commandBackoff ++
    ", connect_timeout: " ++ c.connectTimeout.text ++ " \x7d"

end Config

end TwinLink
