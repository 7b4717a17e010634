import TwinLink.ChannelKind
import TwinLink.Url.Fault

/-! The errors of a link. Each has a label for logs and a text. The errors of the network
are transient: reconnecting recovers from them. -/

namespace TwinLink

inductive LinkError where
  | invalidConfig (detail : String)
  | invalidUrl (fault : Url.Fault)
  | runtime (detail : String)
  | connect (detail : String)
  | connectTimeout (milliseconds : Nat)
  | rejected (status : Nat)
  | transport (detail : String)
  | notReady (channel : ChannelKind)
  | decode (detail : String)
  | encode (detail : String)
  | invalidCommand (detail : String)
  deriving DecidableEq, Repr

namespace LinkError

def label : LinkError → String
  | invalidConfig _ => "invalid_config"
  | invalidUrl _ => "invalid_url"
  | runtime _ => "runtime"
  | connect _ => "connect"
  | connectTimeout _ => "connect_timeout"
  | rejected _ => "rejected"
  | transport _ => "transport"
  | notReady _ => "not_ready"
  | decode _ => "decode"
  | encode _ => "encode"
  | invalidCommand _ => "invalid_command"

def message : LinkError → String
  | invalidConfig detail => s!"invalid configuration: {detail}"
  | invalidUrl fault => s!"invalid endpoint url: {fault.message}"
  | runtime detail => s!"no async runtime available: {detail}"
  | connect detail => s!"connect failed: {detail}"
  | connectTimeout milliseconds => s!"connect timed out after {milliseconds} ms"
  | rejected status => s!"handshake rejected with http status {status}"
  | transport detail => s!"transport error: {detail}"
  | notReady channel => s!"{channel.name} channel not ready"
  | decode detail => s!"decode error: {detail}"
  | encode detail => s!"encode error: {detail}"
  | invalidCommand detail => s!"invalid command: {detail}"

/-- The text of the fault behind an error, if it has one of its own. -/
def cause? : LinkError → Option String
  | invalidUrl fault => some fault.message
  | _ => none

def isTransient : LinkError → Bool
  | connect _ | connectTimeout _ | rejected _ | transport _ => true
  | _ => false

end LinkError

end TwinLink
