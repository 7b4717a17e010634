import TwinLink.LinkError
import TwinLink.Url.Basic

/-! Connections of the WebSocket protocol, and what its failures mean to a link. -/

namespace TwinLink.WebSocket

inductive Failure where
  /-- The server answered the handshake with another status. -/
  | http (status : Nat)
  | io (text : String)
  | emptyHostName
  | unsupportedScheme
  | unableToConnect (text : String)
  | noHostName
  | connectionClosed
  | alreadyClosed
  | attackAttempt
  | invalidUtf8 (text : String)
  | resetWithoutClosing
  deriving DecidableEq, Repr

/-- Failures that have to do with the address come with the connection, the others with an
open link. -/
def Failure.error : Failure → LinkError
  | http status => .rejected status
  | io text => .connect text
  | emptyHostName => .connect "URL contains empty host name"
  | unsupportedScheme => .connect "URL scheme not supported"
  | unableToConnect text => .connect s!"Unable to connect to {text}"
  | noHostName => .connect "No host name in the URL"
  | connectionClosed => .transport "Connection closed normally"
  | alreadyClosed => .transport "Trying to work with closed connection"
  | attackAttempt => .transport "Attack attempt detected"
  | invalidUtf8 text => .transport s!"UTF-8 encoding error: {text}"
  | resetWithoutClosing =>
    .transport "WebSocket protocol error: Connection reset without closing handshake"

theorem Failure.isTransient_error (f : Failure) : f.error.isTransient = true := by
  cases f <;> rfl

/-- What dialling an address comes to. -/
structure Network where
  dial : Url → Except Failure Unit

/-- A network on which no host can be reached. -/
def Network.unreachable : Network := ⟨fun _ => .error (.io "Network is unreachable")⟩

/-- Opens a connection. -/
def connect (network : Network) (url : Url) : Except LinkError Unit :=
  (network.dial url).mapError Failure.error

end TwinLink.WebSocket
