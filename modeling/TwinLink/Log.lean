import TwinLink.LinkError

/-! Records of a log: what happened, on which channel if on one, and named details. -/

namespace TwinLink

inductive Log.Level where
  | info
  | warn
  deriving DecidableEq, Repr

inductive Log.Detail where
  | text (s : String)
  | number (n : Nat)
  | flag (b : Bool)
  deriving DecidableEq, Repr

structure Log where
  level : Log.Level
  channel : Option ChannelKind
  message : String
  details : List (String × Log.Detail)
  deriving DecidableEq, Repr

namespace Log

def Level.name : Level → String
  | info => "info"
  | warn => "warn"

def info (channel : Option ChannelKind) (message : String)
    (details : List (String × Detail)) : Log :=
  ⟨.info, channel, message, details⟩

def warn (channel : Option ChannelKind) (message : String)
    (details : List (String × Detail)) : Log :=
  ⟨.warn, channel, message, details⟩

/-- An error with its label. -/
def ofError (e : LinkError) : List (String × Detail) :=
  [("error", .text e.message), ("error_kind", .text e.label)]

end Log

end TwinLink
