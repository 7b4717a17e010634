import TwinLink.ChannelKind
import TwinLink.Json.Printer
import TwinLink.Snapshot

/-! What listeners are told: a snapshot with its number, or that a channel opened or closed. -/

namespace TwinLink

/-- A decoded snapshot. The first one has the number 1 and each next one the next number. -/
structure SnapshotEvent where
  snapshot : Snapshot
  sequence : Nat

structure StatusEvent where
  channel : ChannelKind
  connected : Bool
  deriving DecidableEq

/-- The members of a status event that is stamped with the time `timestamp`. -/
def StatusEvent.members (e : StatusEvent) (timestamp : String) : Json.Members :=
  [("channel", .string e.channel.name), ("connected", .bool e.connected),
    ("timestamp", .string timestamp)]

end TwinLink
