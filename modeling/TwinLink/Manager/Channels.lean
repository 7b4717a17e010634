import TwinLink.Command
import TwinLink.Event
import TwinLink.Socket.Basic

/-! What the two channels make of their sockets. The live channel decodes every message as a
snapshot; what it cannot decode is counted, logged and dropped. The command channel sends
encoded commands and counts those that it sent and those that it dropped. -/

namespace TwinLink

namespace Feed

/-- The number of characters of a message that a log shows. -/
def previewLength : Nat := 120

/-- What a callback of the live socket means. -/
inductive Meaning where
  | status (connected : Bool)
  | snapshot (s : Snapshot)
  | failure (e : LinkError) (preview : String)

def meaning : Socket.Callback → Meaning
  | .status connected => .status connected
  | .message text =>
    match Snapshot.decode text with
    | .ok s => .snapshot s
    | .error fault =>
      .failure (.decode fault.message) (String.ofList (text.toList.take previewLength))
  | .undecodable e => .failure e "<binary>"

def failureLog (e : LinkError) (preview : String) : Log :=
  .warn (some .live) "dropping undecodable snapshot" (Log.ofError e ++ [("preview", .text preview)])

end Feed

/-- Counters of the command channel, natural numbers like those of a `Hub`. -/
structure Tally where
  sent : Nat
  dropped : Nat
  deriving DecidableEq, Repr

namespace Tally

def zero : Tally := ⟨0, 0⟩

/-- Counts a command by what became of it. -/
def count (result : Except LinkError Unit) (t : Tally) : Tally :=
  match result with
  | .ok _ => { t with sent := t.sent + 1 }
  | .error _ => { t with dropped := t.dropped + 1 }

def log (c : Command) : Except LinkError Unit → List Log
  | .ok _ => []
  | .error e =>
    [.warn (some .command) "command dropped" (("command", .text c.type) :: Log.ofError e)]

theorem total_count (result : Except LinkError Unit) (t : Tally) :
    (t.count result).sent + (t.count result).dropped = t.sent + t.dropped + 1 := by
  cases result <;> simp only [count] <;> omega

end Tally

/-- The live channel in one line. -/
def Feed.debug (s : Socket) : String := "SnapshotChannel \x7b socket: " ++ s.debug ++ " \x7d"

/-- The command channel in one line. -/
def Tally.debug (t : Tally) (s : Socket) : String :=
  "CommandChannel \x7b socket: " ++ s.debug ++ s!", sent: {t.sent}, dropped: {t.dropped} " ++ "\x7d"

end TwinLink
