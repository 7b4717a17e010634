import TwinLink.Json.Printer

/-! Counters of a link. -/

namespace TwinLink

structure Stats where
  snapshotsReceived : Nat := 0
  decodeFailures : Nat := 0
  commandsSent : Nat := 0
  commandsDropped : Nat := 0
  liveReconnects : Nat := 0
  commandReconnects : Nat := 0
  deriving DecidableEq

namespace Stats

def fields (s : Stats) : List (String × Nat) :=
  [("snapshots_received", s.snapshotsReceived), ("decode_failures", s.decodeFailures),
    ("commands_sent", s.commandsSent), ("commands_dropped", s.commandsDropped),
    ("live_reconnects", s.liveReconnects), ("command_reconnects", s.commandReconnects)]

def line (f : String × Nat) : List Char :=
  [' ', ' '] ++ Json.stringChars f.1 ++ [':', ' '] ++ Json.naturalChars f.2

/-- A JSON object with a line for each counter. -/
def pretty (s : Stats) : String :=
  String.ofList <|
    ['{', '\n'] ++ ((s.fields.map line).intersperse [',', '\n']).flatten ++ ['\n', '}']

/-- The counters in one line, as diagnostics show them. -/
def debug (s : Stats) : String :=
  let fields := s.fields.map fun f => s!"{f.1}: {f.2}"
  "LinkStats \x7b " ++ String.intercalate ", " fields ++ " \x7d"

end Stats

end TwinLink
