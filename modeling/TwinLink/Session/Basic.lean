import TwinLink.Console
import TwinLink.Manager.Basic

/-! A console session. It opens both channels, takes lines one after another and closes the
channels when the lines end, when one of them quits or when one is no text. Between two
lines drivers, peers and the clock go on by themselves, which is what a turn begins with. -/

namespace TwinLink

namespace Session

/-- The record that a listener of a session makes of what it hears. -/
def record : Event → Log
  | .snapshot e =>
    .info none "snapshot"
      [("tick", .number e.snapshot.tick), ("sequence", .number e.sequence),
        ("status", .text (e.snapshot.status.getD "-")),
        ("sections", .number e.snapshot.sections.length)]
  | .status e => .info (some e.channel) "status" [("connected", .flag e.connected)]

/-- The listeners of a session make records and ask for nothing. -/
def client : Manager.Client Unit (Option Log) Unit Log :=
  { hear := fun _ e => some (record e)
    perform := fun _ _ made state => ⟨state, made.toList, []⟩ }

abbrev System := Manager.System Unit (Option Log) Unit Log

abbrev Request := Manager.Request Unit (Option Log)

abbrev Label := World.Label (Manager.Item Unit (Option Log))

def consumer : World.Consumer (Manager.State Unit Unit) (Manager.Item Unit (Option Log))
    (Manager.Note Log Unit) :=
  Manager.consumer client

/-- More tasks than a request or a callback gives rise to. -/
def effort : Nat := 64

def System.request (r : Request) (w : System) : System :=
  w.ask consumer effort (Manager.request r)

/-- What goes on between two lines; the program asks for nothing meanwhile. -/
def System.elapse (labels : List Label) (w : System) : System :=
  (w.run consumer (labels.filter (!·.isCall))).finish consumer effort

/-- What a session prints. -/
inductive Output where
  | help
  | stats (s : Stats)
  | fault (f : Console.Fault)
  deriving DecidableEq

namespace Output

/-- What goes to the standard output. -/
def standard : Output → String
  | help => Console.help ++ "\n"
  | stats s => s.pretty ++ "\n"
  | fault _ => ""

/-- What goes to the error output. -/
def error : Output → String
  | fault f => f.error.message ++ "\n" ++ Console.help ++ "\n"
  | _ => ""

end Output

inductive Ending where
  | done
  | unreadable (fault : Text.Utf8.Fault)
  deriving DecidableEq

end Session

structure Session where
  system : Session.System
  printed : List Session.Output
  /-- How the session has ended, if it has. -/
  ending : Option Session.Ending

namespace Session

def print (o : Output) (s : Session) : Session := { s with printed := s.printed ++ [o] }

def request (r : Request) (s : Session) : Session := { s with system := s.system.request r }

def stats (s : Session) : Stats := Manager.stats s.system.view s.system.state.hub

/-- A session over networks that answer by scripts: listeners are registered, both channels
opened and the help printed. -/
def begin (c : Config) (live command : List (Reply Socket.Answer)) : Session :=
  let w := Manager.ofConfig c live command ()
  let s : Session := ⟨w, [], none⟩
  let s := s.request (.subscribe () fun _ => none)
  let s := s.request (.watch .live () fun _ => none)
  let s := s.request (.watch .command () fun _ => none)
  (s.request .connect).print .help

/-- Disconnects both channels; no line is taken after that. -/
def finish (s : Session) : Session := { s.request .disconnect with ending := some .done }

/-- Does what a line asks for. A line that asks for nothing is answered by its fault. -/
def obey (input : Except Console.Fault Console.Input) (s : Session) : Session :=
  match input with
  | .ok (.send c) => s.request (.send c)
  | .ok .stats => s.print (.stats s.stats)
  | .ok .help => s.print .help
  | .ok .quit => s.finish
  | .ok .empty => s
  | .error fault => s.print (.fault fault)

/-- A line and what goes on before it. -/
structure Turn where
  before : List Label
  line : Except Text.Utf8.Fault String

/-- Takes a line, unless the session has ended. A line that is no text ends it. -/
def turn (s : Session) (t : Turn) : Session :=
  if s.ending.isSome then s
  else
    let s := { s with system := s.system.elapse t.before }
    match t.line with
    | .ok line => s.obey (Console.parse line)
    | .error fault => { s.request .release with ending := some (.unreadable fault) }

/-- The lines have come to an end, after what went on behind the last one. -/
def conclude (s : Session) (before : List Label) : Session :=
  if s.ending.isSome then s else { s with system := s.system.elapse before }.finish

def run (turns : List Turn) (last : List Label) (s : Session) : Session :=
  (turns.foldl turn s).conclude last

end Session

end TwinLink
