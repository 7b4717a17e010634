import TwinLink.Log
import TwinLink.Machine
import TwinLink.Socket.Link
import TwinLink.Text.Quoted
import TwinLink.Url.Basic

/-! A socket: one logical connection for a channel. Drivers connect it, move frames and
connect it again; the newest one has the generation of the machine, and a driver that a
teardown has released may still be closing its link. Callbacks tell a handler of changes and
messages. -/

namespace TwinLink

namespace Socket

/-- How long writing one text may take. -/
def writeLimit : Nat := 5000

/-- How long closing a link may take. -/
def closeLimit : Nat := 2000

/-- How long after a teardown a driver is aborted that still runs. -/
def reapLimit : Nat := writeLimit + closeLimit

structure Settings where
  kind : ChannelKind
  url : Url
  backoff : Backoff.Bounds
  timeout : Duration

/-- What is told to a handler. -/
inductive Callback where
  | status (connected : Bool)
  | message (text : String)
  | undecodable (e : LinkError)
  deriving DecidableEq, Repr

/-- How a write will end. -/
inductive Fate where
  | written
  | failed
  | stalled
  deriving DecidableEq, Repr

def Fate.ofReply : Reply (Except LinkError Unit) → Fate
  | .after _ (.ok _) => .written
  | .after _ (.error _) => .failed
  | .never => .stalled

/-- What happens on a socket, callbacks apart. Links have the number of their place in the
order in which they came about. -/
inductive Happening where
  /-- The network is asked for a connection. -/
  | attempt (url : String)
  /-- The channel is open on a link. -/
  | opened (link : Nat)
  /-- A text has been accepted for a link. -/
  | queued (link : Nat) (text : String)
  /-- What came in on a link has been read. -/
  | read (link : Nat) (item : Inbound)
  /-- A text goes out on a link. -/
  | write (link : Nat) (text : String) (fate : Fate)
  /-- The wish of the client to close a link has been taken from its queue. -/
  | dismissed (link : Nat)
  /-- A link is left and asked to close. -/
  | close (link : Nat)
  /-- The halves of a link are released. -/
  | released (link : Nat)
  /-- The connection of the session has ended, or has not come about. -/
  | ended
  | log (record : Log)
  deriving DecidableEq, Repr

/-- The answer to an attempt to connect: a link that will behave by a plan, or an error. -/
abbrev Answer := Except LinkError Link.Plan

/-- Where a driver stands. -/
inductive Phase where
  /-- It has not begun. -/
  | queued
  /-- It waits for the network, at most until `deadline`. -/
  | connecting (answer : Option (Nat × Answer)) (deadline : Nat)
  /-- It has a link and is about to say so. -/
  | announcing (link : Nat)
  /-- It moves frames. -/
  | pumping (link : Nat)
  /-- It waits for a write. -/
  | writing (link : Nat) (answer : Option (Nat × Except LinkError Unit)) (deadline : Nat)
  /-- It waits for the link to close. -/
  | closing (link : Nat) (answer : Option (Nat × Unit)) (deadline : Nat)
  /-- It has no link and is about to report that. -/
  | ending
  /-- It has reported the end and is about to wait. -/
  | retiring (delay : Duration)
  /-- It waits to connect again. -/
  | waiting (due : Nat)
  | finished
  deriving Inhabited

structure Driver where
  generation : UInt64
  phase : Phase
  /-- It is to end as soon as it does not run. -/
  aborted : Bool
  /-- When it is aborted if it has not finished by then. -/
  reapAt : Option Nat

def Phase.link? : Phase → Option Nat
  | announcing link | pumping link | writing link .. | closing link .. => some link
  | _ => none

def Phase.isFinished : Phase → Bool
  | finished => true
  | _ => false

end Socket

structure Socket where
  settings : Socket.Settings
  /-- How the network answers the attempts to come; behind its end it refuses. -/
  script : List (Reply Socket.Answer)
  machine : Machine
  /-- The last status told to the handler. -/
  announced : Bool
  /-- The link whose queue takes what is sent. -/
  sender : Option Nat
  /-- The driver of the session. -/
  driver : Option Nat
  /-- The driver that a teardown has released. -/
  parting : Option Nat
  /-- The number of attempts to connect; like `reconnects` it stands for a word of 64 bits. -/
  attempts : Nat
  /-- The number of waits that have led to an attempt. -/
  reconnects : Nat
  drivers : List Socket.Driver
  links : List Link

namespace Socket

def ofSettings (settings : Settings) (script : List (Reply Answer)) : Socket :=
  { settings, script
    machine := .ofBounds settings.backoff
    announced := false
    sender := none
    driver := none
    parting := none
    attempts := 0
    reconnects := 0
    drivers := []
    links := [] }

def kind (s : Socket) : ChannelKind := s.settings.kind

def state (s : Socket) : Machine.State := s.machine.state

/-- The socket in one line. -/
def debug (s : Socket) : String :=
  let channel := match s.kind with
    | .live => "Live"
    | .command => "Command"
  "TransportSocket \x7b channel: " ++ channel ++ ", url: " ++ Text.quoted s.settings.url.text ++
    ", state: " ++ s.state.title ++ ", .. \x7d"

def modifyDriver (i : Nat) (f : Driver → Driver) (s : Socket) : Socket :=
  { s with drivers := s.drivers.modify i f }

def modifyLink (i : Nat) (f : Link → Link) (s : Socket) : Socket :=
  { s with links := s.links.modify i f }

def setPhase (i : Nat) (phase : Phase) (s : Socket) : Socket :=
  s.modifyDriver i fun d => { d with phase }

def abort (i : Option Nat) (s : Socket) : Socket :=
  match i with
  | some i => s.modifyDriver i fun d => { d with aborted := true }
  | none => s

def phase (s : Socket) (i : Nat) : Phase := (s.drivers[i]?.map Driver.phase).getD .finished

def isAborted (s : Socket) (i : Nat) : Bool := (s.drivers[i]?.map Driver.aborted).getD false

def isHeld (s : Socket) (link : Nat) : Bool := (s.links[link]?.map Link.held).getD false

/-- What an operation leads to. -/
structure Move where
  socket : Socket
  seen : List Happening
  callback : Option Callback

namespace Move

def silent (s : Socket) : Move := ⟨s, [], none⟩

end Move

def logInfo (s : Socket) (message : String) (details : List (String × Log.Detail)) : Happening :=
  .log (.info s.kind message details)

def logWarn (s : Socket) (message : String) (details : List (String × Log.Detail)) : Happening :=
  .log (.warn s.kind message details)

/-- Begins a session unless one is connecting or open. The drivers of earlier sessions are
aborted. -/
def connect (s : Socket) : Move :=
  match s.machine.beginOpen with
  | none => .silent s
  | some machine =>
    let s := (s.abort s.parting).abort s.driver
    .silent
      { s with
        machine
        parting := none
        driver := some s.drivers.length
        drivers := s.drivers ++ [⟨machine.generation, .queued, false, none⟩] }

/-- Ends the session. A driver with a link is released: it writes what is queued and closes
the link, and is aborted later if it takes too long. Any other driver is aborted at once. -/
def teardown (now : Nat) (s : Socket) : Move :=
  let previous := s.state
  let asked := s.sender.filter s.isHeld
  let t := match asked with
    | some link => s.modifyLink link (·.request .close)
    | none => s
  let t := match asked, s.driver with
    | some _, some i =>
      { t.modifyDriver i (fun d => { d with reapAt := some (now + reapLimit) }) with
        parting := some i }
    | none, some _ => t.abort s.driver
    | _, none => t
  { socket :=
      { t with
        machine := s.machine.teardown
        sender := none
        driver := none
        announced := false }
    seen :=
      if previous = .closed then []
      else [s.logInfo "channel torn down" [("from", .text previous.name)]]
    callback := if s.announced then some (.status false) else none }

/-- Queues a text on the link of an open channel; nothing is kept for later. -/
def send (text : String) (s : Socket) : Except LinkError Move :=
  match s.sender.filter s.isHeld with
  | some link =>
    if s.state = .opened then
      .ok ⟨s.modifyLink link (·.request (.text text)), [.queued link text], none⟩
    else .error (.notReady s.kind)
  | none => .error (.notReady s.kind)

/-- The peer of a link sends. -/
def arrive (link : Nat) (item : Inbound) (s : Socket) : Socket :=
  s.modifyLink link (·.arrive item)

/-- The peer of a link goes away. -/
def hangUp (link : Nat) (s : Socket) : Socket := s.modifyLink link Link.hangUp

@[simp] theorem settings_modifyDriver (i : Nat) (f : Driver → Driver) (s : Socket) :
    (s.modifyDriver i f).settings = s.settings := rfl

@[simp] theorem settings_modifyLink (i : Nat) (f : Link → Link) (s : Socket) :
    (s.modifyLink i f).settings = s.settings := rfl

@[simp] theorem settings_abort (i : Option Nat) (s : Socket) :
    (s.abort i).settings = s.settings := by
  cases i <;> rfl

@[simp] theorem settings_connect (s : Socket) : s.connect.socket.settings = s.settings := by
  unfold connect
  split <;> simp [Move.silent]

end Socket

end TwinLink
