import TwinLink.Config
import TwinLink.Manager.Hub
import TwinLink.Stats
import TwinLink.World

/-! The manager of a link. It opens and tears down both channels, hands snapshots and changes
of status to listeners and sends commands. Every emission goes to the listeners that are
registered when it begins, in their order, whatever they do. A client supplies the
listeners: what a call of one means to it, and what it asks of the manager then. -/

namespace TwinLink.Manager

/-- What a client asks of the manager. A registration is answered with its number. -/
inductive Request (κ γ : Type) where
  | connect
  | disconnect
  /-- Both channels are torn down for good; what consumers read stays as it is. -/
  | release
  | send (c : Command)
  | subscribe (listener : κ) (reply : Nat → γ)
  | watch (channel : ChannelKind) (listener : κ) (reply : Nat → γ)
  | unsubscribe (id : Nat)
  /-- An item of the client's own. -/
  | own (item : γ)

/-- What comes of an item of the client. -/
structure Reaction (κ γ τ ν : Type) where
  state : τ
  notes : List ν
  requests : List (Request κ γ)

structure Client (κ γ τ ν : Type) where
  /-- The item that a call of a listener gives. -/
  hear : κ → Event → γ
  perform : World.View → Hub κ → γ → τ → Reaction κ γ τ ν

/-- What the manager has to do. -/
inductive Item (κ γ : Type) where
  | heard (channel : ChannelKind) (c : Socket.Callback)
  | request (r : Request κ γ)
  /-- A call of a listener, in an emission or for its registration. -/
  | call (emission : Option Nat) (id : Nat) (listener : κ) (e : Event)
  | discardLatest
  | sent (c : Command) (result : Except LinkError Unit)

/-- Notes of the client are of type `ν`. Its listeners are told apart by numbers, if not by
values of another type `κ`. -/
inductive Note (ν : Type) (κ : Type := Nat) where
  | log (record : Log)
  /-- An emission begins, to the registrations `ids`. -/
  | emitted (emission : Nat) (e : Event) (ids : List Nat)
  | called (emission : Option Nat) (id : Nat) (listener : κ) (e : Event)
  /-- A listener is registered, for snapshots or for the status of a channel. -/
  | registered (id : Nat) (status : Option ChannelKind) (listener : κ)
  | removed (id : Nat)
  /-- Both channels are about to be opened. -/
  | connecting
  /-- Both channels are about to be torn down. -/
  | disconnecting
  /-- Both channels are torn down and the latest snapshot is discarded. -/
  | disconnected
  | finished (c : Command) (result : Except LinkError Unit)
  | own (n : ν)

structure State (κ τ : Type) where
  hub : Hub κ
  client : τ

variable {κ γ τ ν : Type}

/-- The outcome of an item that leaves the client as it is. -/
def onHub (s : State κ τ) (hub : Hub κ) (notes : List (Note ν κ)) (next : List (Task (Item κ γ))) :
    World.Outcome (State κ τ) (Item κ γ) (Note ν κ) :=
  ⟨{ s with hub }, notes, next⟩

/-- Calls the listeners of a roster. -/
def emit (s : State κ τ) (hub : Hub κ) (logs : List Log) (r : Roster κ) (e : Event) :
    World.Outcome (State κ τ) (Item κ γ) (Note ν κ) :=
  onHub s { hub with emissions := hub.emissions + 1 }
    (logs.map .log ++ [.emitted hub.emissions e r.ids])
    (r.entries.map fun entry => .work (.call (some hub.emissions) entry.1 entry.2 e))

/-- A channel has opened or closed. Listeners hear of it if that is new. -/
def changeStatus (s : State κ τ) (k : ChannelKind) (connected : Bool) :
    World.Outcome (State κ τ) (Item κ γ) (Note ν κ) :=
  if s.hub.isConnected k = connected then onHub s s.hub [] []
  else
    emit s (s.hub.setConnected k connected)
      [.info (some k) "connectivity changed" [("connected", .flag connected)]]
      (s.hub.listeners k) (.status ⟨k, connected⟩)

/-- A snapshot has been decoded. One that is read after the channel closed is dropped. -/
def receive (s : State κ τ) (snapshot : Snapshot) :
    World.Outcome (State κ τ) (Item κ γ) (Note ν κ) :=
  if s.hub.liveConnected then
    let sequence := s.hub.sequence + 1
    emit s { s.hub with latest := some snapshot, sequence } [] s.hub.snapshots
      (.snapshot ⟨snapshot, sequence⟩)
  else onHub s s.hub [] []

def hear (s : State κ τ) (k : ChannelKind) (c : Socket.Callback) :
    World.Outcome (State κ τ) (Item κ γ) (Note ν κ) :=
  match k, c with
  | .command, .status connected => changeStatus s .command connected
  | .command, _ => onHub s s.hub [] []
  | .live, c =>
    match Feed.meaning c with
    | .status connected => changeStatus s .live connected
    | .snapshot snapshot => receive s snapshot
    | .failure e preview =>
      onHub s { s.hub with decodeFailures := s.hub.decodeFailures + 1 }
        [.log (Feed.failureLog e preview)] []

/-- What became of a command. -/
def conclude (s : State κ τ) (c : Command) (result : Except LinkError Unit) :
    World.Outcome (State κ τ) (Item κ γ) (Note ν κ) :=
  onHub s { s.hub with tally := s.hub.tally.count result }
    ((Tally.log c result).map .log ++ [.finished c result]) []

def answer (s : State κ τ) : Request κ γ → World.Outcome (State κ τ) (Item κ γ) (Note ν κ)
  | .connect =>
    onHub s s.hub [.connecting, .log (.info none "connecting" [])]
      [.connect .live, .connect .command]
  | .disconnect =>
    onHub s s.hub [.disconnecting] [.teardown .live, .teardown .command, .work .discardLatest]
  | .release => onHub s s.hub [] [.teardown .live, .teardown .command]
  | .send c =>
    match c.encode with
    | .ok text => onHub s s.hub [] [.send .command text (.sent c)]
    | .error e => conclude s c (.error e)
  | .subscribe listener reply =>
    let id := s.hub.registrations
    onHub s (s.hub.subscribe listener) [.registered id none listener]
      [.work (.request (.own (reply id)))]
  | .watch k listener reply =>
    let id := s.hub.registrations
    onHub s (s.hub.watch k listener) [.registered id (some k) listener]
      [.work (.call none id listener (.status ⟨k, s.hub.isConnected k⟩)),
        .work (.request (.own (reply id)))]
  | .unsubscribe id => onHub s (s.hub.unsubscribe id) [.removed id] []
  | .own _ => onHub s s.hub [] []

/-- Lets the client deal with an item of its own. -/
def consult (C : Client κ γ τ ν) (v : World.View) (item : γ) (notes : List (Note ν κ))
    (s : State κ τ) : World.Outcome (State κ τ) (Item κ γ) (Note ν κ) :=
  let r := C.perform v s.hub item s.client
  ⟨{ s with client := r.state }, notes ++ r.notes.map .own,
    r.requests.map fun request => .work (.request request)⟩

def perform (C : Client κ γ τ ν) (v : World.View) (item : Item κ γ) (s : State κ τ) :
    World.Outcome (State κ τ) (Item κ γ) (Note ν κ) :=
  match item with
  | .heard k c => hear s k c
  | .request (.own item) => consult C v item [] s
  | .request r => answer s r
  | .call emission id listener e =>
    consult C v (C.hear listener e) [.called emission id listener e] s
  | .discardLatest =>
    onHub s { s.hub with latest := none } [.disconnected, .log (.info none "disconnected" [])] []
  | .sent c result => conclude s c result

/-- The manager as the consumer of two sockets. -/
def consumer (C : Client κ γ τ ν) : World.Consumer (State κ τ) (Item κ γ) (Note ν κ) :=
  ⟨.heard, perform C⟩

/-- A manager with its sockets, before anything has been asked of it. -/
abbrev System (κ γ τ ν : Type) := World (State κ τ) (Item κ γ) (Note ν κ)

def request (r : Request κ γ) : Task (Item κ γ) := .work (.request r)

/-- The sockets of a configuration, over networks that answer by scripts. -/
def ofConfig (c : Config) (live command : List (Reply Socket.Answer)) (client : τ) :
    System κ γ τ ν :=
  let w := World.ofSockets
    (.ofSettings ⟨.live, c.liveUrl, c.liveBackoff, c.connectTimeout⟩ live)
    (.ofSettings ⟨.command, c.commandEndpoint, c.commandBackoff, c.connectTimeout⟩ command)
    ⟨.empty, client⟩
  if c.token.isSome then w
  else
    w.record [.note (.log
      (.warn none "no command token configured, the backend may reject commands" []))]

/-- The manager of a valid configuration. Without a runtime for its drivers there is none. -/
def create (c : Config) (runtime : Bool) (live command : List (Reply Socket.Answer)) (client : τ) :
    Except LinkError (System κ γ τ ν) :=
  match c.validate with
  | .error fault => .error fault.error
  | .ok _ =>
    if runtime then .ok (ofConfig c live command client)
    else .error (.runtime "no drivers can run here")

def stats (v : World.View) (h : Hub κ) : Stats :=
  { snapshotsReceived := h.sequence
    decodeFailures := h.decodeFailures
    commandsSent := h.tally.sent
    commandsDropped := h.tally.dropped
    liveReconnects := v.live.reconnects
    commandReconnects := v.command.reconnects }

/-- The manager in one line. -/
def debug (v : World.View) (h : Hub κ) : String :=
  "ConnectionManager \x7b live: " ++ Feed.debug v.live ++
    ", command: " ++ h.tally.debug v.command ++
    ", stats: " ++ (stats v h).debug ++ " \x7d"

end TwinLink.Manager
