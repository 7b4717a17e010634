import TwinLink.Manager.Channels
import TwinLink.Rehearsal.Network
import TwinLink.World

/-! One channel with a handler that notes what it hears and reacts as told. The handler
stands for a bare socket, for the live channel or for the command channel. -/

namespace TwinLink.Rehearsal.Channel

/-- What the handler is. A silent one does not hear of frames that are no text. -/
inductive Role where
  | socket
  | silent
  | live
  | command
  deriving DecidableEq, Repr

/-- The callbacks that may have reactions. -/
inductive Trigger where
  | opened
  | closed
  | message
  | undecodable
  deriving DecidableEq, Repr

/-- What is sent: a text, or a command by the command channel. -/
inductive Payload where
  | text (s : String)
  | command (c : Command)

inductive Action where
  | connect
  | teardown
  | send (p : Payload)
  | read
  | debug

/-- An action in reaction to a callback, at its `call`-th time or each time. -/
structure Reaction where
  trigger : Trigger
  call : Option Nat
  action : Action

structure Handler where
  role : Role
  kind : ChannelKind
  reactions : List Reaction
  /-- The callbacks so far. -/
  heard : List Trigger
  failures : Nat
  tally : Tally

def Handler.ofRole (role : Role) (kind : ChannelKind) (reactions : List Reaction) : Handler :=
  { role
    kind := match role with
      | .live => .live
      | .command => .command
      | _ => kind
    reactions
    heard := []
    failures := 0
    tally := .zero }

/-- What can be read of the channel at a time. -/
structure Reading where
  role : Role
  kind : ChannelKind
  state : Machine.State
  delay : Duration
  attempts : Nat
  reconnects : Nat
  failures : Nat
  tally : Tally

def reading (h : Handler) (s : Socket) : Reading :=
  { role := h.role
    kind := s.kind
    state := s.state
    delay := s.machine.delay
    attempts := s.attempts
    reconnects := s.reconnects
    failures := h.failures
    tally := h.tally }

def debug (h : Handler) (s : Socket) : String :=
  match h.role with
  | .live => Feed.debug s
  | .command => h.tally.debug s
  | _ => s.debug

/-- The result of an action. -/
inductive Answer where
  | nothing
  | sent (result : Except LinkError Unit)
  | reading (r : Reading)
  | text (s : String)

inductive Item where
  | heard (k : ChannelKind) (c : Socket.Callback)
  /-- An action, asked for from outside or as a reaction. -/
  | act (reaction : Bool) (a : Action)
  | sent (reaction : Bool) (p : Payload) (result : Except LinkError Unit)
  | done (reaction : Bool) (a : Answer)

inductive Note where
  | status (connected : Bool)
  | message (s : String)
  | undecodable (e : LinkError)
  | reacted (a : Answer)
  | answered (a : Answer)
  | log (record : Log)

abbrev Outcome := World.Outcome Handler Item Note

/-- The reactions to a trigger that has just been heard once more. -/
def react (h : Handler) (t : Trigger) : Handler × List (Task Item) :=
  let h := { h with heard := t :: h.heard }
  let call := h.heard.count t
  let chosen := h.reactions.filter fun r => r.trigger = t && r.call.all (· == call)
  (h, chosen.map fun r => .work (.act true r.action))

/-- Notes what was heard and reacts. -/
def note (h : Handler) (n : Note) (t : Trigger) : Outcome :=
  let (h, next) := react h t
  ⟨h, [n], next⟩

def hear (h : Handler) (c : Socket.Callback) : Outcome :=
  match h.role, c with
  | _, .status connected => note h (.status connected) (if connected then .opened else .closed)
  | .live, c =>
    match Feed.meaning c with
    | .snapshot s => note h (.message s.text) .message
    | .failure e preview =>
      ⟨{ h with failures := h.failures + 1 }, [.log (Feed.failureLog e preview)], []⟩
    | .status _ => ⟨h, [], []⟩
  | .command, _ => ⟨h, [], []⟩
  | _, .message s => note h (.message s) .message
  | .silent, .undecodable _ => ⟨h, [], []⟩
  | .socket, .undecodable e => note h (.undecodable e) .undecodable

def finished (reaction : Bool) (a : Answer) : Note :=
  if reaction then .reacted a else .answered a

/-- What became of what was sent. Commands are counted. -/
def sent (h : Handler) (reaction : Bool) (p : Payload) (result : Except LinkError Unit) :
    Outcome :=
  match p with
  | .text _ => ⟨h, [finished reaction (.sent result)], []⟩
  | .command c =>
    ⟨{ h with tally := h.tally.count result },
      (Tally.log c result).map .log ++ [finished reaction (.sent result)], []⟩

def act (v : World.View) (h : Handler) (reaction : Bool) : Action → Outcome
  | .connect => ⟨h, [], [.connect h.kind, .work (.done reaction .nothing)]⟩
  | .teardown => ⟨h, [], [.teardown h.kind, .work (.done reaction .nothing)]⟩
  | .send (.text s) => ⟨h, [], [.send h.kind s (.sent reaction (.text s))]⟩
  | .send (.command c) =>
    match c.encode with
    | .ok text => ⟨h, [], [.send h.kind text (.sent reaction (.command c))]⟩
    | .error e => sent h reaction (.command c) (.error e)
  | .read => ⟨h, [finished reaction (.reading (reading h (v.socket h.kind)))], []⟩
  | .debug => ⟨h, [finished reaction (.text (debug h (v.socket h.kind)))], []⟩

def perform (v : World.View) (item : Item) (h : Handler) : Outcome :=
  match item with
  | .heard _ c => hear h c
  | .act reaction a => act v h reaction a
  | .sent reaction p result => sent h reaction p result
  | .done reaction a => ⟨h, [finished reaction a], []⟩

def consumer : World.Consumer Handler Item Note := ⟨.heard, perform⟩

end TwinLink.Rehearsal.Channel
