import TwinLink.Manager.Basic
import TwinLink.Rehearsal.Network

/-! A manager with listeners that note what they hear and react as told. Listeners have
names, and what was registered last under a name is known by it. -/

namespace TwinLink.Rehearsal.Manager

inductive Action where
  | connect
  | disconnect
  | send (c : Command)
  | subscribe (name : String) (script : List (Option Nat × Action))
  | watch (k : ChannelKind) (name : String) (script : List (Option Nat × Action))
  | unsubscribe (name : String)
  | active (name : String)
  | latest
  | debug
  /-- Gives the manager up. Only handles can be used after that. -/
  | drop

/-- What a listener does at its calls: at the call of that number or at each. -/
abbrev Script := List (Option Nat × Action)

structure Voice where
  name : String
  status : Bool
  script : Script
  calls : Nat

structure Cast where
  voices : List Voice
  handles : List (String × Roster.Handle)
  dropped : Bool

def Cast.empty : Cast := ⟨[], [], false⟩

inductive Answer where
  | nothing
  | unknown
  | noManager
  | active (b : Bool)
  | latest (s : Option Snapshot)
  | text (s : String)

/-- What the client has to do: an action, from outside or as a reaction, or to go on after a
registration. -/
inductive Item where
  | heard (voice : Nat) (e : Event)
  | act (reaction : Bool) (a : Action)
  | granted (reaction : Bool) (name : String) (id : Nat)
  | done (reaction : Bool) (a : Answer)

inductive Note where
  | snapshot (name : String) (sequence tick : Nat)
  | status (listener : String) (e : StatusEvent)
  | answered (a : Answer)

abbrev Reaction := TwinLink.Manager.Reaction Nat Item Cast Note

/-- The answer to an action from outside is noted. -/
def finished (reaction : Bool) (a : Answer) : List Note := if reaction then [] else [.answered a]

/-- Notes what a listener was called with and does what it does at that call. -/
def hear (voice : Nat) (e : Event) (c : Cast) : Reaction :=
  match c.voices[voice]? with
  | none => ⟨c, [], []⟩
  | some v =>
    let calls := v.calls + 1
    let c := { c with voices := c.voices.set voice { v with calls } }
    let note := match e with
      | .snapshot e => .snapshot v.name e.sequence e.snapshot.tick
      | .status e => .status v.name e
    let chosen := v.script.filter fun r => r.1.all (· == calls)
    ⟨c, [note], chosen.map fun r => .own (.act true r.2)⟩

/-- The handle that a name stands for is put behind those that are known. -/
def keep (name : String) (h : Roster.Handle) (c : Cast) : Cast :=
  { c with handles := (name, h) :: c.handles.filter (·.1 ≠ name) }

/-- A new listener, and a request to register it. -/
def enroll (name : String) (status : Bool) (script : Script)
    (request : Nat → TwinLink.Manager.Request Nat Item) (c : Cast) : Reaction :=
  ⟨{ c with voices := c.voices ++ [⟨name, status, script, 0⟩] }, [], [request c.voices.length]⟩

/-- An action on a manager that has not been given up. -/
def onManager (v : World.View) (h : Hub Nat) (reaction : Bool) (a : Action) (c : Cast) : Reaction :=
  let ask (request : TwinLink.Manager.Request Nat Item) : Reaction :=
    ⟨c, [], [request, .own (.done reaction .nothing)]⟩
  match a with
  | .connect => ask .connect
  | .disconnect => ask .disconnect
  | .send command => ask (.send command)
  | .subscribe name script =>
    enroll name false script (fun voice => .subscribe voice (.granted reaction name)) c
  | .watch k name script =>
    enroll name true script (fun voice => .watch k voice (.granted reaction name)) c
  | .latest => ⟨c, finished reaction (.latest h.latest), []⟩
  | .debug => ⟨c, finished reaction (.text (TwinLink.Manager.debug v h)), []⟩
  | .drop =>
    ⟨{ c with dropped := true }, [], [.release, .own (.done reaction .nothing)]⟩
  | _ => ⟨c, [], []⟩

def act (v : World.View) (h : Hub Nat) (reaction : Bool) (a : Action) (c : Cast) : Reaction :=
  match a with
  | .unsubscribe name =>
    match c.handles.lookup name with
    | none => ⟨c, finished reaction .unknown, []⟩
    | some handle =>
      ⟨keep name handle.release c, finished reaction (.active false),
        if handle.active then [.unsubscribe handle.id] else []⟩
  | .active name =>
    match c.handles.lookup name with
    | none => ⟨c, finished reaction .unknown, []⟩
    | some handle => ⟨c, finished reaction (.active handle.active), []⟩
  | a => if c.dropped then ⟨c, finished reaction .noManager, []⟩ else onManager v h reaction a c

def perform (v : World.View) (h : Hub Nat) (item : Item) (c : Cast) : Reaction :=
  match item with
  | .heard voice e => hear voice e c
  | .act reaction a => act v h reaction a c
  | .granted reaction name id =>
    ⟨keep name (.ofId id) c, finished reaction .nothing, []⟩
  | .done reaction a => ⟨c, finished reaction a, []⟩

def client : TwinLink.Manager.Client Nat Item Cast Note := ⟨.heard, perform⟩

abbrev System := TwinLink.Manager.System Nat Item Cast Note

def consumer := TwinLink.Manager.consumer client

end TwinLink.Rehearsal.Manager
