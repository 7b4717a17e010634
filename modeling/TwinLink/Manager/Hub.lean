import TwinLink.Manager.Channels
import TwinLink.Roster

/-! What consumers of a link read: the latest snapshot, whether each channel is connected,
and the listeners. -/

namespace TwinLink

/-- What a listener is called with. -/
inductive Event where
  | snapshot (e : SnapshotEvent)
  | status (e : StatusEvent)

/-- What is kept for the consumers of a link. The counters are natural numbers; they stand for
words of 64 bits, from which they differ after 2 ^ 64 events only. -/
structure Hub (κ : Type) where
  latest : Option Snapshot
  /-- The number of snapshots delivered. -/
  sequence : Nat
  liveConnected : Bool
  commandConnected : Bool
  snapshots : Roster κ
  liveStatus : Roster κ
  commandStatus : Roster κ
  /-- The number of registrations so far. -/
  registrations : Nat
  /-- The number of emissions so far. -/
  emissions : Nat
  decodeFailures : Nat
  tally : Tally

namespace Hub

variable {κ : Type}

def empty : Hub κ :=
  { latest := none
    sequence := 0
    liveConnected := false
    commandConnected := false
    snapshots := .empty
    liveStatus := .empty
    commandStatus := .empty
    registrations := 0
    emissions := 0
    decodeFailures := 0
    tally := .zero }

def isConnected (h : Hub κ) : ChannelKind → Bool
  | .live => h.liveConnected
  | .command => h.commandConnected

def setConnected (h : Hub κ) (k : ChannelKind) (connected : Bool) : Hub κ :=
  match k with
  | .live => { h with liveConnected := connected }
  | .command => { h with commandConnected := connected }

def listeners (h : Hub κ) : ChannelKind → Roster κ
  | .live => h.liveStatus
  | .command => h.commandStatus

/-- Registers a listener of snapshots. -/
def subscribe (h : Hub κ) (listener : κ) : Hub κ :=
  { h with
    snapshots := h.snapshots.insert h.registrations listener
    registrations := h.registrations + 1 }

/-- Registers a listener of the status of a channel. -/
def watch (h : Hub κ) (k : ChannelKind) (listener : κ) : Hub κ :=
  match k with
  | .live =>
    { h with
      liveStatus := h.liveStatus.insert h.registrations listener
      registrations := h.registrations + 1 }
  | .command =>
    { h with
      commandStatus := h.commandStatus.insert h.registrations listener
      registrations := h.registrations + 1 }

/-- Removes a registration. Numbers are unique, so it stands in one list at most. -/
def unsubscribe (h : Hub κ) (id : Nat) : Hub κ :=
  { h with
    snapshots := h.snapshots.remove id
    liveStatus := h.liveStatus.remove id
    commandStatus := h.commandStatus.remove id }

end Hub

end TwinLink
