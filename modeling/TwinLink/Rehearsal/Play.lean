import TwinLink.Schedule

/-! The course of a rehearsal: the program asks, peers send or go away, and time passes. After
each step everything goes on until only time can change anything, unless the step says
otherwise. -/

namespace TwinLink.Rehearsal

inductive Step (ι : Type) where
  | ask (t : Task ι)
  | advance (milliseconds : Nat)
  /-- The peer of a link sends; without a number it is the newest link. -/
  | frames (k : ChannelKind) (link : Option Nat) (items : List Inbound)
  | dropPeer (k : ChannelKind) (link : Option Nat)

/-- What a peer finds. -/
inductive Found where
  | nothing
  | noLink
  | peerGone
  /-- Whether the client still held the link, for each item. -/
  | held (items : List Bool)
  /-- Whether there was a peer to drop. -/
  | dropped (b : Bool)
  deriving DecidableEq, Repr

variable {σ ι ε : Type}

/-- Steps after which a rehearsal is stopped that does not come to rest. -/
def patience : Nat := 100000

/-- The number of a link and the link. -/
def link? (w : World σ ι ε) (k : ChannelKind) (link : Option Nat) : Option (Nat × Link) :=
  let links := (w.socket k).links
  let i := link.getD (links.length - 1)
  links[i]?.map (i, ·)

def Step.play (C : World.Consumer σ ι ε) (step : Step ι) (s : Schedule σ ι ε) :
    Schedule σ ι ε × Found :=
  match step with
  | .ask t => (s.call C patience t, .nothing)
  | .advance ms => (s.advance C patience ms, .nothing)
  | .frames k link items =>
    match link? s.world k link with
    | none => (s, .noLink)
    | some (i, l) =>
      if l.peer then
        (items.foldl (fun s item => s.arrive C k i item) s, .held (items.map fun _ => l.held))
      else (s, .peerGone)
  | .dropPeer k link =>
    match link? s.world k link with
    | none => (s, .noLink)
    | some (i, l) => (s.hangUp C k i, .dropped l.peer)

/-- Plays a step and lets everything come to rest if `settles`. -/
def play (C : World.Consumer σ ι ε) (settles : Bool) (step : Step ι) (s : Schedule σ ι ε) :
    Schedule σ ι ε × Found :=
  let (s, found) := step.play C s
  (if settles then s.settle C patience else s, found)

end TwinLink.Rehearsal
