import TwinLink.World

/-! A fair order for the steps of a world. What can go on waits in a queue and is served in
the order in which it became able to; of several that become able to at once the one goes
first that has waited longest. Time passes only when nothing can go on, and stops at every
instant at which something is due. -/

namespace TwinLink

/-- What can be served: a driver, or the clock that limits a released driver. -/
inductive Slot where
  | driver (channel : ChannelKind) (i : Nat)
  | reaper (channel : ChannelKind) (i : Nat)
  deriving DecidableEq, Repr

structure Schedule (σ ι ε : Type) where
  world : World σ ι ε
  /-- What can go on. -/
  queue : List Slot
  /-- All that waits for something, by the time for which it has. -/
  waiting : List Slot

namespace Schedule

variable {σ ι ε : Type}

def ofWorld (w : World σ ι ε) : Schedule σ ι ε := ⟨w, [], []⟩

/-- The drivers of a socket that have not finished, and their clocks. -/
def slots (k : ChannelKind) (s : Socket) : List Slot :=
  s.drivers.zipIdx.flatMap fun (d, i) =>
    if d.phase.isFinished then []
    else if d.reapAt.isSome then [.reaper k i, .driver k i]
    else [.driver k i]

def isReady (w : World σ ι ε) : Slot → Bool
  | .driver k i => w.running != some (k, i) && (w.socket k).canRun w.now i
  | .reaper k i => (w.socket k).isReapDue w.now i

/-- Brings the queue up to date with the world. -/
def refresh (s : Schedule σ ι ε) : Schedule σ ι ε :=
  let all := slots .live s.world.live ++ slots .command s.world.command
  let waiting := s.waiting.filter all.contains ++ all.filter (!s.waiting.contains ·)
  let ready := waiting.filter fun slot => isReady s.world slot && !s.queue.contains slot
  { s with queue := s.queue ++ ready, waiting }

/-- A driver that has stopped running waits behind all others. -/
def requeue (before : Option (ChannelKind × Nat)) (s : Schedule σ ι ε) : Schedule σ ι ε :=
  match before, s.world.running with
  | some (k, i), none =>
    { s with waiting := s.waiting.filter (· ≠ .driver k i) ++ [.driver k i] }
  | _, _ => s

def label : Slot → World.Label ι
  | .driver k i => .poll k i
  | .reaper k i => .reap k i

/-- One step, or none if nothing can go on without time passing. -/
def step (C : World.Consumer σ ι ε) (s : Schedule σ ι ε) : Option (Schedule σ ι ε) :=
  if s.world.isIdle then
    match s.queue with
    | [] => none
    | slot :: queue =>
      some (refresh { s with world := s.world.act C (label slot), queue })
  else
    let before := s.world.running
    let s := { s with world := s.world.act C (.proceed false) }
    some (refresh (requeue before s))

/-- Goes on until only time can change anything, for at most `fuel` steps. -/
def settle (C : World.Consumer σ ι ε) : Nat → Schedule σ ι ε → Schedule σ ι ε
  | 0, s => s
  | fuel + 1, s =>
    match s.step C with
    | none => s
    | some s => settle C fuel s

/-- Goes on with what is in progress, for at most `fuel` steps. -/
def finish (C : World.Consumer σ ι ε) : Nat → Schedule σ ι ε → Schedule σ ι ε
  | 0, s => s
  | fuel + 1, s =>
    if s.world.isIdle then s
    else finish C fuel (refresh { s with world := s.world.act C (.proceed false) })

/-- The program asks for something, which is done at once. -/
def call (C : World.Consumer σ ι ε) (fuel : Nat) (t : Task ι) (s : Schedule σ ι ε) :
    Schedule σ ι ε :=
  finish C fuel (refresh { s with world := s.world.act C (.call t) })

def arrive (C : World.Consumer σ ι ε) (k : ChannelKind) (link : Nat) (item : Inbound)
    (s : Schedule σ ι ε) : Schedule σ ι ε :=
  refresh { s with world := s.world.act C (.arrive k link item) }

def hangUp (C : World.Consumer σ ι ε) (k : ChannelKind) (link : Nat) (s : Schedule σ ι ε) :
    Schedule σ ι ε :=
  refresh { s with world := s.world.act C (.hangUp k link) }

/-- Lets time pass up to the instant `target`; `fuel` bounds the steps between two instants
and the number of instants. -/
def advanceTo (C : World.Consumer σ ι ε) (fuel target : Nat) : Nat → Schedule σ ι ε → Schedule σ ι ε
  | 0, s => s
  | n + 1, s =>
    let s := s.settle C fuel
    let instant := min target (s.world.dues.min?.getD target)
    if s.world.now < instant then
      let s := { s with world := s.world.act C (.elapse (instant - s.world.now)) }
      advanceTo C fuel target n (refresh s)
    else s

def advance (C : World.Consumer σ ι ε) (fuel milliseconds : Nat) (s : Schedule σ ι ε) :
    Schedule σ ι ε :=
  advanceTo C fuel (s.world.now + milliseconds) fuel s

end Schedule

end TwinLink
