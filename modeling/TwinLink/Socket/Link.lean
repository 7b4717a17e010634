import TwinLink.LinkError

/-! One physical connection. Its outbound half takes writes and a close, each of which is
answered after some time or never; its inbound half holds what the peer has sent and the
client has not read. Requests of the client wait in a queue until the driver takes them. -/

namespace TwinLink

/-- The answer to something asked of the network, after `delay` milliseconds or never. -/
inductive Reply (α : Type) where
  | after (delay : Nat) (answer : α)
  | never
  deriving DecidableEq, Repr

namespace Reply

def now {α : Type} (answer : α) : Reply α := .after 0 answer

/-- The instant and content of an answer to what was asked at the instant `t`. -/
def due {α : Type} (t : Nat) : Reply α → Option (Nat × α)
  | after delay answer => some (t + delay, answer)
  | never => none

end Reply

inductive Frame where
  | text (s : String)
  | binary (bytes : List UInt8)
  | close
  deriving DecidableEq, Repr

/-- What comes in on a link: a frame, or the failure to read one. -/
inductive Inbound where
  | frame (f : Frame)
  | failure (e : LinkError)
  deriving DecidableEq, Repr

/-- What a client asks of its driver. -/
inductive Request where
  | text (s : String)
  | close
  deriving DecidableEq, Repr

/-- How a link answers its `n`-th write and its close. -/
structure Link.Plan where
  write : Nat → Reply (Except LinkError Unit)
  close : Reply Unit

structure Link where
  plan : Link.Plan
  /-- What the peer has sent and the client has not read. -/
  inbound : List Inbound
  /-- Whether the peer may still send. -/
  peer : Bool
  /-- What the client has asked for and the driver has not taken. -/
  requests : List Request
  /-- The number of writes so far. -/
  writes : Nat
  /-- Whether the client still holds its halves. -/
  held : Bool

namespace Link

def ofPlan (plan : Plan) : Link := ⟨plan, [], true, [], 0, true⟩

/-- The peer sends; nothing arrives at halves that are released. -/
def arrive (item : Inbound) (l : Link) : Link :=
  if l.held then { l with inbound := l.inbound ++ [item] } else l

def hangUp (l : Link) : Link := { l with peer := false }

def request (r : Request) (l : Link) : Link := { l with requests := l.requests ++ [r] }

def release (l : Link) : Link := { l with held := false }

/-- Nothing more can come in. -/
def exhausted (l : Link) : Bool := l.inbound.isEmpty && !l.peer

@[simp] theorem requests_request (r : Request) (l : Link) :
    (l.request r).requests = l.requests ++ [r] := rfl

theorem inbound_arrive (item : Inbound) (l : Link) :
    (l.arrive item).inbound = if l.held then l.inbound ++ [item] else l.inbound := by
  unfold arrive
  split <;> rfl

end Link

end TwinLink
