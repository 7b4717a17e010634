import TwinLink.Socket.Step

/-! The two sockets, their network and the program that uses them, as one system. A consumer
is told of callbacks and asks for operations in return; what it asks for is done before
anything else goes on, so that an operation asked for inside a callback is done inside it.
Drivers run one at a time, each until it has to wait, and time passes only when all of them
wait. A run is a list of labels: what the program, the drivers, the peers and the clock do
next. -/

namespace TwinLink

/-- What is to be done next: an item of the consumer's own, or an operation on a socket. -/
inductive Task (ι : Type) where
  | work (item : ι)
  | connect (channel : ChannelKind)
  | teardown (channel : ChannelKind)
  | send (channel : ChannelKind) (text : String) (reply : Except LinkError Unit → ι)

namespace World

/-- What a consumer can see of the link. -/
structure View where
  now : Nat
  live : Socket
  command : Socket

def View.socket (v : View) : ChannelKind → Socket
  | .live => v.live
  | .command => v.command

/-- What comes of one item: a state, notes for the trace and what is to be done first. -/
structure Outcome (σ ι ε : Type) where
  state : σ
  notes : List ε
  next : List (Task ι)

/-- A program that uses the link: the item that a callback gives it, and what it does with
an item. -/
structure Consumer (σ ι ε : Type) where
  hear : ChannelKind → Socket.Callback → ι
  perform : View → ι → σ → Outcome σ ι ε

/-- What the trace of a run holds. -/
inductive Entry (ε : Type) where
  | socket (channel : ChannelKind) (h : Socket.Happening)
  | callback (channel : ChannelKind) (c : Socket.Callback)
  | note (e : ε)

end World

structure World (σ ι ε : Type) where
  now : Nat
  live : Socket
  command : Socket
  state : σ
  /-- What is to be done before any driver goes on. -/
  agenda : List (Task ι)
  /-- The driver that runs. -/
  running : Option (ChannelKind × Nat)
  trace : List (Nat × World.Entry ε)

namespace World

variable {σ ι ε : Type}

def ofSockets (live command : Socket) (state : σ) : World σ ι ε :=
  ⟨0, live, command, state, [], none, []⟩

def socket (w : World σ ι ε) : ChannelKind → Socket
  | .live => w.live
  | .command => w.command

def setSocket (w : World σ ι ε) (k : ChannelKind) (s : Socket) : World σ ι ε :=
  match k with
  | .live => { w with live := s }
  | .command => { w with command := s }

def view (w : World σ ι ε) : View := ⟨w.now, w.live, w.command⟩

def record (w : World σ ι ε) (entries : List (Entry ε)) : World σ ι ε :=
  { w with trace := w.trace ++ entries.map (w.now, ·) }

/-- Nothing is in progress. -/
def isIdle (w : World σ ι ε) : Bool := w.agenda.isEmpty && w.running.isNone

/-- Puts what an operation on a socket led to in place. A callback is heard at once. -/
def settle (C : Consumer σ ι ε) (k : ChannelKind) (m : Socket.Move) (w : World σ ι ε) :
    World σ ι ε :=
  let w := (w.setSocket k m.socket).record (m.seen.map (.socket k))
  match m.callback with
  | none => w
  | some c =>
    let w := w.record [.callback k c]
    { w with agenda := .work (C.hear k c) :: w.agenda }

/-- Does one task. -/
def perform (C : Consumer σ ι ε) (t : Task ι) (w : World σ ι ε) : World σ ι ε :=
  match t with
  | .work item =>
    let o := C.perform w.view item w.state
    let w := w.record (o.notes.map .note)
    { w with state := o.state, agenda := o.next ++ w.agenda }
  | .connect k => w.settle C k (w.socket k).connect
  | .teardown k => w.settle C k ((w.socket k).teardown w.now)
  | .send k text reply =>
    match (w.socket k).send text with
    | .ok m =>
      let w := w.settle C k m
      { w with agenda := .work (reply (.ok ())) :: w.agenda }
    | .error e => { w with agenda := .work (reply (.error e)) :: w.agenda }

/-- One step of the driver `i` of channel `k`, which runs. If it has to wait it stops
running, and ends if it has been aborted. -/
def drive (C : Consumer σ ι ε) (outboundFirst : Bool) (k : ChannelKind) (i : Nat)
    (w : World σ ι ε) : World σ ι ε :=
  let s := w.socket k
  match s.step w.now outboundFirst i with
  | some m => w.settle C k m
  | none =>
    let w := { w with running := none }
    if s.isAborted i && !(s.phase i).isFinished then w.settle C k (s.discard i) else w

/-- Goes on with what is in progress: the next task, else the driver that runs. -/
def proceed (C : Consumer σ ι ε) (outboundFirst : Bool) (w : World σ ι ε) : World σ ι ε :=
  match w.agenda with
  | t :: rest => perform C t { w with agenda := rest }
  | [] =>
    match w.running with
    | some (k, i) => w.drive C outboundFirst k i
    | none => w

/-- Lets a driver run; one that has been aborted ends. -/
def poll (C : Consumer σ ι ε) (k : ChannelKind) (i : Nat) (w : World σ ι ε) : World σ ι ε :=
  let s := w.socket k
  if !w.isIdle || (s.phase i).isFinished then w
  else if s.isAborted i then w.settle C k (s.discard i)
  else { w with running := some (k, i) }

/-- Aborts a driver that a teardown has left too much time. -/
def reap (C : Consumer σ ι ε) (k : ChannelKind) (i : Nat) (w : World σ ι ε) : World σ ι ε :=
  let s := w.socket k
  if w.isIdle && s.isReapDue w.now i then w.settle C k (s.reap i) else w

/-- Nothing can go on without time passing. -/
def isSettled (w : World σ ι ε) : Bool :=
  w.isIdle && w.live.isSettled w.now && w.command.isSettled w.now

/-- The instants to come at which something is due. -/
def dues (w : World σ ι ε) : List Nat := (w.live.dues ++ w.command.dues).filter (w.now < ·)

/-- Lets time pass, if nothing else can go on and nothing is due meanwhile. -/
def elapse (milliseconds : Nat) (w : World σ ι ε) : World σ ι ε :=
  let target := w.now + milliseconds
  if w.isSettled && w.dues.all (target ≤ ·) then { w with now := target } else w

/-- What happens next. -/
inductive Label (ι : Type) where
  /-- The program asks for something. -/
  | call (t : Task ι)
  /-- What is in progress goes on. -/
  | proceed (outboundFirst : Bool)
  /-- A driver that waits gets to run. -/
  | poll (channel : ChannelKind) (driver : Nat)
  | reap (channel : ChannelKind) (driver : Nat)
  /-- The peer of a link sends. -/
  | arrive (channel : ChannelKind) (link : Nat) (item : Inbound)
  /-- The peer of a link goes away. -/
  | hangUp (channel : ChannelKind) (link : Nat)
  /-- Time passes. -/
  | elapse (milliseconds : Nat)

/-- Whether the program is the one that acts. -/
def Label.isCall : Label ι → Bool
  | call _ => true
  | _ => false

/-- What a label does. The program asks only while no task is in progress. -/
def act (C : Consumer σ ι ε) (w : World σ ι ε) : Label ι → World σ ι ε
  | .call t => if w.agenda.isEmpty then { w with agenda := [t] } else w
  | .proceed outboundFirst => w.proceed C outboundFirst
  | .poll k i => w.poll C k i
  | .reap k i => w.reap C k i
  | .arrive k link item => w.setSocket k ((w.socket k).arrive link item)
  | .hangUp k link => w.setSocket k ((w.socket k).hangUp link)
  | .elapse ms => w.elapse ms

def run (C : Consumer σ ι ε) (labels : List (Label ι)) (w : World σ ι ε) : World σ ι ε :=
  labels.foldl (act C) w

/-- Does the tasks in progress, at most `fuel` of them. -/
def finish (C : Consumer σ ι ε) : Nat → World σ ι ε → World σ ι ε
  | 0, w => w
  | fuel + 1, w => if w.agenda.isEmpty then w else finish C fuel (w.proceed C false)

/-- The program asks for something, which is done at once. -/
def ask (C : Consumer σ ι ε) (fuel : Nat) (t : Task ι) (w : World σ ι ε) : World σ ι ε :=
  finish C fuel (act C w (.call t))

variable (C : Consumer σ ι ε)

@[simp] theorem run_nil (w : World σ ι ε) : run C [] w = w := rfl

@[simp] theorem run_cons (l : Label ι) (labels : List (Label ι)) (w : World σ ι ε) :
    run C (l :: labels) w = run C labels (act C w l) := rfl

theorem run_append (p q : List (Label ι)) (w : World σ ι ε) :
    run C (p ++ q) w = run C q (run C p w) := List.foldl_append

/-- What every label keeps, every run keeps. -/
theorem run_invariant {P : World σ ι ε → Prop} (step : ∀ w l, P w → P (act C w l))
    (labels : List (Label ι)) (w : World σ ι ε) (h : P w) : P (run C labels w) := by
  induction labels generalizing w with
  | nil => exact h
  | cons l labels ih => exact ih _ (step _ _ h)

@[simp] theorem socket_setSocket_self (w : World σ ι ε) (k : ChannelKind) (s : Socket) :
    (w.setSocket k s).socket k = s := by
  cases k <;> rfl

@[simp] theorem socket_setSocket_other (w : World σ ι ε) (k : ChannelKind) (s : Socket) :
    (w.setSocket k s).socket k.other = w.socket k.other := by
  cases k <;> rfl

end World

end TwinLink
