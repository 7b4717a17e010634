import TwinLink.Backoff

/-! The state of a channel's connection. A session begins when a closed channel is opened
and has a number of its own, its generation; a teardown ends it. The driver of a session
reports its progress with that number, and what a driver of an ended session reports is
refused without effect. -/

namespace TwinLink

inductive Machine.State where
  | connecting
  | opened
  | closed
  deriving DecidableEq, Repr

structure Machine where
  state : Machine.State
  backoff : Backoff
  generation : UInt64
  tornDown : Bool
  deriving DecidableEq

namespace Machine

namespace State

def name : State → String
  | connecting => "connecting"
  | opened => "open"
  | closed => "closed"

/-- The name as diagnostics spell it. -/
def title : State → String
  | connecting => "Connecting"
  | opened => "Open"
  | closed => "Closed"

def isLive : State → Bool
  | closed => false
  | _ => true

end State

def ofBounds (b : Backoff.Bounds) : Machine := ⟨.closed, .ofBounds b, 0, false⟩

def delay (m : Machine) : Duration := m.backoff.current

def isCurrent (m : Machine) (g : UInt64) : Bool := m.generation == g && !m.tornDown

/-- Begins a session, unless one is connecting or open. -/
def beginOpen (m : Machine) : Option Machine :=
  if m.state.isLive then none
  else some { m with state := .connecting, generation := m.generation + 1, tornDown := false }

/-- The session `g` has connected. -/
def onOpen (g : UInt64) (m : Machine) : Option Machine :=
  if m.isCurrent g && m.state == .connecting then
    some { m with state := .opened, backoff := m.backoff.reset }
  else none

/-- The delay before the next attempt, and whether the channel was open. -/
structure Closing where
  delay : Duration
  wasOpen : Bool
  deriving DecidableEq

/-- The connection of the session `g` has ended or has not come about. -/
def onClose (g : UInt64) (m : Machine) : Option (Machine × Closing) :=
  if m.isCurrent g && m.state != .closed then
    some ({ m with state := .closed, backoff := m.backoff.advance },
      ⟨m.delay, m.state == .opened⟩)
  else none

/-- The delay of the session `g` is over. -/
def onRetry (g : UInt64) (m : Machine) : Option Machine :=
  if m.isCurrent g && m.state == .closed then some { m with state := .connecting } else none

/-- Ends the session for good. -/
def teardown (m : Machine) : Machine :=
  { state := .closed
    backoff := m.backoff.reset
    generation := if m.tornDown then m.generation else m.generation + 1
    tornDown := true }

/-- What may be asked of a machine. -/
inductive Call where
  | beginOpen
  | onOpen (g : UInt64)
  | onClose (g : UInt64)
  | onRetry (g : UInt64)
  | teardown
  deriving DecidableEq

inductive Answer where
  | refused
  | began (g : UInt64)
  | accepted
  | reconnect (closing : Closing)
  | tornDown (previous : State)
  deriving DecidableEq

def Call.run (m : Machine) : Call → Machine × Answer
  | .beginOpen => m.beginOpen.elim (m, .refused) fun n => (n, .began n.generation)
  | .onOpen g => (m.onOpen g).elim (m, .refused) (·, .accepted)
  | .onClose g => (m.onClose g).elim (m, .refused) fun r => (r.1, .reconnect r.2)
  | .onRetry g => (m.onRetry g).elim (m, .refused) (·, .accepted)
  | .teardown => (m.teardown, .tornDown m.state)

/-- The machine after a list of calls. -/
def run (calls : List Call) (m : Machine) : Machine :=
  calls.foldl (fun m c => (c.run m).1) m

@[simp] theorem run_nil (m : Machine) : run [] m = m := rfl

@[simp] theorem run_cons (c : Call) (calls : List Call) (m : Machine) :
    run (c :: calls) m = run calls (c.run m).1 := rfl

theorem run_append (p q : List Call) (m : Machine) : run (p ++ q) m = run q (run p m) :=
  List.foldl_append

theorem isCurrent_iff {m : Machine} {g : UInt64} :
    m.isCurrent g = true ↔ m.generation = g ∧ m.tornDown = false := by
  simp [isCurrent]

theorem beginOpen_eq_some {m n : Machine} :
    m.beginOpen = some n ↔ m.state = .closed ∧
      n = { m with state := .connecting, generation := m.generation + 1, tornDown := false } := by
  unfold beginOpen
  cases hs : m.state <;> simp [State.isLive, eq_comm]

theorem onOpen_eq_some {g : UInt64} {m n : Machine} :
    m.onOpen g = some n ↔ m.isCurrent g = true ∧ m.state = .connecting ∧
      n = { m with state := .opened, backoff := m.backoff.reset } := by
  simp only [onOpen, Option.ite_none_right_eq_some, Bool.and_eq_true, beq_iff_eq, Option.some.injEq,
    and_assoc]
  rw [eq_comm (a := n)]

theorem onClose_eq_some {g : UInt64} {m : Machine} {r : Machine × Closing} :
    m.onClose g = some r ↔ m.isCurrent g = true ∧ m.state ≠ .closed ∧
      r = ({ m with state := .closed, backoff := m.backoff.advance },
        ⟨m.delay, m.state == .opened⟩) := by
  simp only [onClose, Option.ite_none_right_eq_some, Bool.and_eq_true, bne_iff_ne,
    Option.some.injEq, and_assoc]
  rw [eq_comm (a := r)]

theorem onRetry_eq_some {g : UInt64} {m n : Machine} :
    m.onRetry g = some n ↔ m.isCurrent g = true ∧ m.state = .closed ∧
      n = { m with state := .connecting } := by
  simp only [onRetry, Option.ite_none_right_eq_some, Bool.and_eq_true, beq_iff_eq,
    Option.some.injEq, and_assoc]
  rw [eq_comm (a := n)]

theorem teardown_teardown (m : Machine) : m.teardown.teardown = m.teardown := by
  simp [teardown, Backoff.reset, Backoff.ofBounds]

end Machine

end TwinLink
