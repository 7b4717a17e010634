import TwinLink.Registry.Basic

/-! Listeners that are called, and what they do then. An emission goes to those who are registered
when it begins. What a listener does is up to a client: it may register and remove listeners, use
handles, give lists up and emit again. That is all done before the emission that called the
listener goes on, so emissions nest. An emission whose list is given up goes on as it would have. -/

namespace TwinLink.Registry

/-- What a client asks for. An answer is an item that it deals with next. -/
inductive Request (κ ε γ : Type) where
  /-- An item of the client's own. -/
  | own (item : γ)
  | ask (op : Op κ) (reply : Answer → γ)
  /-- Calls the listeners of a list. The answer is how many have been called. -/
  | emit (list : Nat) (e : ε) (reply : Answer → γ)

/-- Listeners `κ` for events `ε`, and a program of items `γ` with the state `τ`. -/
structure Client (κ ε γ τ : Type) where
  /-- The item that a call of a listener gives. -/
  hear : κ → ε → γ
  perform : γ → τ → τ × List (Request κ ε γ)

inductive Task (κ ε γ : Type) where
  | request (r : Request κ ε γ)
  /-- A call of a listener in an emission, for the registration `id`. -/
  | call (emission id : Nat) (listener : κ) (e : ε)
  /-- An emission is over; it has called `count` listeners. -/
  | conclude (emission count : Nat) (reply : Answer → γ)

inductive Note (κ ε : Type) where
  | asked (op : Op κ) (a : Answer)
  /-- A list has been asked to remove a registration. -/
  | removed (list id : Nat)
  | emitted (emission list : Nat) (e : ε)
  | called (emission id : Nat) (listener : κ) (e : ε)
  | ended (emission count : Nat)

structure Stage (κ ε γ τ : Type) where
  registry : Registry κ
  client : τ
  /-- The number of emissions so far. -/
  emissions : Nat
  agenda : List (Task κ ε γ)
  trace : List (Note κ ε)

/-- What is noted of an operation. -/
def Outcome.notes {κ : Type} (ε : Type) (o : Outcome κ) (op : Op κ) : List (Note κ ε) :=
  .asked op o.answer :: (o.removal.map fun r => Note.removed r.1 r.2).toList

namespace Stage

variable {κ ε γ τ : Type}

/-- A client before it does anything. -/
def start (client : τ) : Stage κ ε γ τ := ⟨.empty, client, 0, [], []⟩

/-- The client is to do an item before all that is left. -/
def prompt (s : Stage κ ε γ τ) (item : γ) : Stage κ ε γ τ :=
  { s with agenda := .request (.own item) :: s.agenda }

/-- The client goes on with an answer. -/
def tell (s : Stage κ ε γ τ) (item : γ) (notes : List (Note κ ε)) : Stage κ ε γ τ :=
  { s with agenda := .request (.own item) :: s.agenda, trace := s.trace ++ notes }

/-- The tasks of an emission: a call for each registration and then its end. -/
def calls (m : Nat) (r : Roster κ) (e : ε) (reply : Answer → γ) : List (Task κ ε γ) :=
  (r.entries.map fun x => .call m x.1 x.2 e) ++ [.conclude m r.size reply]

def emit (s : Stage κ ε γ τ) (k : Nat) (r : Roster κ) (e : ε) (reply : Answer → γ) :
    Stage κ ε γ τ :=
  { s with
    emissions := s.emissions + 1
    agenda := calls s.emissions r e reply ++ s.agenda
    trace := s.trace ++ [.emitted s.emissions k e] }

def request (C : Client κ ε γ τ) (s : Stage κ ε γ τ) : Request κ ε γ → Stage κ ε γ τ
  | .own item =>
    let r := C.perform item s.client
    { s with client := r.1, agenda := r.2.map .request ++ s.agenda }
  | .ask op reply =>
    let o := s.registry.run op
    { s with registry := o.registry }.tell (reply o.answer) (o.notes ε op)
  | .emit k e reply => (s.registry.list? k).elim (s.tell (reply .missing) []) (s.emit k · e reply)

def perform (C : Client κ ε γ τ) (s : Stage κ ε γ τ) : Task κ ε γ → Stage κ ε γ τ
  | .request r => s.request C r
  | .call m id listener e => s.tell (C.hear listener e) [.called m id listener e]
  | .conclude m count reply => s.tell (reply (.number count)) [.ended m count]

/-- Does the first task. -/
def step (C : Client κ ε γ τ) (s : Stage κ ε γ τ) : Stage κ ε γ τ :=
  match s.agenda with
  | [] => s
  | t :: rest => { s with agenda := rest }.perform C t

/-- Does the first tasks, `fuel` of them if there are as many. -/
def settle (C : Client κ ε γ τ) : Nat → Stage κ ε γ τ → Stage κ ε γ τ
  | 0, s => s
  | fuel + 1, s => if s.agenda.isEmpty then s else settle C fuel (s.step C)

/-- Gives the client items to do, and each time as many tasks are done as stand with the item. -/
def run (C : Client κ ε γ τ) (items : List (γ × Nat)) (s : Stage κ ε γ τ) : Stage κ ε γ τ :=
  items.foldl (fun s x => (s.prompt x.1).settle C x.2) s

theorem step_of_nil {C : Client κ ε γ τ} {s : Stage κ ε γ τ} (h : s.agenda = []) :
    s.step C = s := by
  rw [step, h]

theorem step_of_cons {C : Client κ ε γ τ} {s : Stage κ ε γ τ} {t : Task κ ε γ}
    {rest : List (Task κ ε γ)} (h : s.agenda = t :: rest) :
    s.step C = { s with agenda := rest }.perform C t := by
  rw [step, h]

@[simp] theorem settle_zero (C : Client κ ε γ τ) (s : Stage κ ε γ τ) : settle C 0 s = s := rfl

theorem settle_succ (C : Client κ ε γ τ) (n : Nat) (s : Stage κ ε γ τ) :
    settle C (n + 1) s = settle C n (s.step C) := by
  by_cases h : s.agenda = []
  · rw [settle, if_pos (List.isEmpty_iff.mpr h), step_of_nil h]
    cases n with
    | zero => rfl
    | succ n => rw [settle, if_pos (List.isEmpty_iff.mpr h)]
  · rw [settle, if_neg fun hempty => h (List.isEmpty_iff.mp hempty)]

theorem settle_add (C : Client κ ε γ τ) (m n : Nat) (s : Stage κ ε γ τ) :
    settle C (m + n) s = settle C n (settle C m s) := by
  induction m generalizing s with
  | zero => rw [Nat.zero_add, settle_zero]
  | succ m ih => rw [Nat.add_right_comm, settle_succ, ih, settle_succ]

theorem settle_last (C : Client κ ε γ τ) (n : Nat) (s : Stage κ ε γ τ) :
    settle C (n + 1) s = (settle C n s).step C := by
  rw [settle_add, settle_succ, settle_zero]

end Stage

end TwinLink.Registry
