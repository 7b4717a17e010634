import TwinLink.Socket.Basic

/-! Networks that behave as told: each attempt to connect has its answer, and each link takes
so many writes before it fails or stalls. -/

namespace TwinLink.Rehearsal

/-- How the outbound half of a link takes writes. -/
inductive Sink where
  | takes
  | fails (after : Nat)
  | stalls (after : Nat)
  deriving DecidableEq, Repr

def Sink.write (sink : Sink) (n : Nat) : Reply (Except LinkError Unit) :=
  match sink with
  | takes => .now (.ok ())
  | fails after =>
    if n < after then .now (.ok ()) else .now (.error (.transport "write failed"))
  | stalls after => if n < after then .now (.ok ()) else .never

def plan (sink : Sink) (closes : Bool) : Link.Plan :=
  ⟨sink.write, if closes then .now () else .never⟩

end TwinLink.Rehearsal
