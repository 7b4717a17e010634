import TwinLink.Duration

/-! Delays between attempts to connect: each is twice the one before, up to a ceiling. -/

namespace TwinLink

structure Backoff.Bounds where
  initial : Duration
  ceiling : Duration
  deriving DecidableEq

structure Backoff where
  bounds : Backoff.Bounds
  current : Duration
  deriving DecidableEq

namespace Backoff

def Bounds.usual : Bounds := ⟨.ofMillis 1000, .ofMillis 30000⟩

def Bounds.singleChannel : Bounds := ⟨.ofMillis 2000, .ofMillis 30000⟩

/-- The delay that comes first. -/
def Bounds.first (b : Bounds) : Duration := b.initial.lesser b.ceiling

/-- Why bounds are refused. -/
inductive Fault where
  | zeroInitial
  | lowCeiling (ceiling initial : Duration)
  deriving DecidableEq

def Fault.detail : Fault → String
  | zeroInitial => "reconnect initial delay must be positive"
  | lowCeiling ceiling initial =>
    s!"reconnect ceiling {ceiling.millis} ms is below initial delay {initial.millis} ms"

def Bounds.validate (b : Bounds) : Except Fault Unit :=
  if b.initial.isZero then .error .zeroInitial
  else if b.ceiling.nanos < b.initial.nanos then .error (.lowCeiling b.ceiling b.initial)
  else .ok ()

def ofBounds (b : Bounds) : Backoff := ⟨b, b.first⟩

/-- The delay after this one. -/
def advance (b : Backoff) : Backoff :=
  { b with current := b.current.double.lesser b.bounds.ceiling }

def reset (b : Backoff) : Backoff := ofBounds b.bounds

@[simp] theorem bounds_advance (b : Backoff) : b.advance.bounds = b.bounds := rfl

@[simp] theorem bounds_reset (b : Backoff) : b.reset.bounds = b.bounds := rfl

@[simp] theorem reset_advance (b : Backoff) : b.advance.reset = b.reset := rfl

theorem current_advance_le (b : Backoff) : b.advance.current.nanos ≤ b.bounds.ceiling.nanos := by
  simp only [advance, Duration.nanos_lesser]
  omega

end Backoff

end TwinLink
