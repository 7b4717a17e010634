/-! Spans of time, in nanoseconds. They reach up to the greatest number of seconds that 64
bits hold and all but one billionth of the next one; doubling stops there. -/

namespace TwinLink

def nanosPerSecond : Nat := 1000000000

def nanosPerMilli : Nat := 1000000

/-- The longest span, in nanoseconds. -/
def longestSpan : Nat := UInt64.size * nanosPerSecond - 1

structure Duration where
  nanos : Nat
  nanos_le : nanos ≤ longestSpan
  deriving DecidableEq

namespace Duration

def ofNanos (n : Nat) : Duration := ⟨min n longestSpan, Nat.min_le_right ..⟩

def ofMillis (n : Nat) : Duration := ofNanos (n * nanosPerMilli)

def ofParts (seconds nanos : Nat) : Duration := ofNanos (seconds * nanosPerSecond + nanos)

def zero : Duration := ofNanos 0

def isZero (d : Duration) : Bool := d.nanos == 0

/-- Whole milliseconds. -/
def millis (d : Duration) : Nat := d.nanos / nanosPerMilli

/-- Milliseconds, a part of one counting as one: a clock of milliseconds that waits for the
span waits this long. -/
def ticks (d : Duration) : Nat := (d.nanos + (nanosPerMilli - 1)) / nanosPerMilli

/-- Whole milliseconds as far as 64 bits reach. -/
def millis64 (d : Duration) : Nat := min d.millis (UInt64.size - 1)

def double (d : Duration) : Duration := ofNanos (2 * d.nanos)

def lesser (a b : Duration) : Duration := if a.nanos ≤ b.nanos then a else b

@[simp] theorem nanos_ofNanos (n : Nat) : (ofNanos n).nanos = min n longestSpan := rfl

@[simp] theorem nanos_double (d : Duration) : d.double.nanos = min (2 * d.nanos) longestSpan := rfl

@[simp] theorem nanos_lesser (a b : Duration) : (lesser a b).nanos = min a.nanos b.nanos := by
  unfold lesser
  split <;> omega

theorem ext_nanos {a b : Duration} (h : a.nanos = b.nanos) : a = b := by
  cases a; cases b; simp_all

/-- `whole` units and `part / parts` of the next one, in decimals without trailing zeros;
`parts` is `10 ^ places`. -/
def decimal (whole part places : Nat) (unit : String) : String :=
  let digits := Nat.toDigits 10 part
  let padded := List.replicate (places - digits.length) '0' ++ digits
  let kept := (padded.reverse.dropWhile (· == '0')).reverse
  let fraction := if kept.isEmpty then [] else '.' :: kept
  s!"{whole}{String.ofList fraction}{unit}"

/-- The span in the greatest unit of which it holds at least one. -/
def text (d : Duration) : String :=
  if nanosPerSecond ≤ d.nanos then
    decimal (d.nanos / nanosPerSecond) (d.nanos % nanosPerSecond) 9 "s"
  else if nanosPerMilli ≤ d.nanos then
    decimal (d.nanos / nanosPerMilli) (d.nanos % nanosPerMilli) 6 "ms"
  else if 1000 ≤ d.nanos then decimal (d.nanos / 1000) (d.nanos % 1000) 3 "µs"
  else decimal d.nanos 0 0 "ns"

end Duration

end TwinLink
