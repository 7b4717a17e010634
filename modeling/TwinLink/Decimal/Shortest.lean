import TwinLink.Decimal.Double

/-! The fewest decimal digits that read back to a double. The reals that round to
`m · 2^q` reach half way to the neighbours on both sides, ends included when `m` is even.
For one digit, two digits and so on the two points of the decimal grid around the number
are tried; the first grid with a point in that interval gives the digits, the nearer point
if both lie in it and the even one if they are equally near. -/

namespace TwinLink.Decimal

/-- `digits · 10^exponent`. -/
structure Scientific where
  digits : Nat
  exponent : Int
  deriving DecidableEq, Repr

namespace Shortest

/-- A ratio `num / den` scaled by `10^e`, as numerator and denominator. -/
def scaled (num den : Nat) (e : Int) : Nat × Nat :=
  (num * Nat.pow 10 e.toNat, den * Nat.pow 10 (-e).toNat)

/-- Whether `d` rounds to `m · 2^q`. -/
def readsBack (m : Nat) (q : Int) (d : Scientific) : Bool :=
  let low := if m = Nat.pow 2 52 ∧ Double.leastExponent < q then 4 * m - 1 else 4 * m - 2
  let high := 4 * m + 2
  let up := Nat.pow 2 (q - 2).toNat
  let (num, den) := scaled d.digits 1 d.exponent
  let value := num * Nat.pow 2 (2 - q).toNat
  let low := low * up * den
  let high := high * up * den
  if m % 2 = 0 then low ≤ value && value ≤ high else low < value && value < high

def digitCount (n : Nat) : Nat := (Nat.toDigits 10 n).length

/-- The least `k` with `num / den < 10^k`, for positive `num` and `den`. -/
def magnitude (num den : Nat) : Int :=
  if den ≤ num then digitCount (num / den) else 1 - (digitCount ((den - 1) / num) : Int)

/-- Of the two grid points around `num / den` those that read back, the nearer first. -/
def candidate (m : Nat) (q : Int) (num den : Nat) (e : Int) : Option Scientific :=
  let (n, d) := scaled num den (-e)
  let c := n / d
  let low := readsBack m q ⟨c, e⟩
  let high := readsBack m q ⟨c + 1, e⟩
  let upper := d < 2 * (n % d) || (2 * (n % d) == d && c % 2 == 1)
  if low && high then some ⟨if upper then c + 1 else c, e⟩
  else if low then some ⟨c, e⟩
  else if high then some ⟨c + 1, e⟩
  else none

/-- Moves trailing zeros of the digits into the exponent; `fuel` bounds their number. -/
def strip : Nat → Scientific → Scientific
  | 0, d => d
  | fuel + 1, d =>
    if d.digits ≠ 0 ∧ d.digits % 10 = 0 then strip fuel ⟨d.digits / 10, d.exponent + 1⟩ else d

/-- The shortest decimal that reads back to `m · 2^q`, for positive `m`. Seventeen digits
suffice for every double; the exact value would stand in otherwise. -/
def ofBinary (m : Nat) (q : Int) : Scientific :=
  let num := m * Nat.pow 2 q.toNat
  let den := Nat.pow 2 (-q).toNat
  let k := magnitude num den
  match (List.range 17).findSome? fun (n : Nat) => candidate m q num den (k - (n : Int) - 1) with
  | some d => strip 20 d
  | none => ⟨m * Nat.pow 2 q.toNat * Nat.pow 5 (-q).toNat, min q 0⟩

end Shortest

end TwinLink.Decimal
