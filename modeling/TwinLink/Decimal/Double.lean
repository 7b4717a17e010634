/-! Numbers of double precision, as exact values `± m · 2^q`. A finite number is kept in
the form in which `m` uses all 53 bits or `q` is least, so that equal numbers are equal
terms. Every operation computes the exact ratio and rounds it once, to the nearest number
and to the even one of two that are equally near. -/

namespace TwinLink.Decimal

inductive Double where
  | finite (negative : Bool) (m : Nat) (q : Int)
  | infinite (negative : Bool)
  | nan
  deriving DecidableEq, Repr

namespace Double

def leastExponent : Int := -1074

def greatestExponent : Int := 971

def zero (negative : Bool) : Double := .finite negative 0 leastExponent

def isFinite : Double → Bool
  | .finite .. => true
  | _ => false

def isZero : Double → Bool
  | .finite _ m _ => m == 0
  | _ => false

def isNegative : Double → Bool
  | .finite s _ _ => s
  | .infinite s => s
  | .nan => false

def negate : Double → Double
  | .finite s m q => .finite (!s) m q
  | .infinite s => .infinite (!s)
  | .nan => .nan

/-- `num / den` as a whole number, a half going to the even neighbour. -/
def nearest (num den : Nat) : Nat :=
  let n := num / den
  if den < 2 * (num % den) ∨ (2 * (num % den) = den ∧ n % 2 = 1) then n + 1 else n

/-- `num / den < 2 ^ e`. -/
def below (num den : Nat) (e : Int) : Bool :=
  num * Nat.pow 2 (-e).toNat < den * Nat.pow 2 e.toNat

/-- The exponent of the highest bit of `num / den`. -/
def highBit (num den : Nat) : Int :=
  let e : Int := num.log2 - den.log2
  if below num den e then e - 1 else e

/-- The double nearest to `± num / den`, for positive `den`. -/
def round (negative : Bool) (num den : Nat) : Double :=
  if num = 0 then zero negative
  else
    let q := max (highBit num den - 52) leastExponent
    let m := nearest (num * Nat.pow 2 (-q).toNat) (den * Nat.pow 2 q.toNat)
    let (m, q) := if m = Nat.pow 2 53 then (Nat.pow 2 52, q + 1) else (m, q)
    if greatestExponent < q then .infinite negative else .finite negative m q

def ofNat (n : Nat) : Double := round false n 1

def ofInt (n : Int) : Double := round (n < 0) n.natAbs 1

/-- `± digits · 10^e`, rounded once. -/
def ofDecimal (negative : Bool) (digits : Nat) (e : Int) : Double :=
  round negative (digits * Nat.pow 10 e.toNat) (Nat.pow 10 (-e).toNat)

def mul : Double → Double → Double
  | .finite s m q, .finite t n r =>
    round (s != t) (m * n * Nat.pow 2 (q + r).toNat) (Nat.pow 2 (-(q + r)).toNat)
  | .nan, _ | _, .nan => .nan
  | .infinite s, y => if y.isZero then .nan else .infinite (s != y.isNegative)
  | x, .infinite t => if x.isZero then .nan else .infinite (x.isNegative != t)

def div : Double → Double → Double
  | .finite s m q, .finite t n r =>
    if n = 0 then (if m = 0 then .nan else .infinite (s != t))
    else round (s != t) (m * Nat.pow 2 (q - r).toNat) (n * Nat.pow 2 (r - q).toNat)
  | .nan, _ | _, .nan => .nan
  | .infinite _, .infinite _ => .nan
  | .infinite s, .finite t _ _ => .infinite (s != t)
  | .finite s _ _, .infinite t => zero (s != t)

theorem isFinite_zero (negative : Bool) : (zero negative).isFinite = true := rfl

theorem negate_negate (x : Double) : x.negate.negate = x := by
  cases x <;> simp [negate]

end Double

end TwinLink.Decimal
