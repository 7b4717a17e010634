import TwinLink.Decimal.Double

/-! Reading a decimal number from a word: an optional sign, then digits with an optional
point and an optional signed exponent, or one of the names of infinity and of the number
that is none. At least one digit stands before the exponent. The value is rounded once. -/

namespace TwinLink.Decimal.Reading

def digitValue (c : Char) : Nat := c.toNat - '0'.toNat

/-- The value of the digits `s` after those that gave `n`. -/
def digitsFrom (n : Nat) (s : List Char) : Nat :=
  s.foldl (fun n c => 10 * n + digitValue c) n

/-- The leading digits and what follows them. -/
def digits (s : List Char) : List Char × List Char :=
  (s.takeWhile Char.isDigit, s.dropWhile Char.isDigit)

def sign : List Char → Bool × List Char
  | '-' :: s => (true, s)
  | '+' :: s => (false, s)
  | s => (false, s)

/-- The exponent that follows the mantissa, zero if nothing follows. -/
def exponent? : List Char → Option Int
  | [] => some 0
  | c :: s =>
    if c = 'e' ∨ c = 'E' then
      let (negative, s) := sign s
      if s.isEmpty ∨ ¬ s.all Char.isDigit then none
      else some (if negative then -(digitsFrom 0 s : Int) else digitsFrom 0 s)
    else none

/-- Beyond this power of ten every number with `count` digits is zero or infinite. -/
def exponentBound (count : Nat) : Int := 400 + count

/-- The digits before and after the point and the exponent, without a sign. -/
def unsigned (negative : Bool) (s : List Char) : Option Double :=
  let (whole, s) := digits s
  let (fraction, s) := match s with
    | '.' :: s => digits s
    | s => ([], s)
  if whole.isEmpty ∧ fraction.isEmpty then none
  else (exponent? s).map fun e =>
    let bound := exponentBound (whole.length + fraction.length)
    let e := max (-bound) (min bound e)
    Double.ofDecimal negative (digitsFrom 0 (whole ++ fraction)) (e - fraction.length)

def special (negative : Bool) (s : List Char) : Option Double :=
  let s := s.map Char.toLower
  if s = "inf".toList ∨ s = "infinity".toList then some (.infinite negative)
  else if s = "nan".toList then some .nan
  else none

def read (s : String) : Option Double :=
  let (negative, s) := sign s.toList
  match unsigned negative s with
  | some x => some x
  | none => special negative s

end TwinLink.Decimal.Reading
