import TwinLink.Json.Quoted

/-! The pieces of a JSON text below its values: blanks, the three words and numbers. The
digits of a number are gathered as long as they fit 64 bits; whole digits beyond that only
raise the exponent and decimals beyond it are dropped. A double is the gathered number times
one power of ten, with a second one only where the table of powers ends. -/

namespace TwinLink.Json

open Decimal (Double)

/-- The blanks of JSON: space, tab, line feed and carriage return. -/
def isBlank (c : Char) : Bool := c == ' ' || c == '\n' || c == '\t' || c == '\r'

def skipBlanks (s : List Char) : List Char := s.dropWhile isBlank

/-- Reads the characters `word`. -/
def ident : List Char → List Char → Except Fault (List Char)
  | [], s => .ok s
  | _ :: _, [] => .error .endOfValue
  | w :: word, c :: s => if w = c then ident word s else .error .expectedIdent

namespace Number

def greatestNatural : Nat := UInt64.size - 1

def leastInteger : Int := -9223372036854775808

/-- The greatest exponent that is read exactly. -/
def greatestExponent : Nat := 2147483647

/-- The greatest power of ten that is applied at once. -/
def greatestPower : Nat := 308

def digitValue (c : Char) : Nat := c.toNat - '0'.toNat

/-- Gathers digits behind `n` while they fit: the number, how many were taken, and what
follows. -/
def gather (n : Nat) : List Char → Nat × Nat × List Char
  | [] => (n, 0, [])
  | c :: s =>
    if c.isDigit ∧ n * 10 + digitValue c ≤ greatestNatural then
      let (m, count, rest) := gather (n * 10 + digitValue c) s
      (m, count + 1, rest)
    else (n, 0, c :: s)

def power (e : Nat) : Double := Double.ofNat (Nat.pow 10 e)

/-- `x · 10^e`. -/
def scale (x : Double) (e : Int) : Except Fault Double :=
  if e.natAbs ≤ greatestPower then
    if 0 ≤ e then
      let y := x.mul (power e.natAbs)
      if y.isFinite then .ok y else .error .numberOutOfRange
    else .ok (x.div (power e.natAbs))
  else if x.isZero then .ok x
  else if 0 ≤ e then .error .numberOutOfRange
  else scale (x.div (power greatestPower)) (e + greatestPower)
termination_by e.natAbs
decreasing_by simp only [greatestPower] at *; omega

def signed (negative : Bool) (x : Double) : Double := if negative then x.negate else x

def ofParts (negative : Bool) (n : Nat) (e : Int) : Except Fault Number :=
  (scale (Double.ofNat n) e).map fun x => float (signed negative x)

/-- The digits of an exponent and what the number comes to. -/
def withExponent (negative : Bool) (n : Nat) (e : Int) (s : List Char) :
    Except Fault (Number × List Char) :=
  let (down, s) := match s with
    | '+' :: s => (false, s)
    | '-' :: s => (true, s)
    | s => (false, s)
  match s with
  | [] => .error .endOfValue
  | c :: _ =>
    if c.isDigit then
      let value := (s.takeWhile Char.isDigit).foldl (fun n c => n * 10 + digitValue c) 0
      let rest := s.dropWhile Char.isDigit
      if value ≤ greatestExponent then
        (ofParts negative n (if down then e - value else e + value)).map (·, rest)
      else if n ≠ 0 ∧ !down then .error .numberOutOfRange
      else .ok (float (signed negative (Double.zero false)), rest)
    else .error .invalidNumber

/-- What may follow the digits: an exponent or nothing. -/
def afterDecimals (negative : Bool) (n : Nat) (e : Int) :
    List Char → Except Fault (Number × List Char)
  | 'e' :: s => withExponent negative n e s
  | 'E' :: s => withExponent negative n e s
  | s => (ofParts negative n e).map (·, s)

/-- The decimals behind the point. -/
def decimals (negative : Bool) (n : Nat) (e : Int) (s : List Char) :
    Except Fault (Number × List Char) :=
  let (n, count, rest) := gather n s
  match rest with
  | [] => if count = 0 then .error .endOfValue else afterDecimals negative n (e - count) []
  | c :: _ =>
    if c.isDigit then afterDecimals negative n (e - count) (rest.dropWhile Char.isDigit)
    else if count = 0 then .error .invalidNumber
    else afterDecimals negative n (e - count) rest

/-- A whole number with its sign. There is no negative zero among the integers. -/
def whole (negative : Bool) (n : Nat) : Number :=
  if !negative then integer n
  else if n ≠ 0 ∧ leastInteger ≤ -(n : Int) then integer (-(n : Int))
  else float (Double.ofNat n).negate

/-- What follows whole digits that fit. -/
def afterWhole (negative : Bool) (n : Nat) : List Char → Except Fault (Number × List Char)
  | '.' :: s => decimals negative n 0 s
  | 'e' :: s => withExponent negative n 0 s
  | 'E' :: s => withExponent negative n 0 s
  | s => .ok (whole negative n, s)

/-- What follows whole digits of which the last ones did not fit. -/
def afterLong (negative : Bool) (n : Nat) (e : Int) : List Char → Except Fault (Number × List Char)
  | '.' :: s => decimals negative n e s
  | s => afterDecimals negative n e s

/-- A number without its sign. -/
def read (negative : Bool) (s : List Char) : Except Fault (Number × List Char) :=
  match s with
  | [] => .error .endOfValue
  | c :: rest =>
    if c = '0' then
      match rest with
      | d :: _ => if d.isDigit then .error .invalidNumber else afterWhole negative 0 rest
      | [] => afterWhole negative 0 []
    else if c.isDigit then
      let (n, _, rest) := gather 0 s
      match rest with
      | d :: _ =>
        if d.isDigit then
          afterLong negative n (rest.takeWhile Char.isDigit).length (rest.dropWhile Char.isDigit)
        else afterWhole negative n rest
      | [] => afterWhole negative n []
    else .error .invalidNumber

end Number

end TwinLink.Json
