import TwinLink.Json.Value

/-! The written form of numbers. A double has the fewest digits that read back. It is
written in plain notation, with at least one decimal, from `0.00001` up to below `10^16`
and otherwise with one digit before the point and a signed exponent. -/

namespace TwinLink.Json

open Decimal (Double Scientific)

def naturalChars (n : Nat) : List Char := Nat.toDigits 10 n

def integerChars (n : Int) : List Char :=
  if n < 0 then '-' :: naturalChars n.natAbs else naturalChars n.natAbs

namespace Notation

/-- One digit, the others behind a point, and the exponent. -/
def exponential (digits : List Char) (e : Int) : List Char :=
  digits.take 1 ++ (if digits.length ≤ 1 then [] else '.' :: digits.drop 1) ++
    ['e', if e < 0 then '-' else '+'] ++ naturalChars e.natAbs

/-- Lays out `0.digits · 10^point`. -/
def layout (digits : List Char) (point : Int) : List Char :=
  if point ≤ -5 ∨ 16 < point then exponential digits (point - 1)
  else if point ≤ 0 then '0' :: '.' :: List.replicate point.natAbs '0' ++ digits
  else if digits.length ≤ point.toNat then
    digits ++ List.replicate (point.toNat - digits.length) '0' ++ ['.', '0']
  else digits.take point.toNat ++ '.' :: digits.drop point.toNat

def scientific (d : Scientific) : List Char :=
  let digits := naturalChars d.digits
  layout digits (digits.length + d.exponent)

end Notation

/-- Numbers that are not finite have no written form and become `null`. -/
def floatChars : Double → List Char
  | .finite negative m q =>
    (if negative then ['-'] else []) ++
      (if m = 0 then ['0', '.', '0'] else Notation.scientific (Decimal.Shortest.ofBinary m q))
  | _ => ['n', 'u', 'l', 'l']

namespace Number

def chars : Number → List Char
  | integer n => integerChars n
  | float x => floatChars x

def text (n : Number) : String := String.ofList n.chars

end Number

/-- A double as a value; one that is not finite has no number and becomes `null`. -/
def Value.ofDouble (x : Double) : Value := if x.isFinite then .number (.float x) else .null

end TwinLink.Json
