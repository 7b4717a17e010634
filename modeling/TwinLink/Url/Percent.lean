/-! Percent encoding: a character outside a part's alphabet is written as the bytes of its
UTF-8 form, each as a percent sign and two hexadecimal digits. -/

namespace TwinLink.Url.Percent

def hexDigit (n : Nat) : Char :=
  if n < 10 then Char.ofNat (n + 48) else Char.ofNat (n + 55)

def encodeByte (b : UInt8) : List Char := ['%', hexDigit (b.toNat / 16), hexDigit (b.toNat % 16)]

def encodeChar (c : Char) : List Char := (String.utf8EncodeChar c).flatMap encodeByte

/-- Encodes the characters that are not ASCII or lie in `set`. -/
def encode (set : Char → Bool) (s : List Char) : List Char :=
  s.flatMap fun c => if c.toNat < 0x80 && !set c then [c] else encodeChar c

def isControl (c : Char) : Bool := c.toNat < 0x20 || c.toNat == 0x7F

def inFragment (c : Char) : Bool := isControl c || " \"<>`".toList.contains c

def inQuery (c : Char) : Bool := isControl c || " \"#<>'".toList.contains c

def inPath (c : Char) : Bool := inFragment c || "#?^\x7b\x7d".toList.contains c

def inUserinfo (c : Char) : Bool := inPath c || "/:;=@[\\]|".toList.contains c

def hexValue? (c : Char) : Option Nat :=
  if c.isDigit then some (c.toNat - 48)
  else if 'a' ≤ c ∧ c ≤ 'f' then some (c.toNat - 87)
  else if 'A' ≤ c ∧ c ≤ 'F' then some (c.toNat - 55)
  else none

/-- The bytes of a text in which a percent sign and two hexadecimal digits are one byte. A
percent sign without them stands for itself. -/
def decode : List Char → List UInt8
  | [] => []
  | '%' :: a :: b :: s =>
    match hexValue? a, hexValue? b with
    | some x, some y => UInt8.ofNat (16 * x + y) :: decode s
    | _, _ => '%'.toUInt8 :: decode (a :: b :: s)
  | c :: s => String.utf8EncodeChar c ++ decode s

end TwinLink.Url.Percent
