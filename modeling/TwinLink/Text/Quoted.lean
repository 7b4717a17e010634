import TwinLink.Text.Printable

/-! Quoted text as it appears in diagnostics. The quote and the backslash stand behind a
backslash, four controls have a letter or digit of their own, and every other character
that does not print alone is given by its number in braces. -/

namespace TwinLink.Text

namespace Quoted

/-- Lower-case hexadecimal digits without leading zeros. -/
def hex (n : Nat) : List Char := Nat.toDigits 16 n

def escape (c : Char) : List Char :=
  match c with
  | '"' => ['\\', '"']
  | '\\' => ['\\', '\\']
  | '\x00' => ['\\', '0']
  | '\t' => ['\\', 't']
  | '\n' => ['\\', 'n']
  | '\r' => ['\\', 'r']
  | c => if isPrintable c then [c] else ['\\', 'u', '{'] ++ hex c.toNat ++ ['}']

def encode (s : List Char) : List Char := '"' :: s.flatMap escape ++ ['"']

end Quoted

/-- The text between quotes. -/
def quoted (s : String) : String := String.ofList (Quoted.encode s.toList)

end TwinLink.Text
