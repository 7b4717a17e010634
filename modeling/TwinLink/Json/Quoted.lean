import TwinLink.Json.Fault

/-! Strings in JSON. Written, the quote, the backslash and the characters below the space
are escaped and all others stand for themselves. Read, an escape may also give any
character by four hexadecimal digits, those above `0xFFFF` by a pair of surrogates. -/

namespace TwinLink.Json

/-- A reading step: what was read and what follows it, or the first fault. -/
abbrev Read (α : Type) := List Char → Except Fault (α × List Char)

namespace Quoted

def hexDigit (n : Nat) : Char :=
  if n < 10 then Char.ofNat (n + 48) else Char.ofNat (n + 87)

def escape (c : Char) : List Char :=
  match c with
  | '"' => ['\\', '"']
  | '\\' => ['\\', '\\']
  | '\x08' => ['\\', 'b']
  | '\t' => ['\\', 't']
  | '\n' => ['\\', 'n']
  | '\x0c' => ['\\', 'f']
  | '\r' => ['\\', 'r']
  | c =>
    if c.toNat < 0x20 then ['\\', 'u', '0', '0', hexDigit (c.toNat / 16), hexDigit (c.toNat % 16)]
    else [c]

def encode (s : List Char) : List Char := '"' :: s.flatMap escape ++ ['"']

def hexValue? (c : Char) : Option Nat :=
  if c.isDigit then some (c.toNat - 48)
  else if 'a' ≤ c ∧ c ≤ 'f' then some (c.toNat - 87)
  else if 'A' ≤ c ∧ c ≤ 'F' then some (c.toNat - 55)
  else none

/-- The number of bytes that `s` takes. -/
def bytes (s : List Char) : Nat := s.foldr (fun c n => c.utf8Size + n) 0

/-- Four hexadecimal digits. Fewer than four bytes are an unfinished string. -/
def hexFour : Read Nat
  | a :: b :: c :: d :: s =>
    match hexValue? a, hexValue? b, hexValue? c, hexValue? d with
    | some a, some b, some c, some d => .ok (((a * 16 + b) * 16 + c) * 16 + d, s)
    | _, _, _, _ => .error .invalidEscape
  | s => .error (if bytes s < 4 then .endOfString else .invalidEscape)

def isLowSurrogate (n : Nat) : Bool := 0xDC00 ≤ n && n ≤ 0xDFFF

def isHighSurrogate (n : Nat) : Bool := 0xD800 ≤ n && n ≤ 0xDBFF

/-- The character that two surrogates stand for. -/
def paired (high low : Nat) : Char :=
  Char.ofNat (0x10000 + (high - 0xD800) * 0x400 + (low - 0xDC00))

/-- The low surrogate that follows a high one. -/
def lowSurrogate (high : Nat) : Read Char
  | [] => .error .endOfString
  | '\\' :: [] => .error .endOfString
  | '\\' :: 'u' :: s => do
    let (low, s) ← hexFour s
    if isLowSurrogate low then .ok (paired high low, s) else .error .loneSurrogate
  | _ => .error .unfinishedSurrogate

/-- The letter after a backslash, other than `u`, and what it stands for. -/
def letter? : Char → Option Char
  | '"' => some '"'
  | '\\' => some '\\'
  | '/' => some '/'
  | 'b' => some '\x08'
  | 'f' => some '\x0c'
  | 'n' => some '\n'
  | 'r' => some '\r'
  | 't' => some '\t'
  | _ => none

/-- What follows a backslash. -/
def escaped : Read Char
  | [] => .error .endOfString
  | 'u' :: s => do
    let (n, s) ← hexFour s
    if isLowSurrogate n then .error .loneSurrogate
    else if isHighSurrogate n then lowSurrogate n s
    else .ok (Char.ofNat n, s)
  | c :: s =>
    match letter? c with
    | some c => .ok (c, s)
    | none => .error .invalidEscape

/-- The characters up to the closing quote; `fuel` is at least their number. -/
def decodeFrom : Nat → Read (List Char)
  | 0, _ => .error .endOfString
  | _ + 1, [] => .error .endOfString
  | _ + 1, '"' :: s => .ok ([], s)
  | fuel + 1, '\\' :: s => do
    let (c, s) ← escaped s
    let (cs, s) ← decodeFrom fuel s
    .ok (c :: cs, s)
  | fuel + 1, c :: s =>
    if c.toNat < 0x20 then .error .controlCharacter
    else do
      let (cs, s) ← decodeFrom fuel s
      .ok (c :: cs, s)

/-- The text that an opening quote begins. -/
def decode : Read String := fun s => do
  let (cs, s) ← decodeFrom (s.length + 1) s
  .ok (String.ofList cs, s)

/-- Passes over what follows a backslash; surrogates need not be paired. -/
def skipEscaped (s : List Char) : Except Fault (List Char) :=
  match s with
  | [] => .error .endOfString
  | 'u' :: s => (hexFour s).map Prod.snd
  | c :: s => if (letter? c).isSome then .ok s else .error .invalidEscape

/-- Passes over the characters up to the closing quote. -/
def skipFrom : Nat → List Char → Except Fault (List Char)
  | 0, _ => .error .endOfString
  | _ + 1, [] => .error .endOfString
  | _ + 1, '"' :: s => .ok s
  | fuel + 1, '\\' :: s => do skipFrom fuel (← skipEscaped s)
  | fuel + 1, c :: s => if c.toNat < 0x20 then .error .controlCharacter else skipFrom fuel s

def skip (s : List Char) : Except Fault (List Char) := skipFrom (s.length + 1) s

end Quoted

end TwinLink.Json
