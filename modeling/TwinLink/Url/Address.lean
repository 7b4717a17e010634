import TwinLink.Text.Split

/-! Numeric hosts. An address of 32 bits has one to four numbers, decimal, octal or
hexadecimal, of which the last fills the remaining bytes. An address of 128 bits has eight
pieces of up to four hexadecimal digits; one run of zero pieces may be left out, and the
last two pieces may be given as four decimal numbers. -/

namespace TwinLink.Url

namespace Address4

def digitValue? (c : Char) : Option Nat :=
  if c.isDigit then some (c.toNat - 48)
  else if 'a' ≤ c ∧ c ≤ 'f' then some (c.toNat - 87)
  else if 'A' ≤ c ∧ c ≤ 'F' then some (c.toNat - 55)
  else none

/-- The value of digits in a base, if all are digits of that base. -/
def inBase? (base : Nat) (s : List Char) : Option Nat :=
  s.foldl (fun n c => do
    let n ← n
    let d ← digitValue? c
    if d < base then some (base * n + d) else none) (some 0)

/-- A number: hexadecimal behind `0x`, octal behind another zero, else decimal. -/
def number? : List Char → Option Nat
  | [] => none
  | ['0'] => some 0
  | '0' :: 'x' :: s => inBase? 16 s
  | '0' :: 'X' :: s => inBase? 16 s
  | '0' :: s => inBase? 8 s
  | s => inBase? 10 s

/-- The pieces between points, without an empty last one. -/
def parts (s : List Char) : List (List Char) :=
  let parts := Text.pieces (· == '.') s
  if parts.getLast? = some [] then parts.dropLast else parts

/-- Whether a host is to be read as a number. -/
def isNumeric (s : List Char) : Bool :=
  match (parts s).getLast? with
  | none => false
  | some last => (!last.isEmpty && last.all Char.isDigit) || (number? last).isSome

def read? (s : List Char) : Option Nat := do
  let numbers ← (parts s).mapM number?
  let last ← numbers.getLast?
  let first := numbers.dropLast
  if 3 < first.length ∨ first.any (255 < ·) ∨ Nat.pow 256 (4 - first.length) ≤ last then none
  else some (first.zipIdx.foldl (fun n p => n + p.1 * Nat.pow 256 (3 - p.2)) last)

def chars (n : Nat) : List Char :=
  [n / 16777216 % 256, n / 65536 % 256, n / 256 % 256, n % 256].map (Nat.toDigits 10)
    |>.intersperse ['.'] |>.flatten

end Address4

namespace Address6

/-- A decimal number up to 255 without leading zeros. -/
def octet? : List Char → Option Nat
  | [] => none
  | ['0'] => some 0
  | '0' :: _ => none
  | s => if s.all Char.isDigit then (Address4.inBase? 10 s).filter (· ≤ 255) else none

/-- Four octets as two pieces. -/
def tail? (s : List Char) : Option (List Nat) :=
  match (Text.pieces (· == '.') s).map octet? with
  | [some a, some b, some c, some d] => some [256 * a + b, 256 * c + d]
  | _ => none

def isHex (c : Char) : Bool := (Address4.digitValue? c).isSome

/-- The pieces of `s` after those in `done`, which stand in reverse order, and the place
where zeros were left out; `fuel` is at least the number of characters. -/
def piecesFrom : Nat → List Nat → Option Nat → List Char → Option (List Nat × Option Nat)
  | _, done, gap, [] => some (done.reverse, gap)
  | 0, _, _, _ :: _ => none
  | fuel + 1, done, gap, c :: s =>
    if done.length = 8 then none
    else if c = ':' then
      if gap.isSome then none else piecesFrom fuel (0 :: done) (some (done.length + 1)) s
    else
      let digits := (c :: s).take 4 |>.takeWhile isHex
      match (c :: s).drop digits.length with
      | '.' :: _ =>
        if digits.isEmpty ∨ 6 < done.length then none
        else (tail? (c :: s)).map fun t => (done.reverse ++ t, gap)
      | rest => do
        let piece ← Address4.inBase? 16 digits
        match rest with
        | [] => some ((piece :: done).reverse, gap)
        | ':' :: d :: s => piecesFrom fuel (piece :: done) gap (d :: s)
        | _ => none

/-- The eight pieces of an address. -/
def read? (s : List Char) : Option (List Nat) := do
  let (pieces, gap) ← match s with
    | ':' :: ':' :: rest => piecesFrom s.length [0] (some 1) rest
    | ':' :: _ => none
    | [_] => none
    | s => piecesFrom s.length [] none s
  match gap with
  | some place =>
    some (pieces.take place ++ List.replicate (8 - pieces.length) 0 ++ pieces.drop place)
  | none => if pieces.length = 8 then some pieces else none

/-- The number of zeros at the head. -/
def zeros (pieces : List Nat) : Nat := (pieces.takeWhile (· == 0)).length

/-- The first of the longest runs of at least two zeros, as its place and length. -/
def gap? (pieces : List Nat) : Option (Nat × Nat) :=
  (List.range pieces.length).foldl (fun best i =>
    let n := zeros (pieces.drop i)
    if 2 ≤ n ∧ (best.map Prod.snd).getD 0 < n then some (i, n) else best) none

def joined (pieces : List Nat) : List Char :=
  (pieces.map (Nat.toDigits 16)).intersperse [':'] |>.flatten

def chars (pieces : List Nat) : List Char :=
  match gap? pieces with
  | none => joined pieces
  | some (i, n) => joined (pieces.take i) ++ [':', ':'] ++ joined (pieces.drop (i + n))

end Address6

end TwinLink.Url
