import TwinLink.Text.Printable

/-! Labels of host names that stand for text outside ASCII. Behind `xn--` come the ASCII
characters of the text, up to the last hyphen, and then numbers in a base of 36 with
changing thresholds, each of which says where the next greater character is inserted. -/

namespace TwinLink.Url.Label

def digit? (c : Char) : Option Nat :=
  if 'a' ≤ c ∧ c ≤ 'z' then some (c.toNat - 'a'.toNat)
  else if c.isDigit then some (c.toNat - '0'.toNat + 26)
  else none

def digit (n : Nat) : Char := if n < 26 then Char.ofNat (n + 97) else Char.ofNat (n + 22)

def threshold (k bias : Nat) : Nat := if k ≤ bias then 1 else min 26 (k - bias)

theorem threshold_pos (k bias : Nat) : 0 < threshold k bias := by
  unfold threshold
  split <;> omega

theorem threshold_le (k bias : Nat) : threshold k bias ≤ 26 := by
  unfold threshold
  split <;> omega

/-- Divides by 35 until the number is small; `fuel` bounds the divisions. -/
def settle : Nat → Nat → Nat → Nat × Nat
  | 0, delta, k => (delta, k)
  | fuel + 1, delta, k => if 455 < delta then settle fuel (delta / 35) (k + 36) else (delta, k)

def adapt (delta count : Nat) (first : Bool) : Nat :=
  let delta := if first then delta / 700 else delta / 2
  let (delta, k) := settle 32 (delta + delta / count) 0
  k + 36 * delta / (delta + 38)

/-- One number of variable length: its value and what follows it. -/
def number? (bias : Nat) : Nat → Nat → Nat → List Char → Option (Nat × List Char)
  | _, _, _, [] => none
  | k, weight, n, c :: s => do
    let d ← digit? c
    let n := n + d * weight
    let t := threshold k bias
    if UInt32.size ≤ n then none
    else if d < t then some (n, s)
    else number? bias (k + 36) (weight * (36 - t)) n s

/-- Inserts the characters that the numbers in `s` give into `text`; `fuel` bounds their
count. -/
def insertAll : Nat → Nat → Nat → Nat → List Nat → List Char → Option (List Nat)
  | _, _, _, _, text, [] => some text
  | 0, _, _, _, _, _ :: _ => none
  | fuel + 1, code, place, bias, text, s => do
    let (delta, s) ← number? bias 36 1 0 s
    let count := text.length + 1
    let spot := (place + delta) % count
    let code := code + (place + delta) / count
    let text := text.take spot ++ code :: text.drop spot
    if 0x10FFFF < code then none
    else insertAll fuel code (spot + 1) (adapt delta count (place == 0)) text s

/-- The text that a label in lower case stands for behind its `xn--`. -/
def decode? (s : List Char) : Option (List Nat) :=
  let plain := (s.reverse.dropWhile (· ≠ '-')).drop 1 |>.reverse
  let numbers := (s.reverse.takeWhile (· ≠ '-')).reverse
  if numbers.isEmpty then none
  else insertAll numbers.length 128 0 72 (plain.map Char.toNat) numbers

/-- A number of variable length, from the digit of place `k` on. -/
def numberChars (bias k n : Nat) : List Char :=
  let t := threshold k bias
  if n < t then [digit n]
  else digit (t + (n - t) % (36 - t)) :: numberChars bias (k + 36) ((n - t) / (36 - t))
termination_by n
decreasing_by
  have hpos := threshold_pos k bias
  exact Nat.lt_of_le_of_lt (Nat.div_le_self ..) (by omega)

/-- The numbers written so far, the value of the next one up to here, and how many
characters have been inserted. -/
structure Encoding where
  numbers : List Char
  delta : Nat
  bias : Nat
  count : Nat
  first : Bool

/-- Passes a character while the characters of number `code` are inserted. -/
def Encoding.pass (code : Nat) (e : Encoding) (c : Char) : Encoding :=
  if c.toNat < code then { e with delta := e.delta + 1 }
  else if c.toNat = code then
    { numbers := e.numbers ++ numberChars e.bias 36 e.delta
      delta := 0
      bias := adapt e.delta (e.count + 1) e.first
      count := e.count + 1
      first := false }
  else e

/-- Inserts the characters of a text whose numbers are `codes`, in ascending order, after
those below `next`. -/
def Encoding.insertCodes (text : List Char) (e : Encoding) (next : Nat) : List Nat → Encoding
  | [] => e
  | code :: codes =>
    let e := { e with delta := e.delta + (code - next) * (e.count + 1) }
    let e := text.foldl (Encoding.pass code) e
    insertCodes text { e with delta := e.delta + 1 } (code + 1) codes

def isAscii (c : Char) : Bool := c.toNat < 0x80

/-- What stands behind `xn--` for a text. -/
def encode (text : List Char) : List Char :=
  let plain := text.filter isAscii
  let codes := ((text.filter (!isAscii ·)).map Char.toNat).eraseDups.mergeSort
  let e := Encoding.insertCodes text ⟨[], 0, 72, plain.length, true⟩ 128 codes
  plain ++ (if plain.isEmpty then [] else ['-']) ++ e.numbers

/-- A label of ASCII is good as it stands, or stands behind `xn--` for a text that prints. -/
def isGood : List Char → Bool
  | 'x' :: 'n' :: '-' :: '-' :: s =>
    match decode? s with
    | some text => text.all fun n => Text.isPrintable (Char.ofNat n)
    | none => false
  | _ => true

def lead : List Char := ['x', 'n', '-', '-']

/-- The label for a text in lower case. A text with characters outside ASCII does not look
like the label of another one, and each of them prints. -/
def ofText? (text : List Char) : Option (List Char) :=
  if text.all isAscii then if isGood text then some text else none
  else if lead.isPrefixOf text then none
  else if text.all fun c => isAscii c || Text.isPrintable c then some (lead ++ encode text)
  else none

end TwinLink.Url.Label
