import TwinLink.Json.Skip
import TwinLink.Json.Typed

/-! The grammar of JSON, apart from any reader. A document is the tree that a text spells: its
numerals digit by digit, its strings piece by piece, its members in their order and with all their
repetitions; only the blanks are left out. `Spells d s t` says that `s` is a text of `d` with `t`
behind it, so that what follows a text needs no place of its own in the rules.

What a document stands for is a second step, and it may fail. A numeral has to be finite as a
double, a surrogate has to have its other half, and only so many brackets may be open at once:
`Document.Readable` names these limits, and `Document.value?` gives the value within them. -/

namespace TwinLink.Json

/-- A part of a string: a character, written as it is or by a letter behind a backslash, or a
number of four hexadecimal digits. -/
inductive Piece where
  | char (c : Char)
  | unit (n : Nat)
  deriving DecidableEq, Repr

/-- What may follow a number: a blank, a comma or a closing bracket, or nothing. -/
def isDelimiter (c : Char) : Bool := isBlank c || c == ',' || c == ']' || c == '}'

def Delimited (s : List Char) : Prop := ∀ c ∈ s.head?, isDelimiter c = true

theorem isDelimiter_iff {c : Char} : isDelimiter c = true ↔ c = ' ' ∨ c = '\n' ∨ c = '\t' ∨
    c = '\r' ∨ c = ',' ∨ c = ']' ∨ c = '}' := by
  simp [isDelimiter, isBlank, or_assoc]

namespace Quoted

/-- `s` spells the pieces up to the closing quote, and `t` follows. -/
inductive Spells : List Piece → List Char → List Char → Prop
  | close {t : List Char} : Spells [] ('"' :: t) t
  | char {c : Char} {ps : List Piece} {s t : List Char} (hc : 0x20 ≤ c.toNat) (hq : c ≠ '"')
      (hb : c ≠ '\\') (h : Spells ps s t) : Spells (.char c :: ps) (c :: s) t
  | letter {l c : Char} {ps : List Piece} {s t : List Char} (hl : letter? l = some c)
      (h : Spells ps s t) : Spells (.char c :: ps) ('\\' :: l :: s) t
  | unit {c₁ c₂ c₃ c₄ : Char} {n₁ n₂ n₃ n₄ : Nat} {ps : List Piece} {s t : List Char}
      (h₁ : hexValue? c₁ = some n₁) (h₂ : hexValue? c₂ = some n₂) (h₃ : hexValue? c₃ = some n₃)
      (h₄ : hexValue? c₄ = some n₄) (h : Spells ps s t) :
      Spells (.unit (((n₁ * 16 + n₂) * 16 + n₃) * 16 + n₄) :: ps)
        ('\\' :: 'u' :: c₁ :: c₂ :: c₃ :: c₄ :: s) t

/-- The characters that the pieces stand for, unless a surrogate is alone. -/
def chars? : List Piece → Option (List Char)
  | [] => some []
  | .char c :: ps => (chars? ps).map (c :: ·)
  | .unit n :: ps =>
    if isLowSurrogate n then none
    else if isHighSurrogate n then
      match ps with
      | .unit m :: ps => if isLowSurrogate m then (chars? ps).map (paired n m :: ·) else none
      | _ => none
    else (chars? ps).map (Char.ofNat n :: ·)

def text? (ps : List Piece) : Option String := (chars? ps).map String.ofList

end Quoted

/-- One digit or more. -/
def IsDigits (s : List Char) : Prop := s ≠ [] ∧ ∀ c ∈ s, c.isDigit = true

/-- The power of ten behind a numeral. -/
structure Exponent where
  mark : Char
  sign : List Char
  digits : List Char

structure Exponent.WellFormed (x : Exponent) : Prop where
  mark : x.mark = 'e' ∨ x.mark = 'E'
  sign : x.sign = [] ∨ x.sign = ['+'] ∨ x.sign = ['-']
  digits : IsDigits x.digits

def Exponent.chars : Option Exponent → List Char
  | none => []
  | some x => x.mark :: (x.sign ++ x.digits)

/-- A number as it is written. -/
structure Numeral where
  negative : Bool
  whole : List Char
  fraction : Option (List Char)
  exponent : Option Exponent

namespace Numeral

structure WellFormed (l : Numeral) : Prop where
  whole : IsDigits l.whole
  /-- There are no leading zeros. -/
  leading : l.whole = ['0'] ∨ l.whole.head? ≠ some '0'
  fraction : ∀ ds ∈ l.fraction, IsDigits ds
  exponent : ∀ x ∈ l.exponent, x.WellFormed

/-- What stands behind the whole digits. -/
def tail (l : Numeral) : List Char :=
  match l.fraction with
  | none => Exponent.chars l.exponent
  | some ds => '.' :: (ds ++ Exponent.chars l.exponent)

def unsigned (l : Numeral) : List Char := l.whole ++ l.tail

def chars (l : Numeral) : List Char :=
  if l.negative then '-' :: l.unsigned else l.unsigned

/-- A number without a sign, a fraction and an exponent. -/
structure IsNatural (l : Numeral) : Prop where
  positive : l.negative = false
  fraction : l.fraction = none
  exponent : l.exponent = none

/-- The double `± n · 10^(e + x)`. An exponent beyond all bounds makes zero or has no double. -/
def scaled? (negative : Bool) (n : Nat) (e : Int) : Option Exponent → Option Number
  | none => (Number.ofParts negative n e).toOption
  | some x =>
    let power := Nat.ofDigitChars 10 x.digits 0
    if power ≤ Number.greatestExponent then
      (Number.ofParts negative n (if x.sign = ['-'] then e - power else e + power)).toOption
    else if n ≠ 0 ∧ x.sign ≠ ['-'] then none
    else some (.float (Number.signed negative (.zero false)))

/-- The double of the whole digits `n · 10^e` with all that stands behind them. Decimals count as
far as they fit 64 bits together with the digits before. -/
def decimal? (l : Numeral) (n : Nat) (e : Int) : Option Number :=
  match l.fraction with
  | none => scaled? l.negative n e l.exponent
  | some ds =>
    let (m, count, _) := Number.gather n ds
    scaled? l.negative m (e - count) l.exponent

/-- The number that a numeral stands for, unless it is too great for a double. Whole digits count as
far as they fit 64 bits together, and each one beyond raises the exponent by one. -/
def number? (l : Numeral) : Option Number :=
  let (n, _, beyond) := Number.gather 0 l.whole
  if beyond = [] ∧ l.tail = [] then some (Number.whole l.negative n)
  else l.decimal? n beyond.length

end Numeral

/-- A JSON text without its blanks. -/
inductive Document where
  | null
  | bool (b : Bool)
  | number (l : Numeral)
  | string (ps : List Piece)
  | array (items : List Document)
  | object (members : List (List Piece × Document))

section List

variable {α : Type} (R : α → List Char → List Char → Prop) (close : Char)

/-- What follows the first element of a list: others behind commas, and the closing bracket. -/
inductive More : List α → List Char → List Char → Prop
  | close {s t : List Char} (h : skipBlanks s = close :: t) : More [] s t
  | next {x : α} {xs : List α} {s s₁ s₂ t : List Char} (h : skipBlanks s = ',' :: s₁)
      (hx : R x (skipBlanks s₁) s₂) (hxs : More xs s₂ t) : More (x :: xs) s t

/-- The elements of a list with commas between them, and the closing bracket. -/
inductive Listed : List α → List Char → List Char → Prop
  | empty {s t : List Char} (h : skipBlanks s = close :: t) : Listed [] s t
  | first {x : α} {xs : List α} {s s₁ t : List Char} (hx : R x (skipBlanks s) s₁)
      (hxs : More R close xs s₁ t) : Listed (x :: xs) s t

/-- A name, a colon and an element. -/
inductive Entry : List Piece × α → List Char → List Char → Prop
  | mk {ps : List Piece} {x : α} {s s₁ s₂ t : List Char} (hn : Quoted.Spells ps s s₁)
      (h : skipBlanks s₁ = ':' :: s₂) (hx : R x (skipBlanks s₂) t) : Entry (ps, x) ('"' :: s) t

end List

namespace Document

/-- `s` is a text of the document, and `t` follows. -/
inductive Spells : Document → List Char → List Char → Prop
  | null {t : List Char} : Spells .null ('n' :: 'u' :: 'l' :: 'l' :: t) t
  | isTrue {t : List Char} : Spells (.bool true) ('t' :: 'r' :: 'u' :: 'e' :: t) t
  | isFalse {t : List Char} : Spells (.bool false) ('f' :: 'a' :: 'l' :: 's' :: 'e' :: t) t
  | number {l : Numeral} {s t : List Char} (hl : l.WellFormed) (hs : s = l.chars ++ t) :
      Spells (.number l) s t
  | string {ps : List Piece} {s t : List Char} (h : Quoted.Spells ps s t) :
      Spells (.string ps) ('"' :: s) t
  | array {ds : List Document} {s t : List Char} (h : Listed Spells ']' ds s t) :
      Spells (.array ds) ('[' :: s) t
  | object {ms : List (List Piece × Document)} {s t : List Char}
      (h : Listed (Entry Spells) '}' ms s t) : Spells (.object ms) ('{' :: s) t

/-- The text spells the document, blanks around it apart. -/
def Fills (d : Document) (text : String) : Prop :=
  ∃ t, Spells d (skipBlanks text.toList) t ∧ skipBlanks t = []

/-- The limits of a reader: at most `depth` brackets are open at once, every number is finite as a
double, and no surrogate is alone. -/
inductive Readable : Nat → Document → Prop
  | null {depth : Nat} : Readable depth .null
  | bool {depth : Nat} {b : Bool} : Readable depth (.bool b)
  | number {depth : Nat} {l : Numeral} (h : l.number?.isSome) : Readable depth (.number l)
  | string {depth : Nat} {ps : List Piece} (h : (Quoted.text? ps).isSome) :
      Readable depth (.string ps)
  | array {depth : Nat} {ds : List Document} (h : ∀ d ∈ ds, Readable depth d) :
      Readable (depth + 1) (.array ds)
  | object {depth : Nat} {ms : List (List Piece × Document)}
      (hn : ∀ m ∈ ms, (Quoted.text? m.1).isSome) (h : ∀ m ∈ ms, Readable depth m.2) :
      Readable (depth + 1) (.object ms)

end Document

/-- Takes the members one after the other; `step` makes something of a name and what is under it. -/
def foldMembers {σ : Type} (step : σ → String → Document → Option σ) (start : σ)
    (ms : List (List Piece × Document)) : Option σ :=
  ms.foldlM (fun acc m => (Quoted.text? m.1).bind fun name => step acc name m.2) start

namespace Document

/-- The value of a document within the limits of a reader. -/
def value? : Nat → Document → Option Value
  | _, .null => some .null
  | _, .bool b => some (.bool b)
  | _, .number l => l.number?.map .number
  | _, .string ps => (Quoted.text? ps).map .string
  | 0, .array _ => none
  | depth + 1, .array ds => (ds.mapM (value? depth)).map .array
  | 0, .object _ => none
  | depth + 1, .object ms =>
    (foldMembers (fun acc name d => (value? depth d).map (Members.insert name · acc)) [] ms).map
      .object

/-- What stands under a name, in order. -/
def under (name : String) (ms : List (List Piece × Document)) : List Document :=
  (ms.filter fun m => Quoted.text? m.1 = some name).map Prod.snd

/-- Induction over a document with a hypothesis for each of its items or members. -/
theorem induction {P : Document → Prop} (null : P .null) (bool : ∀ b, P (.bool b))
    (number : ∀ l, P (.number l)) (string : ∀ ps, P (.string ps))
    (array : ∀ ds, (∀ d ∈ ds, P d) → P (.array ds))
    (object : ∀ ms, (∀ m ∈ ms, P m.2) → P (.object ms)) : ∀ d, P d
  | .null => null
  | .bool b => bool b
  | .number l => number l
  | .string ps => string ps
  | .array ds => array ds fun d _ => induction null bool number string array object d
  | .object ms => object ms fun m _ => induction null bool number string array object m.2
termination_by d => sizeOf d
decreasing_by
  · have := List.sizeOf_lt_of_mem ‹d ∈ ds›
    simp only [Document.array.sizeOf_spec]
    omega
  · have := List.sizeOf_lt_of_mem ‹m ∈ ms›
    cases m
    simp only [Document.object.sizeOf_spec, Prod.mk.sizeOf_spec] at *
    omega

end Document

end TwinLink.Json
