import TwinLink.Json.Value
import TwinLink.Text.Split

/-! Looking up a value along a path of names and indexes. Segments stand behind slashes;
inside one `~1` is a slash and `~0` a tilde. An index into an array is a decimal number
without a sign and without leading zeros. -/

namespace TwinLink.Json.Pointer

/-- The segments between slashes. -/
def segments (s : List Char) : List (List Char) := Text.pieces (· == '/') s

/-- Replaces the pair of characters `a`, `b` by `c` wherever it stands. -/
def replacePair (a b c : Char) : List Char → List Char
  | x :: y :: s =>
    if x = a ∧ y = b then c :: replacePair a b c s else x :: replacePair a b c (y :: s)
  | s => s

def unescape (segment : List Char) : List Char :=
  replacePair '~' '0' '~' (replacePair '~' '1' '/' segment)

/-- The place in an array that a segment names. -/
def index? (segment : List Char) : Option Nat :=
  match segment with
  | [] => none
  | ['0'] => some 0
  | '0' :: _ => none
  | s =>
    if s.all Char.isDigit then some (s.foldl (fun n c => n * 10 + (c.toNat - '0'.toNat)) 0)
    else none

def step (segment : List Char) : Value → Option Value
  | .object members => Members.find? (String.ofList (unescape segment)) members
  | .array items => (index? (unescape segment)).bind (items[·]?)
  | _ => none

/-- The value at the end of a path of segments. -/
def follow : List (List Char) → Value → Option Value
  | [], v => some v
  | segment :: rest, v => (step segment v).bind (follow rest)

/-- The value at a pointer: the whole for the empty one, nothing if it begins without a
slash. -/
def lookup (pointer : String) (v : Value) : Option Value :=
  match pointer.toList with
  | [] => some v
  | '/' :: s => follow (segments s) v
  | _ => none

end TwinLink.Json.Pointer
