import TwinLink.Json.Reader

/-! Reading a value of one wanted kind. A value of another kind is named in the fault; for
that a string or number is read to its end, while a bracket alone tells the kind. -/

namespace TwinLink.Json

/-- The fault for what begins here, where `wanted` was expected. -/
def unexpected (wanted : String) (s : List Char) : Fault :=
  let found : Except Fault Found := match skipBlanks s with
    | 'n' :: s => (ident "ull".toList s).map fun _ => .null
    | 't' :: s => (ident "rue".toList s).map fun _ => .bool true
    | 'f' :: s => (ident "alse".toList s).map fun _ => .bool false
    | '"' :: s => (Quoted.decode s).map fun r => .string r.1
    | '-' :: s => (Number.read true s).map fun r => .number r.1
    | '[' :: _ => .ok .sequence
    | '{' :: _ => .ok .map
    | c :: s =>
      if c.isDigit then (Number.read false (c :: s)).map fun r => .number r.1
      else .error .expectedValue
    | [] => .error .endOfValue
  match found with
  | .ok found => .invalidType found wanted
  | .error fault => fault

/-- An unsigned number of 64 bits. -/
def natural : Read Nat := fun s =>
  let number (negative : Bool) (s : List Char) : Except Fault (Nat × List Char) := do
    match ← Number.read negative s with
    | (.integer (.ofNat n), s) => .ok (n, s)
    | (.integer n, _) => .error (.invalidValue (.number (.integer n)) "u64")
    | (n, _) => .error (.invalidType (.number n) "u64")
  match skipBlanks s with
  | [] => .error .endOfValue
  | '-' :: s => number true s
  | c :: s => if c.isDigit then number false (c :: s) else .error (unexpected "u64" (c :: s))

def string : Read String := fun s =>
  match skipBlanks s with
  | '"' :: s => Quoted.decode s
  | s => .error (unexpected "a string" s)

/-- A value that may be `null`. -/
def optional {α : Type} (read : Read α) : Read (Option α) := fun s =>
  match skipBlanks s with
  | 'n' :: s => (ident "ull".toList s).map (none, ·)
  | s => (read s).map fun r => (some r.1, r.2)

/-- The value of a member, after its name. -/
def member {α : Type} (read : Read α) : Read α := fun s => do read (← colon s)

end TwinLink.Json
