import TwinLink.Json.Reader

/-! Passing over a value that nobody wants. Only its form is checked: brackets may nest to
any depth, numbers may have any size and surrogates need not be paired. -/

namespace TwinLink.Json.Skip

def digits (s : List Char) : List Char := s.dropWhile Char.isDigit

def exponent (s : List Char) : Except Fault (List Char) :=
  let s := match s with
    | '+' :: s => s
    | '-' :: s => s
    | s => s
  match s with
  | c :: s => if c.isDigit then .ok (digits s) else .error .invalidNumber
  | [] => .error .invalidNumber

def afterDecimals : List Char → Except Fault (List Char)
  | 'e' :: s => exponent s
  | 'E' :: s => exponent s
  | s => .ok s

def afterWhole : List Char → Except Fault (List Char)
  | '.' :: c :: s => if c.isDigit then afterDecimals (digits s) else .error .invalidNumber
  | '.' :: [] => .error .invalidNumber
  | s => afterDecimals s

/-- A number without its sign. -/
def number : List Char → Except Fault (List Char)
  | '0' :: c :: s => if c.isDigit then .error .invalidNumber else afterWhole (c :: s)
  | c :: s => if c.isDigit then afterWhole (digits s) else .error .invalidNumber
  | [] => .error .invalidNumber

/-- What stands between a name and its value, with the name. -/
def name (s : List Char) : Except Fault (List Char) :=
  match skipBlanks s with
  | '"' :: s => do colon (← Quoted.skip s)
  | [] => .error .endOfObject
  | _ => .error .keyNotString

mutual

/-- A value of which the brackets and what they hold number at most `fuel`. -/
def valueFrom : Nat → List Char → Except Fault (List Char)
  | 0, _ => .error .endOfValue
  | fuel + 1, s =>
    match skipBlanks s with
    | [] => .error .endOfValue
    | 'n' :: s => ident "ull".toList s
    | 't' :: s => ident "rue".toList s
    | 'f' :: s => ident "alse".toList s
    | '"' :: s => Quoted.skip s
    | '-' :: s => number s
    | '[' :: s =>
      match skipBlanks s with
      | [] => .error .endOfList
      | ']' :: s => .ok s
      | s => do itemsFrom fuel (← valueFrom fuel s)
    | '{' :: s =>
      match skipBlanks s with
      | [] => .error .endOfObject
      | '}' :: s => .ok s
      | s => do membersFrom fuel (← valueFrom fuel (← name s))
    | c :: s => if c.isDigit then number (c :: s) else .error .expectedValue

/-- The items after the first one. -/
def itemsFrom : Nat → List Char → Except Fault (List Char)
  | 0, _ => .error .endOfList
  | fuel + 1, s =>
    match skipBlanks s with
    | [] => .error .endOfList
    | ']' :: s => .ok s
    | ',' :: s => do itemsFrom fuel (← valueFrom fuel s)
    | _ => .error .expectedCommaOrBracket

/-- The members after the first one. -/
def membersFrom : Nat → List Char → Except Fault (List Char)
  | 0, _ => .error .endOfObject
  | fuel + 1, s =>
    match skipBlanks s with
    | [] => .error .endOfObject
    | '}' :: s => .ok s
    | ',' :: s => do membersFrom fuel (← valueFrom fuel (← name s))
    | _ => .error .expectedCommaOrBrace

end

def value (s : List Char) : Except Fault (List Char) := valueFrom (2 * s.length + 1) s

end TwinLink.Json.Skip
