import TwinLink.Json.Scan

/-! Reading values. An object is read member by member: each name is handed to a function
together with what follows it, so that a reader of known members notices a name before its
value. At most 127 brackets may be open at once. -/

namespace TwinLink.Json

/-- The items after the first one, up to the closing bracket; `fuel` is at least their
number. -/
def moreItems {α : Type} (item : Read α) : Nat → Read (List α)
  | 0, _ => .error .endOfList
  | fuel + 1, s =>
    match skipBlanks s with
    | [] => .error .endOfList
    | ']' :: s => .ok ([], s)
    | ',' :: s =>
      match skipBlanks s with
      | [] => .error .endOfValue
      | ']' :: _ => .error .trailingComma
      | s => do
        let (x, s) ← item s
        let (xs, s) ← moreItems item fuel s
        .ok (x :: xs, s)
    | _ => .error .expectedCommaOrBracket

/-- The items that an opening bracket begins. -/
def items {α : Type} (item : Read α) : Read (List α) := fun s =>
  match skipBlanks s with
  | [] => .error .endOfList
  | ']' :: s => .ok ([], s)
  | s => do
    let (x, s) ← item s
    let (xs, s) ← moreItems item s.length s
    .ok (x :: xs, s)

/-- The members after the first one, added to `acc` one after the other. -/
def moreMembers {σ : Type} (member : σ → String → Read σ) : Nat → σ → Read σ
  | 0, _, _ => .error .endOfObject
  | fuel + 1, acc, s =>
    match skipBlanks s with
    | [] => .error .endOfObject
    | '}' :: s => .ok (acc, s)
    | ',' :: s =>
      match skipBlanks s with
      | '"' :: s => do
        let (name, s) ← Quoted.decode s
        let (acc, s) ← member acc name s
        moreMembers member fuel acc s
      | '}' :: _ => .error .trailingComma
      | [] => .error .endOfValue
      | _ => .error .keyNotString
    | _ => .error .expectedCommaOrBrace

/-- The members that an opening brace begins. -/
def members {σ : Type} (member : σ → String → Read σ) (start : σ) : Read σ := fun s =>
  match skipBlanks s with
  | [] => .error .endOfObject
  | '}' :: s => .ok (start, s)
  | '"' :: s => do
    let (name, s) ← Quoted.decode s
    let (acc, s) ← member start name s
    moreMembers member s.length acc s
  | _ => .error .keyNotString

def colon (s : List Char) : Except Fault (List Char) :=
  match skipBlanks s with
  | ':' :: s => .ok s
  | [] => .error .endOfObject
  | _ => .error .expectedColon

/-- The number of brackets that may be open at once. -/
def depthLimit : Nat := 127

/-- A value inside which `depth` more brackets may be opened. -/
def value (depth : Nat) : Read Value := fun s =>
  match skipBlanks s with
  | [] => .error .endOfValue
  | 'n' :: s => (ident "ull".toList s).map (Value.null, ·)
  | 't' :: s => (ident "rue".toList s).map (Value.bool true, ·)
  | 'f' :: s => (ident "alse".toList s).map (Value.bool false, ·)
  | '"' :: s => (Quoted.decode s).map fun r => (Value.string r.1, r.2)
  | '-' :: s => (Number.read true s).map fun r => (Value.number r.1, r.2)
  | '[' :: s =>
    match depth with
    | 0 => .error .tooDeep
    | depth + 1 => (items (value depth) s).map fun r => (Value.array r.1, r.2)
  | '{' :: s =>
    match depth with
    | 0 => .error .tooDeep
    | depth + 1 =>
      (members (fun acc name s => do
        let (v, s) ← value depth (← colon s)
        .ok (Members.insert name v acc, s)) [] s).map fun r => (Value.object r.1, r.2)
  | c :: s =>
    if c.isDigit then (Number.read false (c :: s)).map fun r => (Value.number r.1, r.2)
    else .error .expectedValue

/-- The whole of a text, blanks around it apart. -/
def document {α : Type} (read : Read α) (text : String) : Except Fault α := do
  let (x, s) ← read text.toList
  if (skipBlanks s).isEmpty then .ok x else .error .trailingCharacters

def parse (text : String) : Except Fault Value := document (value depthLimit) text

end TwinLink.Json
