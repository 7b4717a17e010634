import TwinLink.LinkError
import TwinLink.Json.Printer
import TwinLink.Json.Skip
import TwinLink.Json.Typed

/-! Commands for the simulation: a type and a payload. A few types are known and have
constructors; any other passes as it is. On the wire a command is an object with the two
members `type` and `payload` in this order. -/

namespace TwinLink

open Decimal (Double)

inductive TaxType where
  | income
  | corporate
  deriving DecidableEq, Repr

namespace TaxType

def name : TaxType → String
  | income => "income"
  | corporate => "corporate"

def ofName? (s : String) : Option TaxType :=
  if s = "income" then some income
  else if s = "corporate" then some corporate
  else none

/-- A tax type as a JSON string gives it, spelled exactly. -/
def ofText (s : String) : Except Json.Fault TaxType :=
  match ofName? s with
  | some t => .ok t
  | none => .error (.unknownVariant s "`income` or `corporate`")

theorem ofName?_name (t : TaxType) : ofName? t.name = some t := by cases t <;> rfl

end TaxType

structure Command where
  type : String
  payload : Json.Value
  deriving Repr

namespace Command

inductive Kind where
  | pause
  | resume
  | step
  | setBaseRate
  | setTaxRate
  | other
  deriving DecidableEq, Repr

def Kind.ofType (type : String) : Kind :=
  if type = "PAUSE" then pause
  else if type = "RESUME" then resume
  else if type = "STEP" then step
  else if type = "SET_BASE_RATE" then setBaseRate
  else if type = "SET_TAX_RATE" then setTaxRate
  else other

/-- Whether commands of this kind carry a rate. -/
def Kind.hasRate : Kind → Bool
  | setBaseRate | setTaxRate => true
  | _ => false

def kind (c : Command) : Kind := .ofType c.type

def emptyPayload : Json.Value := .object []

def pause : Command := ⟨"PAUSE", emptyPayload⟩

def resume : Command := ⟨"RESUME", emptyPayload⟩

def step : Command := ⟨"STEP", emptyPayload⟩

def setBaseRate (rate : Double) : Command :=
  ⟨"SET_BASE_RATE", .object [("rate", .ofDouble rate)]⟩

def setTaxRate (tax : TaxType) (rate : Double) : Command :=
  ⟨"SET_TAX_RATE", .object [("tax_type", .string tax.name), ("rate", .ofDouble rate)]⟩

/-- The command as one JSON object. -/
def toValue (c : Command) : Json.Value :=
  .object [("type", .string c.type), ("payload", c.payload)]

/-- The rate in the payload is `null`, which stands for a number that is not finite. -/
def lacksRate (c : Command) : Bool :=
  match c.payload with
  | .object members =>
    match Json.Members.find? "rate" members with
    | some .null => true
    | _ => false
  | _ => false

/-- The text on the wire. A command that needs a rate must have a finite one. -/
def encode (c : Command) : Except LinkError String :=
  if c.kind.hasRate && c.lacksRate then
    .error (.encode s!"{c.type} rate is not a finite number")
  else .ok c.toValue.text

def display (c : Command) : String := s!"{c.type} {c.payload.text}"

/-- What has been read of a command. -/
structure Draft where
  type? : Option String
  payload? : Option Json.Value

/-- The member `name` of a command. A known one comes once; any other is passed over. -/
def member (depth : Nat) (d : Draft) (name : String) : Json.Read Draft := fun s =>
  if name = "type" then
    if d.type?.isSome then .error (.duplicateField "type")
    else (Json.member Json.string s).map fun r => ({ d with type? := some r.1 }, r.2)
  else if name = "payload" then
    if d.payload?.isSome then .error (.duplicateField "payload")
    else (Json.member (Json.value depth) s).map fun r => ({ d with payload? := some r.1 }, r.2)
  else do
    let s ← Json.Skip.value (← Json.colon s)
    .ok (d, s)

def finish (d : Draft) : Except Json.Fault Command :=
  match d.type? with
  | some type => .ok ⟨type, d.payload?.getD emptyPayload⟩
  | none => .error (.missingField "type")

/-- The end of an array of which all wanted items have been read. -/
def closing (s : List Char) : Except Json.Fault (List Char) :=
  match Json.skipBlanks s with
  | [] => .error .endOfList
  | ']' :: s => .ok s
  | ',' :: s =>
    match Json.skipBlanks s with
    | ']' :: _ => .error .trailingComma
    | _ => .error .trailingCharacters
  | _ => .error .trailingCharacters

/-- A type and perhaps a payload in an array. -/
def fromItems (depth : Nat) : Json.Read Command := fun s =>
  match Json.skipBlanks s with
  | [] => .error .endOfList
  | ']' :: _ => .error (.invalidLength 0 "struct Command with 2 elements")
  | s => do
    let (type, s) ← Json.string s
    match Json.skipBlanks s with
    | [] => .error .endOfList
    | ']' :: s => .ok (⟨type, emptyPayload⟩, s)
    | ',' :: s =>
      match Json.skipBlanks s with
      | [] => .error .endOfValue
      | ']' :: _ => .error .trailingComma
      | s => do
        let (payload, s) ← Json.value depth s
        let s ← closing s
        .ok (⟨type, payload⟩, s)
    | _ => .error .expectedCommaOrBracket

def read (depth : Nat) : Json.Read Command := fun s =>
  match Json.skipBlanks s with
  | [] => .error .endOfValue
  | '{' :: s => do
    let (d, s) ← Json.members (member depth) ⟨none, none⟩ s
    let c ← finish d
    .ok (c, s)
  | '[' :: s => fromItems depth s
  | s => .error (Json.unexpected "struct Command" s)

/-- A command from its text: an object, in which unknown members are passed over, or an
array. A missing payload is an empty object. -/
def decode (text : String) : Except Json.Fault Command :=
  Json.document (read (Json.depthLimit - 1)) text

end Command

end TwinLink
