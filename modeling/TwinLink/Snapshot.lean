import TwinLink.Json.Pointer
import TwinLink.Json.Printer
import TwinLink.Json.Typed

/-! Snapshots of the simulation. Three members have a type of their own; all others are
sections, kept as they came and in their order. -/

namespace TwinLink

open Decimal (Double)

inductive Timestamp where
  | epoch (seconds : Double)
  | text (s : String)
  deriving DecidableEq, Repr

structure Snapshot where
  tick : Nat
  timestamp : Option Timestamp
  status : Option String
  sections : Json.Members
  deriving Repr

namespace Timestamp

/-- A number or a text; a whole number becomes the nearest double. -/
def ofValue? : Json.Value → Option Timestamp
  | .number (.integer n) => some (.epoch (.ofInt n))
  | .number (.float x) => some (.epoch x)
  | .string s => some (.text s)
  | _ => none

def read (depth : Nat) : Json.Read Timestamp := fun s => do
  let (v, s) ← Json.value depth s
  match ofValue? v with
  | some t => .ok (t, s)
  | none => .error (.noVariant "Timestamp")

def toValue : Timestamp → Json.Value
  | epoch seconds => .ofDouble seconds
  | text s => .string s

end Timestamp

namespace Snapshot

/-- What has been read of a snapshot. -/
structure Draft where
  tick? : Option Nat
  timestamp? : Option (Option Timestamp)
  status? : Option (Option String)
  sections : Json.Members

def Draft.empty : Draft := ⟨none, none, none, []⟩

/-- The member `name` of a snapshot. The typed ones come at most once. -/
def member (depth : Nat) (d : Draft) (name : String) : Json.Read Draft := fun s =>
  if name = "tick" then
    if d.tick?.isSome then .error (.duplicateField "tick")
    else (Json.member Json.natural s).map fun r => ({ d with tick? := some r.1 }, r.2)
  else if name = "timestamp" then
    if d.timestamp?.isSome then .error (.duplicateField "timestamp")
    else (Json.member (Json.optional (Timestamp.read depth)) s).map fun r =>
      ({ d with timestamp? := some r.1 }, r.2)
  else if name = "status" then
    if d.status?.isSome then .error (.duplicateField "status")
    else (Json.member (Json.optional Json.string) s).map fun r =>
      ({ d with status? := some r.1 }, r.2)
  else (Json.member (Json.value depth) s).map fun r =>
    ({ d with sections := Json.Members.insert name r.1 d.sections }, r.2)

def finish (d : Draft) : Except Json.Fault Snapshot :=
  match d.tick? with
  | some tick => .ok ⟨tick, d.timestamp?.join, d.status?.join, d.sections⟩
  | none => .error (.missingField "tick")

def read (depth : Nat) : Json.Read Snapshot := fun s =>
  match Json.skipBlanks s with
  | [] => .error .endOfValue
  | '{' :: s => do
    let (d, s) ← Json.members (member depth) Draft.empty s
    let snapshot ← finish d
    .ok (snapshot, s)
  | s => .error (Json.unexpected "struct Snapshot" s)

def decode (text : String) : Except Json.Fault Snapshot :=
  Json.document (read (Json.depthLimit - 1)) text

/-- The typed members that are there, then the sections. -/
def toValue (s : Snapshot) : Json.Value :=
  .object <|
    [("tick", .number (.integer s.tick))] ++
    s.timestamp.toList.map (fun t => ("timestamp", t.toValue)) ++
    s.status.toList.map (fun t => ("status", .string t)) ++
    s.sections

def text (s : Snapshot) : String := s.toValue.text

def section? (s : Snapshot) (name : String) : Option Json.Value :=
  Json.Members.find? name s.sections

/-- Looks up a nested value. The first segment is the name of a section, taken literally;
the rest is a pointer into that section. -/
def lookup (s : Snapshot) (pointer : String) : Option Json.Value :=
  match pointer.toList with
  | '/' :: rest =>
    let head := rest.takeWhile (· ≠ '/')
    let tail := rest.dropWhile (· ≠ '/')
    (s.section? (String.ofList head)).bind (Json.Pointer.lookup (String.ofList tail))
  | _ => none

end Snapshot

end TwinLink
