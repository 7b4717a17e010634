import TwinLink.Registry.Stage

/-! A list of listeners that note what they are called with and react as told. Listeners have
names, and the one registered last under a name and its handle are known by it. One list is in
use at a time; it may be given up and replaced by a new one. -/

namespace TwinLink.Rehearsal.Listeners

inductive Action where
  | insert (name : String) (script : List (Option Nat × Action))
  /-- Registers under `name` what was registered last under `of`. -/
  | same (name of : String)
  | emit (value : Int)
  | size
  | debug
  | unsubscribe (name : String)
  | active (name : String)
  | remove (name : String)
  | forget (name : String)
  | debugHandle (name : String)
  | dropList
  | newList

/-- What a listener does at its calls: at the call of that number or at each. -/
abbrev Script := List (Option Nat × Action)

structure Voice where
  name : String
  script : Script
  calls : Nat

inductive Answer where
  | nothing
  | unknown
  | noList
  | registered
  | count (n : Nat)
  | size (n : Nat)
  | flag (b : Bool)
  | text (s : String)
  deriving DecidableEq, Repr

inductive Note where
  | called (emission id : Nat) (name : String) (value : Int)
  /-- An emission has called so many listeners. -/
  | ended (emission : Nat) (count : Nat)
  deriving DecidableEq, Repr

/-- A handle and the registration that it is for. -/
structure Pass where
  handle : Nat
  id : Nat

structure Cast where
  voices : List Voice
  /-- The listener registered last under each name. -/
  known : List (String × Nat)
  passes : List (String × Pass)
  /-- The list in use. -/
  list : Option Nat
  /-- What has come of the last action. -/
  answer : Answer

def Cast.empty : Cast := ⟨[], [], [], none, .nothing⟩

inductive Item where
  | heard (voice : Nat)
  | act (a : Action)
  | opened (answer : Registry.Answer)
  | inserted (name : String) (voice list : Nat) (answer : Registry.Answer)
  | granted (name : String) (id : Nat) (answer : Registry.Answer)
  | answered (a : Answer)

abbrev Request := Registry.Request Nat Int Item

abbrev Reaction := Cast × List Request

def put {α : Type} (name : String) (x : α) (table : List (String × α)) : List (String × α) :=
  (name, x) :: table.filter (·.1 ≠ name)

def Cast.finish (c : Cast) (a : Answer) : Reaction := ({ c with answer := a }, [])

/-- The answer to an action that is one request. -/
def answerOf (count : Nat → Answer) : Registry.Answer → Item
  | .missing => .answered .noList
  | .done => .answered .nothing
  | .number n => .answered (count n)
  | .flag b => .answered (.flag b)

def sizeText (n : Nat) : Answer := .text ("SubscriberList \x7b len: " ++ toString n ++ " \x7d")

/-- A handle in one line, by whether it is active. -/
def handleText : Registry.Answer → Item
  | .flag b => .answered
    (.text ("Subscription \x7b id: SubscriptionId(*), active: " ++ toString b ++ " \x7d"))
  | _ => .answered .unknown

/-- Registers a listener under a name. -/
def enroll (c : Cast) (k : Nat) (name : String) (voice : Nat) : Reaction :=
  (c, [.ask (.insert k voice) (.inserted name voice k)])

/-- An action that needs a list. -/
def onList (c : Cast) (k : Nat) : Action → Reaction
  | .insert name script =>
    enroll { c with voices := c.voices ++ [⟨name, script, 0⟩] } k name c.voices.length
  | .same name other =>
    match c.known.lookup other with
    | some voice => enroll c k name voice
    | none => c.finish .unknown
  | .emit value => (c, [.emit k value (answerOf .count)])
  | .size => (c, [.ask (.size k) (answerOf .size)])
  | .debug => (c, [.ask (.size k) (answerOf sizeText)])
  | .remove name =>
    match c.passes.lookup name with
    | some p => (c, [.ask (.remove k p.id) (answerOf .count)])
    | none => c.finish .unknown
  | _ => c.finish .nothing

/-- An action on the handle that a name stands for. -/
def onPass (c : Cast) (name : String) (f : Nat → Reaction) : Reaction :=
  match c.passes.lookup name with
  | some p => f p.handle
  | none => c.finish .unknown

/-- Gives the list in use up, if there is one. -/
def discard (c : Cast) : List Request :=
  c.list.toList.map fun k => .ask (.discard k) fun _ => .answered (.flag true)

def act (c : Cast) : Action → Reaction
  | .unsubscribe name => onPass c name fun h =>
    (c, [.ask (.unsubscribe h) fun _ => .act (.active name)])
  | .active name => onPass c name fun h => (c, [.ask (.isActive h) (answerOf .count)])
  | .forget name => onPass c name fun h =>
    ({ c with passes := c.passes.filter (·.1 ≠ name) }, [.ask (.forget h) (answerOf .count)])
  | .debugHandle name => onPass c name fun h => (c, [.ask (.isActive h) handleText])
  | .dropList => ({ c with list := none, answer := .flag false }, discard c)
  | .newList => ({ c with list := none }, discard c ++ [.ask .create .opened])
  | a =>
    match c.list with
    | some k => onList c k a
    | none => c.finish .noList

/-- Calls a listener: what it does at this call is done next. -/
def hear (voice : Nat) (c : Cast) : Reaction :=
  match c.voices[voice]? with
  | none => (c, [])
  | some v =>
    let calls := v.calls + 1
    let chosen := (v.script.filter fun r => r.1.all (· == calls)).map Prod.snd
    ({ c with voices := c.voices.set voice { v with calls } },
      chosen.map fun a => .own (Item.act a))

def perform (item : Item) (c : Cast) : Reaction :=
  match item with
  | .heard voice => hear voice c
  | .act a => act c a
  | .opened (.number k) => ({ c with list := some k, answer := .nothing }, [])
  | .inserted name voice k (.number id) =>
    ({ c with known := put name voice c.known }, [.ask (.grant k id) (.granted name id)])
  | .granted name id (.number h) =>
    -- a handle that the name stood for is given up
    let old := (c.passes.lookup name).toList
    ({ c with passes := put name ⟨h, id⟩ c.passes },
      old.map (fun p => .ask (.forget p.handle) (answerOf .count)) ++
        [.own (.answered .registered)])
  | .answered a => c.finish a
  | _ => c.finish .noList

def client : Registry.Client Nat Int Item Cast := ⟨fun voice _ => .heard voice, perform⟩

abbrev Stage := Registry.Stage Nat Int Item Cast

namespace Stage

/-- Does an action and all that comes of it, in at most `fuel` tasks. -/
def run (fuel : Nat) (a : Action) (s : Stage) : Stage × Answer :=
  let s := Registry.Stage.run client [(.act a, fuel)] s
  (s, s.client.answer)

/-- The stage with a list. -/
def initial : Stage := Registry.Stage.run client [(.act .newList, 10)] (.start .empty)

def roster (s : Stage) : Option (Roster Nat) := s.client.list.bind s.registry.list?

/-- A note with the name of the listener that it is about. -/
def render (c : Cast) : Registry.Note Nat Int → Option Note
  | .called m id voice value => c.voices[voice]?.map fun v => .called m id v.name value
  | .ended m count => some (.ended m count)
  | _ => none

def trace (s : Stage) : List Note := (Registry.Stage.trace s).filterMap (render s.client)

end Stage

end TwinLink.Rehearsal.Listeners
