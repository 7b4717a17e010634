import TwinLink.Command
import TwinLink.Decimal.Reading
import TwinLink.Text.Blank

/-! Lines that an operator types. A line is one of a few words with arguments, in any case
of letters, or a command as a JSON object. -/

namespace TwinLink.Console

open Decimal (Double)

def help : String :=
  "commands:\n" ++
  "  pause | resume | step\n" ++
  "  rate <number>                      set the base interest rate\n" ++
  "  tax <income|corporate> <number>    set a tax rate\n" ++
  "  \x7b\"type\": ..., \"payload\": ...\x7d      send a raw command\n" ++
  "  stats                              print link counters\n" ++
  "  quit                               disconnect and exit"

inductive Input where
  | send (command : Command)
  | stats
  | help
  | quit
  | empty
  deriving Repr

/-- Why a line is no input. -/
inductive Fault where
  | unknownCommand (word : String)
  | missingTaxType
  | unknownTaxType (word : String)
  | missingRate
  | notNumber (word : String)
  | unexpectedArgument (word : String)
  | notCommand (fault : Json.Fault)
  | emptyType
  deriving DecidableEq, Repr

def Fault.detail : Fault → String
  | unknownCommand word => s!"unknown command {word}"
  | missingTaxType => "tax needs a tax type"
  | unknownTaxType word => s!"unknown tax type {word}, expected income or corporate"
  | missingRate => "missing rate"
  | notNumber word => s!"{word} is not a number"
  | unexpectedArgument word => s!"unexpected argument {word}"
  | notCommand fault => s!"raw command: {fault.message}"
  | emptyType => "raw command has an empty type"

def Fault.error (f : Fault) : LinkError := .invalidCommand f.detail

/-- A finite number. -/
def rate : List String → Except Fault (Double × List String)
  | [] => .error .missingRate
  | word :: words =>
    match Decimal.Reading.read word with
    | some x => if x.isFinite then .ok (x, words) else .error (.notNumber word)
    | none => .error (.notNumber word)

/-- A tax type in any case of letters. -/
def taxType (word : String) : Except Fault TaxType :=
  match TaxType.ofName? (Text.lowerAscii word) with
  | some t => .ok t
  | none => .error (.unknownTaxType (Text.lowerAscii word))

/-- The input that begins with `word`, a word in lower case, and the words left over. -/
def verb (word : String) (words : List String) : Except Fault (Input × List String) :=
  match word with
  | "pause" => .ok (.send .pause, words)
  | "resume" => .ok (.send .resume, words)
  | "step" => .ok (.send .step, words)
  | "rate" => do
    let (x, words) ← rate words
    .ok (.send (.setBaseRate x), words)
  | "tax" =>
    match words with
    | [] => .error .missingTaxType
    | word :: words => do
      let tax ← taxType word
      let (x, words) ← rate words
      .ok (.send (.setTaxRate tax x), words)
  | "stats" => .ok (.stats, words)
  | "help" => .ok (.help, words)
  | "?" => .ok (.help, words)
  | "quit" => .ok (.quit, words)
  | "exit" => .ok (.quit, words)
  | word => .error (.unknownCommand word)

/-- A line of words. -/
def ofWords : List String → Except Fault Input
  | [] => .ok .empty
  | word :: words =>
    match verb (Text.lowerAscii word) words with
    | .error fault => .error fault
    | .ok (input, []) => .ok input
    | .ok (_, extra :: _) => .error (.unexpectedArgument extra)

/-- A command as a JSON object with a type that is not empty. -/
def ofObject (text : String) : Except Fault Input :=
  match Command.decode text with
  | .error fault => .error (.notCommand fault)
  | .ok c => if c.type.isEmpty then .error .emptyType else .ok (.send c)

def parse (line : String) : Except Fault Input :=
  let text := Text.trim line
  match text.toList with
  | [] => .ok .empty
  | '{' :: _ => ofObject text
  | _ => ofWords (Text.words text)

end TwinLink.Console
