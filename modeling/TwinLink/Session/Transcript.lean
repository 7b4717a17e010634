import TwinLink.Report
import TwinLink.Session.Basic

/-! A session as a program: variables and bytes come in, text goes out on two outputs, and an
exit code tells whether the session came to a regular end. -/

namespace TwinLink

namespace Session

/-- The lines of an input, each with its line feed. The last one may lack it. -/
def lines : List UInt8 → List (List UInt8)
  | [] => []
  | b :: rest =>
    if b = 0x0A then [b] :: lines rest
    else
      match lines rest with
      | line :: more => (b :: line) :: more
      | [] => [[b]]

/-- A text without the line feed at its end and a carriage return before that. -/
def chomp (s : List Char) : List Char :=
  match s.reverse with
  | '\n' :: '\r' :: rest => rest.reverse
  | '\n' :: rest => rest.reverse
  | _ => s

def readLine (bytes : List UInt8) : Except Text.Utf8.Fault String :=
  (Text.Utf8.decode bytes).map fun s => String.ofList (chomp s.toList)

/-- The report of a configuration that cannot be used. -/
def refusal (fault : Config.Fault) : Report :=
  let e := fault.error
  ⟨"loading link configuration", e.message :: e.cause?.toList⟩

def Ending.report? : Ending → Option Report
  | done => none
  | unreadable fault => some ⟨"reading stdin", [fault.message]⟩

structure Transcript where
  code : Nat
  standard : String
  error : String
  deriving DecidableEq, Repr

def Transcript.ofReport (r : Report) : Transcript := ⟨1, "", r.text⟩

/-- What a session has printed, and the report of its end if it was no regular one. -/
def transcript (s : Session) : Transcript :=
  let report := s.ending.bind Ending.report?
  { code := if report.isSome then 1 else 0
    standard := String.join (s.printed.map Output.standard)
    error := String.join (s.printed.map Output.error) ++ (report.map Report.text).getD "" }

/-- The program on a machine from which no host can be reached and on which nothing goes on
between two lines. -/
def Transcript.ofInput (env : Config.Environment) (input : List UInt8) : Transcript :=
  match Config.ofEnvironment env with
  | .error fault => .ofReport (refusal fault)
  | .ok c => ((begin c [] []).run ((lines input).map fun line => ⟨[], readLine line⟩) []).transcript

end Session

end TwinLink
