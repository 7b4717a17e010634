import TwinLink.Session.Transcript

/-! The console program: it reads lines from the standard input and prints what a session
answers to each as soon as it has been taken. -/

namespace TwinLink.Main

/-- The variables of a configuration that are set. -/
def readEnvironment : IO Config.Environment :=
  Config.Variable.all.filterMapM fun v => do
    return (← IO.getEnv v.name).map fun value => (v.name, value.toUTF8.toList)

/-- The bytes up to and with the next line feed, or up to the end of the input. -/
partial def readBytes (input : IO.FS.Stream) (line : Array UInt8) : IO (Array UInt8) := do
  let bytes := (← input.read 1).toList
  if bytes.isEmpty || bytes == [0x0A] then return line ++ bytes
  readBytes input (line ++ bytes)

/-- Prints what a session has printed behind its first `before` outputs. -/
def print (before : Nat) (s : Session) : IO Unit := do
  for o in s.printed.drop before do
    IO.print o.standard
    IO.eprint o.error
  (← IO.getStdout).flush

partial def serve (input : IO.FS.Stream) (s : Session) : IO Session := do
  if s.ending.isSome then return s
  let line ← readBytes input #[]
  if line.isEmpty then return s.conclude []
  let t := s.turn ⟨[], Session.readLine line.toList⟩
  print s.printed.length t
  serve input t

def report (r : Report) : IO UInt32 := do
  IO.eprint r.text
  return 1

end TwinLink.Main

open TwinLink in
def main : IO UInt32 := do
  match Config.ofEnvironment (← Main.readEnvironment) with
  | .error fault => Main.report (Session.refusal fault)
  | .ok c =>
    let s := Session.begin c [] []
    Main.print 0 s
    let s ← Main.serve (← IO.getStdin) s
    match s.ending.bind Session.Ending.report? with
    | some r => Main.report r
    | none => return 0
