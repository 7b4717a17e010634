import TwinLink.Text.Split

/-! The report of a failure that ends a program: what it was about to do, and the causes, the
nearest first. A single cause stands alone, several are numbered. -/

namespace TwinLink

structure Report where
  context : String
  causes : List String
  deriving DecidableEq, Repr

namespace Report

/-- The lines of a text, the first behind `lead` and the others behind `margin`. -/
def indent (lead margin text : String) : String :=
  let lines := (Text.pieces (· = '\n') text.toList).map String.ofList
  lead ++ String.intercalate ("\n" ++ margin) lines

/-- A number in five places. -/
def number (n : Nat) : String :=
  let digits := toString n
  String.ofList (List.replicate (5 - digits.length) ' ') ++ digits ++ ": "

def causeLines (r : Report) : List String :=
  match r.causes with
  | [cause] => [indent "    " "    " cause]
  | causes => causes.zipIdx.map fun (cause, n) => indent (number n) "       " cause

def text (r : Report) : String :=
  let lines := if r.causes.isEmpty then [] else ["", "Caused by:"] ++ r.causeLines
  String.intercalate "\n" (("Error: " ++ r.context) :: lines) ++ "\n"

end Report

end TwinLink
