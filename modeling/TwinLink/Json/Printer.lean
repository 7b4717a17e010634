import TwinLink.Json.Quoted

/-! Writing values: without blanks, the members in their order. -/

namespace TwinLink.Json

def stringChars (s : String) : List Char := Quoted.encode s.toList

mutual

def Value.chars : Value → List Char
  | .null => "null".toList
  | .bool true => "true".toList
  | .bool false => "false".toList
  | .number n => n.chars
  | .string s => stringChars s
  | .array items => '[' :: itemChars items ++ [']']
  | .object members => '{' :: memberChars members ++ ['}']

/-- The items with commas between them. -/
def itemChars : List Value → List Char
  | [] => []
  | [v] => v.chars
  | v :: w :: rest => v.chars ++ ',' :: itemChars (w :: rest)

/-- The members with commas between them. -/
def memberChars : List (String × Value) → List Char
  | [] => []
  | [(name, v)] => stringChars name ++ ':' :: v.chars
  | (name, v) :: m :: rest => stringChars name ++ ':' :: v.chars ++ ',' :: memberChars (m :: rest)

end

def Value.text (v : Value) : String := String.ofList v.chars

end TwinLink.Json
