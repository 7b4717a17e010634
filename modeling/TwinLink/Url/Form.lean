import TwinLink.Url.Percent

/-! Pairs of a query as forms write them: a name and a value with an equals sign between
them, a space as a plus sign, and every byte other than letters, digits and `*-._` percent
encoded. -/

namespace TwinLink.Url.Form

def isPlain (c : Char) : Bool := c.isAlphanum || "*-._".toList.contains c

def encodeChar (c : Char) : List Char :=
  if isPlain c then [c] else if c = ' ' then ['+'] else Percent.encodeChar c

def encode (s : String) : List Char := s.toList.flatMap encodeChar

def pair (name value : String) : List Char := encode name ++ '=' :: encode value

/-- Puts a pair behind the pairs that are there. -/
def append (query : List Char) (name value : String) : List Char :=
  if query.isEmpty then pair name value else query ++ '&' :: pair name value

end TwinLink.Url.Form
