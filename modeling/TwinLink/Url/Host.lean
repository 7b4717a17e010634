import TwinLink.Text.Utf8
import TwinLink.Url.Address
import TwinLink.Url.Fault
import TwinLink.Url.Label
import TwinLink.Url.Percent

/-! Hosts: a domain name, or an address given by numbers. A name is percent decoded and put
into ASCII, where no character of it has a meaning of its own in a URL. How names are put
into ASCII is a standard with tables of its own and a parameter here; the rules that come
with it read names of ASCII, and names of printing characters in lower case and composed. -/

namespace TwinLink.Url

inductive Host where
  | domain (name : List Char)
  | address4 (n : Nat)
  | address6 (pieces : List Nat)
  deriving DecidableEq, Repr

/-- Gives the ASCII form of a name, in lower case, for the bytes of the name. A name without
one is no host. -/
abbrev Naming := List UInt8 → Option (List Char)

namespace Host

def chars : Host → List Char
  | domain name => name
  | address4 n => Address4.chars n
  | address6 pieces => '[' :: Address6.chars pieces ++ [']']

/-- Characters that no domain name holds. -/
def isForbidden (c : Char) : Bool :=
  Percent.isControl c || " %#/:<>?@[\\]^|".toList.contains c

/-- Characters that the host of a scheme without rules of its own does not hold. -/
def isForbiddenOpaque (c : Char) : Bool :=
  "\x00\t\n\r #/:<>?@[\\]^|".toList.contains c

/-- An address between brackets. -/
def bracketed (s : List Char) : Except Fault Host :=
  match s.getLast?, Address6.read? s.dropLast with
  | some ']', some pieces => .ok (.address6 pieces)
  | _, _ => .error .invalidAddress6

/-- The host for a name in lower case and in ASCII. -/
def domainName (s : List Char) : Except Fault Host :=
  if s.any isForbidden then .error .invalidDomain
  else if s.isEmpty then .error .emptyHost
  else if Address4.isNumeric s then
    match Address4.read? s with
    | some n => .ok (.address4 n)
    | none => .error .invalidAddress4
  else .ok (.domain s)

def read (naming : Naming) (s : List Char) : Except Fault Host :=
  match s with
  | '[' :: s => bracketed s
  | s =>
    match naming (Percent.decode s) with
    | some name => domainName name
    | none => .error .invalidDomain

/-- The host of a scheme without rules of its own; it may be empty. -/
def readOpaque (s : List Char) : Except Fault Unit :=
  match s with
  | '[' :: s => (bracketed s).map fun _ => ()
  | s => if s.any isForbiddenOpaque then .error .forbiddenCharacter else .ok ()

end Host

/-- The labels of a name, its ASCII letters in lower case, each in its form in ASCII. Other
characters are taken as they stand. -/
def Naming.labels : Naming := fun bytes => do
  let text ← (Text.Utf8.decodeFrom 0 bytes).toOption
  let labels ← (Text.pieces (· == '.') (text.map Char.toLower)).mapM Label.ofText?
  return (labels.intersperse ['.']).flatten

end TwinLink.Url
