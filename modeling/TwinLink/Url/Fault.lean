/-! What can be wrong with the text of a URL. -/

namespace TwinLink.Url

inductive Fault where
  | relative
  | emptyHost
  | invalidPort
  | invalidAddress4
  | invalidAddress6
  | invalidDomain
  | forbiddenCharacter
  deriving DecidableEq, Repr

def Fault.message : Fault → String
  | relative => "relative URL without a base"
  | emptyHost => "empty host"
  | invalidPort => "invalid port number"
  | invalidAddress4 => "invalid IPv4 address"
  | invalidAddress6 => "invalid IPv6 address"
  | invalidDomain => "invalid international domain name"
  | forbiddenCharacter => "invalid domain character"

end TwinLink.Url
