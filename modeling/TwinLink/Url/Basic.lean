import TwinLink.Url.Form
import TwinLink.Url.Host

/-! Endpoints of the link: URLs of the schemes `ws` and `wss`, in normal form. All parts are
encoded, the path has no dot segments and a port is given only if it is not the usual one
of the scheme. -/

namespace TwinLink

structure Url where
  secure : Bool
  username : List Char
  password : List Char
  host : Url.Host
  port : Option Nat
  path : List (List Char)
  query : Option (List Char)
  fragment : Option (List Char)
  deriving DecidableEq, Repr

namespace Url

def scheme (u : Url) : List Char := if u.secure then "wss".toList else "ws".toList

def usualPort (secure : Bool) : Nat := if secure then 443 else 80

def userinfo (u : Url) : List Char :=
  if u.username.isEmpty ∧ u.password.isEmpty then []
  else u.username ++ (if u.password.isEmpty then [] else ':' :: u.password) ++ ['@']

def chars (u : Url) : List Char :=
  u.scheme ++ "://".toList ++ u.userinfo ++ u.host.chars ++
    (u.port.elim [] fun p => ':' :: Nat.toDigits 10 p) ++
    u.path.flatMap ('/' :: ·) ++
    (u.query.elim [] ('?' :: ·)) ++
    (u.fragment.elim [] ('#' :: ·))

def text (u : Url) : String := String.ofList u.chars

/-- Puts a pair behind the pairs of the query; no other part changes. -/
def withPair (u : Url) (name value : String) : Url :=
  { u with query := some (Form.append (u.query.getD []) name value) }

end Url

end TwinLink
