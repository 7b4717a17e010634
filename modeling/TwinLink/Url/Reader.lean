import TwinLink.Url.Basic

/-! Reading URLs. Blanks and controls around the text and line breaks and tabs inside it do
not count. The schemes of the web and `file` have rules of their own for the host; under any
other scheme nearly everything is accepted. Only endpoints are kept, of other URLs the
scheme alone. -/

namespace TwinLink.Url

def isWebSocket (scheme : String) : Prop := scheme = "ws" ∨ scheme = "wss"

instance (scheme : String) : Decidable (isWebSocket scheme) :=
  inferInstanceAs (Decidable (_ ∨ _))

/-- What a text stands for. -/
inductive Location where
  | endpoint (url : Url)
  | foreign (scheme : String) (isForeign : ¬isWebSocket scheme)

namespace Reader

def isEdge (c : Char) : Bool := c.toNat ≤ 0x20

def isIgnored (c : Char) : Bool := c == '\t' || c == '\n' || c == '\r'

/-- The characters that count. -/
def relevant (s : List Char) : List Char :=
  (((s.dropWhile isEdge).reverse.dropWhile isEdge).reverse).filter (!isIgnored ·)

def isSchemeChar (c : Char) : Bool := c.isAlphanum || c == '+' || c == '-' || c == '.'

/-- The scheme in lower case and what follows its colon. -/
def scheme? (s : List Char) : Option (List Char × List Char) :=
  match s with
  | [] => none
  | c :: _ =>
    if c.isAlpha then
      match s.dropWhile isSchemeChar with
      | ':' :: rest => some ((s.takeWhile isSchemeChar).map Char.toLower, rest)
      | _ => none
    else none

def isSlash (c : Char) : Bool := c == '/' || c == '\\'

/-- Characters at which the part with the host ends. -/
def endsAuthority (special : Bool) (c : Char) : Bool :=
  c == '/' || c == '?' || c == '#' || (special && c == '\\')

/-- The part before the last `@` of the authority, and what follows it. -/
def splitUserinfo (special : Bool) (s : List Char) : Option (List Char × List Char) :=
  let authority := s.takeWhile (!endsAuthority special ·)
  let host := (authority.reverse.takeWhile (· ≠ '@')).reverse
  if authority.contains '@' then
    let user := authority.take (authority.length - host.length - 1)
    some (user, s.drop (user.length + 1))
  else none

/-- Name and password, encoded. -/
def credentials (userinfo : List Char) : List Char × List Char :=
  (Percent.encode Percent.inUserinfo (userinfo.takeWhile (· ≠ ':')),
    Percent.encode Percent.inUserinfo ((userinfo.dropWhile (· ≠ ':')).drop 1))

/-- Credentials and what follows them. An empty part before the `@` needs a host. -/
def userinfo (special : Bool) (s : List Char) :
    Except Fault ((List Char × List Char) × List Char) :=
  match splitUserinfo special s with
  | none => .ok (([], []), s)
  | some ([], rest) =>
    match rest with
    | c :: _ => if endsAuthority special c then .error .emptyHost else .ok (([], []), rest)
    | [] => .ok (([], []), [])
  | some (user, rest) => .ok (credentials user, rest)

/-- The text of a host, up to its port or the end of the authority. A colon between brackets
belongs to the host. -/
def hostText (special : Bool) (inside : Bool) : List Char → List Char × List Char
  | [] => ([], [])
  | c :: s =>
    if (c == ':' && !inside) || endsAuthority special c then ([], c :: s)
    else
      let inside := if c = '[' then true else if c = ']' then false else inside
      let (host, rest) := hostText special inside s
      (c :: host, rest)

/-- The digits of a port; one that does not fit 16 bits is invalid at once. -/
def portFrom (n : Nat) : List Char → Except Fault (Nat × List Char)
  | [] => .ok (n, [])
  | c :: s =>
    if c.isDigit then
      let n := 10 * n + (c.toNat - '0'.toNat)
      if 65535 < n then .error .invalidPort else portFrom n s
    else if endsAuthority true c then .ok (n, c :: s)
    else .error .invalidPort

/-- The port behind a colon; without digits there is none. -/
def port (s : List Char) : Except Fault (Option Nat × List Char) :=
  match s with
  | ':' :: c :: s =>
    if c.isDigit then (portFrom 0 (c :: s)).map fun r => (some r.1, r.2)
    else (portFrom 0 (c :: s)).map fun r => (none, r.2)
  | [':'] => .ok (none, [])
  | s => .ok (none, s)

/-- The authority of a scheme with rules of its own, other than `file`. -/
structure Authority where
  username : List Char
  password : List Char
  host : Host
  port : Option Nat

def authority (naming : Naming) (s : List Char) : Except Fault (Authority × List Char) := do
  let ((username, password), s) ← userinfo true s
  let (text, s) := hostText true false s
  if text.isEmpty then .error .emptyHost
  else do
    let host ← Host.read naming text
    let (port, s) ← port s
    .ok (⟨username, password, host, port⟩, s)

/-- Checks the authority of a scheme without rules of its own. The host may be empty, but
then neither credentials nor a port are given. -/
def opaqueAuthority (s : List Char) : Except Fault Unit := do
  let ((username, password), s) ← userinfo false s
  let (text, s) := hostText false false s
  Host.readOpaque text
  if text.isEmpty ∧ s.head? = some ':' then .error .emptyHost
  else do
    let _ ← port s
    if text.isEmpty ∧ ¬ (username.isEmpty ∧ password.isEmpty) then .error .emptyHost else .ok ()

def isDriveLetter : List Char → Bool
  | [c, d] => c.isAlpha && (d == ':' || d == '|')
  | _ => false

/-- Checks the host of a `file` URL, which stands behind two slashes and may be missing. -/
def fileHost (naming : Naming) (s : List Char) : Except Fault Unit :=
  match s with
  | a :: b :: rest =>
    if isSlash a ∧ isSlash b then
      let text := rest.takeWhile (!endsAuthority true ·)
      if text.isEmpty ∨ isDriveLetter text then .ok ()
      else (Host.read naming text).map fun _ => ()
    else .ok ()
  | _ => .ok ()

/-- A segment that stands for the place itself. -/
def isDot (segment : List Char) : Bool :=
  ["." , "%2e"].contains (String.ofList (segment.map Char.toLower))

/-- A segment that stands for the place above. -/
def isDotDot (segment : List Char) : Bool :=
  ["..", ".%2e", "%2e.", "%2e%2e"].contains (String.ofList (segment.map Char.toLower))

/-- Leaves the last of the segments in `done`, which stand in reverse order. One that looks
like the letter of a drive is never left. -/
def leave : List (List Char) → List (List Char)
  | [] => []
  | segment :: done => if isDriveLetter segment then segment :: done else done

/-- Resolves dot segments; `done` stands in reverse order. A path that ends in one ends in a
slash. -/
def resolve (done : List (List Char)) : List (List Char) → List (List Char)
  | [] => done.reverse
  | [segment] =>
    if isDotDot segment then ([] :: leave done).reverse
    else if isDot segment then ([] :: done).reverse
    else (segment :: done).reverse
  | segment :: rest =>
    if isDotDot segment then resolve (leave done) rest
    else if isDot segment then resolve done rest
    else resolve (segment :: done) rest

def path (s : List Char) : List (List Char) :=
  let s := match s with
    | c :: rest => if isSlash c then rest else s
    | [] => []
  resolve [] ((Text.pieces isSlash s).map (Percent.encode Percent.inPath))

def endpoint (secure : Bool) (a : Authority) (s : List Char) : Url :=
  let isMark (c : Char) : Bool := c == '?' || c == '#'
  let tail := s.dropWhile (!isMark ·)
  let query := match tail with
    | '?' :: q => some (Percent.encode Percent.inQuery (q.takeWhile (· ≠ '#')))
    | _ => none
  let fragment := match tail.dropWhile (· ≠ '#') with
    | '#' :: f => some (Percent.encode Percent.inFragment f)
    | _ => none
  { secure
    username := a.username
    password := a.password
    host := a.host
    port := a.port.filter (· ≠ usualPort secure)
    path := path (s.takeWhile (!isMark ·))
    query, fragment }

end Reader

open Reader in
def readBy (naming : Naming) (text : String) : Except Fault Location :=
  match scheme? (relevant text.toList) with
  | none => .error .relative
  | some (scheme, s) =>
    let name := String.ofList scheme
    if h : isWebSocket name then do
      let (a, s) ← authority naming (s.dropWhile isSlash)
      .ok (.endpoint (endpoint (name = "wss") a s))
    else if name = "http" ∨ name = "https" ∨ name = "ftp" then do
      let _ ← authority naming (s.dropWhile isSlash)
      .ok (.foreign name h)
    else if name = "file" then do
      fileHost naming s
      .ok (.foreign name h)
    else
      match s with
      | '/' :: '/' :: s => do
        opaqueAuthority s
        .ok (.foreign name h)
      | _ => .ok (.foreign name h)

def read : String → Except Fault Location := readBy Naming.labels

end TwinLink.Url
