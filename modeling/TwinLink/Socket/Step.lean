import TwinLink.Socket.Basic
import TwinLink.Text.Utf8

/-! What a driver does, one step at a time. It connects, says that the channel is open,
reads frames and writes texts until the link ends, closes the link, reports the end, waits
and connects again. A step that calls the handler ends there. -/

namespace TwinLink.Socket

/-- A result that is there at the instant `now`, or the deadline having passed. The result
counts if both are. -/
def settled {α : Type} (now : Nat) (answer : Option (Nat × α)) (deadline : Nat) :
    Option (Option α) :=
  match answer with
  | some (t, a) =>
    if t ≤ now then some (some a) else if deadline ≤ now then some none else none
  | none => if deadline ≤ now then some none else none

def refusal : Reply Answer := .now (.error (.connect "refused"))

/-- Begins an attempt to connect. -/
def attempt (now i : Nat) (s : Socket) : Move :=
  let reply := s.script.headD refusal
  let phase := Phase.connecting (reply.due now) (now + s.settings.timeout.ticks)
  { socket := { s.setPhase i phase with script := s.script.drop 1, attempts := s.attempts + 1 }
    seen := [.attempt s.settings.url.text]
    callback := none }

def connectFailure (s : Socket) : LinkError → Happening
  | .rejected status =>
    s.logWarn "handshake rejected" [("status", .number status), ("error_kind", .text "rejected")]
  | e => s.logWarn "connect failed" (Log.ofError e)

/-- The network has answered an attempt, or has not in time. -/
def connected (i : Nat) (answer : Option Answer) (s : Socket) : Move :=
  match answer with
  | none =>
    ⟨s.setPhase i .ending, [s.connectFailure (.connectTimeout s.settings.timeout.millis64)], none⟩
  | some (.error e) => ⟨s.setPhase i .ending, [s.connectFailure e], none⟩
  | some (.ok plan) =>
    let link := s.links.length
    let generation := (s.drivers[i]?.map Driver.generation).getD 0
    match s.machine.onOpen generation with
    | some machine =>
      let s := { s with machine, sender := some link, links := s.links ++ [Link.ofPlan plan] }
      ⟨s.setPhase i (.announcing link), [.opened link], none⟩
    | none =>
      let s := { s with links := s.links ++ [(Link.ofPlan plan).release] }
      ⟨s.setPhase i .ending, [.released link], none⟩

/-- Tells that the channel is open, if it still is. -/
def announce (i link : Nat) (s : Socket) : Move :=
  let generation := (s.drivers[i]?.map Driver.generation).getD 0
  let t := s.setPhase i (.pumping link)
  if s.machine.isCurrent generation && s.state == .opened && !s.announced then
    ⟨{ t with announced := true }, [s.logInfo "channel open" []], some (.status true)⟩
  else .silent t

/-- Leaves the link: it is asked to close. -/
def leave (now i link : Nat) (seen : List Happening) (s : Socket) : Move :=
  let reply := (s.links[link]?.map fun l => l.plan.close).getD .never
  ⟨s.setPhase i (.closing link (reply.due now) (now + closeLimit)), seen ++ [.close link], none⟩

/-- Reads what came in. -/
def receive (now i link : Nat) (item : Inbound) (s : Socket) : Move :=
  let seen := [Happening.read link item]
  match item with
  | .frame (.text text) => ⟨s, seen, some (.message text)⟩
  | .frame (.binary bytes) =>
    match Text.Utf8.decode bytes with
    | .ok text => ⟨s, seen, some (.message text)⟩
    | .error fault => ⟨s, seen, some (.undecodable (.decode fault.message))⟩
  | .frame .close => s.leave now i link seen
  | .failure e =>
    s.leave now i link (seen ++ [s.logWarn "transport error, closing" (Log.ofError e)])

/-- Takes what the client asked for. -/
def transmit (now i link : Nat) (request : Request) (s : Socket) : Move :=
  match request with
  | .close => s.leave now i link [.dismissed link]
  | .text text =>
    match s.links[link]? with
    | none => .silent s
    | some l =>
      let reply := l.plan.write l.writes
      let t := s.modifyLink link fun l => { l with writes := l.writes + 1 }
      ⟨t.setPhase i (.writing link (reply.due now) (now + writeLimit)),
        [.write link text (Fate.ofReply reply)], none⟩

/-- Moves one frame or text. What comes in goes first, unless `outboundFirst`. -/
def pump (now : Nat) (outboundFirst : Bool) (i link : Nat) (s : Socket) : Option Move :=
  match s.links[link]? with
  | none => none
  | some l =>
    let inward : Option Move := match l.inbound with
      | item :: rest =>
        some ((s.modifyLink link fun l => { l with inbound := rest }).receive now i link item)
      | [] => if l.peer then none else some (s.leave now i link [])
    let outward : Option Move := match l.requests with
      | request :: rest =>
        some ((s.modifyLink link fun l => { l with requests := rest }).transmit now i link request)
      | [] => if s.sender = some link then none else some (s.leave now i link [])
    if outboundFirst then outward.or inward else inward.or outward

/-- A write has ended, or has not in time. -/
def written (now i link : Nat) (answer : Option (Except LinkError Unit)) (s : Socket) : Move :=
  match answer with
  | some (.ok _) => .silent (s.setPhase i (.pumping link))
  | some (.error e) => s.leave now i link [s.logWarn "write failed, closing" (Log.ofError e)]
  | none => s.leave now i link [s.logWarn "write timed out, closing" []]

/-- Releases the halves of a link. -/
def release (i link : Nat) (s : Socket) : Move :=
  ⟨(s.modifyLink link Link.release).setPhase i .ending, [.released link], none⟩

/-- Reports the end of a connection or of an attempt. The driver of an ended session is done. -/
def report (i : Nat) (s : Socket) : Move :=
  let generation := (s.drivers[i]?.map Driver.generation).getD 0
  match s.machine.onClose generation with
  | none => .silent (s.setPhase i .finished)
  | some (machine, closing) =>
    ⟨{ s.setPhase i (.retiring closing.delay) with machine, sender := none, announced := false },
      .ended :: if closing.wasOpen then [s.logInfo "channel closed" []] else [],
      if s.announced then some (.status false) else none⟩

def rest (now i : Nat) (delay : Duration) (s : Socket) : Move :=
  ⟨s.setPhase i (.waiting (now + delay.ticks)),
    [s.logInfo "reconnect scheduled" [("delay_ms", .number delay.millis64)]], none⟩

/-- The wait is over. -/
def retry (i : Nat) (s : Socket) : Move :=
  let generation := (s.drivers[i]?.map Driver.generation).getD 0
  match s.machine.onRetry generation with
  | none => .silent (s.setPhase i .finished)
  | some machine =>
    .silent { s.setPhase i .queued with machine, reconnects := s.reconnects + 1 }

/-- The next step of the driver `i` at the instant `now`; none while it has to wait and when
it has finished. -/
def step (now : Nat) (outboundFirst : Bool) (i : Nat) (s : Socket) : Option Move :=
  match s.phase i with
  | .queued => some (s.attempt now i)
  | .connecting answer deadline => (settled now answer deadline).map (s.connected i ·)
  | .announcing link => some (s.announce i link)
  | .pumping link => s.pump now outboundFirst i link
  | .writing link answer deadline => (settled now answer deadline).map (s.written now i link ·)
  | .closing link answer deadline => (settled now answer deadline).map fun _ => s.release i link
  | .ending => some (s.report i)
  | .retiring delay => some (s.rest now i delay)
  | .waiting due => if due ≤ now then some (s.retry i) else none
  | .finished => none

/-- Ends the driver `i` where it stands; a link that it has is released. -/
def discard (i : Nat) (s : Socket) : Move :=
  match (s.phase i).link? with
  | some link => ⟨(s.modifyLink link Link.release).setPhase i .finished, [.released link], none⟩
  | none => .silent (s.setPhase i .finished)

/-- Aborts the driver `i`, which has had the time that a teardown left it. -/
def reap (i : Nat) (s : Socket) : Move :=
  let t := s.modifyDriver i fun d => { d with reapAt := none }
  ⟨t.abort (some i), [s.logWarn "driver still running after teardown, aborting" []], none⟩

/-- Whether the driver `i` can go on without time passing. -/
def canRun (now : Nat) (s : Socket) (i : Nat) : Bool :=
  !(s.phase i).isFinished && (s.isAborted i || (s.step now false i).isSome)

/-- Whether the time is over that a teardown left the driver `i`, which has not finished. -/
def isReapDue (now : Nat) (s : Socket) (i : Nat) : Bool :=
  match (s.drivers[i]?).bind Driver.reapAt with
  | some t => !(s.phase i).isFinished && decide (t ≤ now)
  | none => false

/-- No driver can go on without time passing. -/
def isSettled (now : Nat) (s : Socket) : Bool :=
  (List.range s.drivers.length).all fun i => !s.canRun now i && !s.isReapDue now i

/-- The instant at which a driver is to go on, if time alone decides that. -/
def Phase.due? : Phase → Option Nat
  | .connecting answer deadline => some (answer.elim deadline fun a => min a.1 deadline)
  | .writing _ answer deadline => some (answer.elim deadline fun a => min a.1 deadline)
  | .closing _ answer deadline => some (answer.elim deadline fun a => min a.1 deadline)
  | .waiting due => some due
  | _ => none

/-- The instants at which something is due. -/
def dues (s : Socket) : List Nat :=
  s.drivers.flatMap fun d =>
    if d.phase.isFinished then [] else d.phase.due?.toList ++ d.reapAt.toList

end TwinLink.Socket
