import TwinLink.Proofs.Socket.Muted

/-! Sockets that differ in their address alone. A socket reads its address when it asks the
network for a connection, and tells it there; whatever else it does, it does the same over any
other address. -/

namespace TwinLink.Socket

/-- The socket over another address. -/
def redirect (u : Url) (s : Socket) : Socket := { s with settings := { s.settings with url := u } }

/-- What happens on it then. -/
def Happening.redirect (u : Url) : Happening → Happening
  | .attempt _ => .attempt u.text
  | h => h

def Move.redirect (u : Url) (m : Move) : Move :=
  ⟨m.socket.redirect u, m.seen.map (Happening.redirect u), m.callback⟩

variable (u : Url) (s : Socket)

@[simp] theorem redirect_redirect (v : Url) : (s.redirect v).redirect u = s.redirect u := rfl

@[simp] theorem url_redirect : (s.redirect u).settings.url = u := rfl

@[simp] theorem kind_redirect : (s.redirect u).kind = s.kind := rfl

@[simp] theorem state_redirect : (s.redirect u).state = s.state := rfl

/-- Records do not tell the address. -/
theorem map_redirect_of_logs {seen : List Happening} (h : Logs seen) :
    seen.map (Happening.redirect u) = seen := by
  have hid : seen.map (Happening.redirect u) = seen.map id := by
    apply List.map_congr_left
    intro e he
    obtain ⟨record, rfl⟩ := h e he
    rfl
  rw [hid, List.map_id]

theorem connect_redirect : (s.redirect u).connect = s.connect.redirect u := by
  by_cases hs : s.state = .closed
  · have hd : (s.redirect u).endDrivers.drivers = s.endDrivers.drivers := by
      unfold endDrivers
      cases hp : s.parting <;> cases hd : s.driver <;>
        simp [redirect, hp, hd, abort, modifyDriver]
    rw [connect_of_closed hs, connect_of_closed (s := s.redirect u) hs, hd]
    rfl
  · rw [connect_of_live hs, connect_of_live (s := s.redirect u) hs]
    rfl

theorem teardown_redirect (now : Nat) :
    (s.redirect u).teardown now = (s.teardown now).redirect u := by
  have hseen := map_redirect_of_logs u (logs_teardown now s)
  unfold Move.redirect
  rw [hseen]
  unfold teardown
  rw [show (s.redirect u).sender = s.sender from rfl,
    show (s.redirect u).driver = s.driver from rfl,
    show (s.redirect u).isHeld = s.isHeld from rfl]
  cases s.sender.filter s.isHeld <;> cases s.driver <;> rfl

theorem send_redirect (text : String) :
    (s.redirect u).send text = (s.send text).map (Move.redirect u) := by
  unfold send
  rw [show (s.redirect u).sender = s.sender from rfl,
    show (s.redirect u).isHeld = s.isHeld from rfl,
    show (s.redirect u).state = s.state from rfl]
  cases s.sender.filter s.isHeld with
  | none => rfl
  | some link =>
    dsimp only
    by_cases ho : s.state = .opened
    · rw [if_pos ho, if_pos ho]
      rfl
    · rw [if_neg ho, if_neg ho]
      rfl

theorem discard_redirect (i : Nat) : (s.redirect u).discard i = (s.discard i).redirect u := by
  unfold discard
  rw [show (s.redirect u).phase i = s.phase i from rfl]
  split <;> rfl

theorem reap_redirect (i : Nat) : (s.redirect u).reap i = (s.reap i).redirect u := rfl

/-! ### Steps -/

variable (now i : Nat)

theorem connected_redirect (answer : Option Answer) :
    (s.redirect u).connected i answer = (s.connected i answer).redirect u := by
  rcases answer with _ | e | plan
  · rfl
  · cases e <;> rfl
  · unfold connected
    dsimp only
    rw [show (s.redirect u).machine = s.machine from rfl,
      show (s.redirect u).drivers = s.drivers from rfl,
      show (s.redirect u).links = s.links from rfl]
    split <;> rfl

theorem announce_redirect (link : Nat) :
    (s.redirect u).announce i link = (s.announce i link).redirect u := by
  unfold announce
  dsimp only
  rw [show (s.redirect u).machine = s.machine from rfl,
    show (s.redirect u).drivers = s.drivers from rfl,
    show (s.redirect u).state = s.state from rfl,
    show (s.redirect u).announced = s.announced from rfl]
  split <;> rfl

theorem leave_redirect (link : Nat) {seen : List Happening}
    (h : seen.map (Happening.redirect u) = seen) :
    (s.redirect u).leave now i link seen = (s.leave now i link seen).redirect u := by
  unfold leave Move.redirect
  rw [List.map_append, h]
  rfl

theorem receive_redirect (link : Nat) (item : Inbound) :
    (s.redirect u).receive now i link item = (s.receive now i link item).redirect u := by
  rcases item with (text | bytes | _) | e
  · rfl
  · unfold receive
    dsimp only
    split <;> rfl
  · exact leave_redirect u s now i link rfl
  · exact leave_redirect u s now i link rfl

theorem transmit_redirect (link : Nat) (request : Request) :
    (s.redirect u).transmit now i link request = (s.transmit now i link request).redirect u := by
  cases request with
  | close => exact leave_redirect u s now i link rfl
  | text text =>
    unfold transmit
    dsimp only
    rw [show (s.redirect u).links = s.links from rfl]
    split <;> rfl

theorem pumpIn_redirect (link : Nat) (l : Link) :
    (s.redirect u).pumpIn now i link l = (s.pumpIn now i link l).map (Move.redirect u) := by
  unfold pumpIn
  split
  · next item rest _ =>
    exact congrArg some (receive_redirect u
      (s.modifyLink link fun l => { l with inbound := rest }) now i link item)
  · rw [leave_redirect u s now i link rfl]
    split <;> rfl

theorem pumpOut_redirect (link : Nat) (l : Link) :
    (s.redirect u).pumpOut now i link l = (s.pumpOut now i link l).map (Move.redirect u) := by
  unfold pumpOut
  split
  · next request rest _ =>
    exact congrArg some (transmit_redirect u
      (s.modifyLink link fun l => { l with requests := rest }) now i link request)
  · rw [leave_redirect u s now i link rfl, show (s.redirect u).sender = s.sender from rfl]
    split <;> rfl

theorem pump_redirect (b : Bool) (link : Nat) :
    (s.redirect u).pump now b i link = (s.pump now b i link).map (Move.redirect u) := by
  cases hl : s.links[link]? with
  | none => simp [pump, redirect, hl]
  | some l =>
    rw [pump_eq hl, pump_eq (s := s.redirect u) hl, pumpIn_redirect, pumpOut_redirect]
    rw [← Option.map_or, ← Option.map_or]
    cases b <;> rfl

theorem written_redirect (link : Nat) (answer : Option (Except LinkError Unit)) :
    (s.redirect u).written now i link answer = (s.written now i link answer).redirect u := by
  rcases answer with _ | e | _
  · exact leave_redirect u s now i link rfl
  · exact leave_redirect u s now i link rfl
  · rfl

theorem report_redirect : (s.redirect u).report i = (s.report i).redirect u := by
  unfold report
  dsimp only
  rw [show (s.redirect u).machine = s.machine from rfl,
    show (s.redirect u).drivers = s.drivers from rfl]
  split
  · rfl
  · next machine closing _ =>
    obtain ⟨delay, wasOpen⟩ := closing
    cases wasOpen <;> rfl

theorem retry_redirect : (s.redirect u).retry i = (s.retry i).redirect u := by
  unfold retry
  dsimp only
  rw [show (s.redirect u).machine = s.machine from rfl,
    show (s.redirect u).drivers = s.drivers from rfl]
  split <;> rfl

/-- A driver makes the same step over any address. -/
theorem step_redirect (b : Bool) :
    (s.redirect u).step now b i = (s.step now b i).map (Move.redirect u) := by
  unfold step
  rw [show (s.redirect u).phase i = s.phase i from rfl]
  cases s.phase i with
  | queued | retiring | finished => rfl
  | connecting answer deadline =>
    dsimp only
    rw [Option.map_map]
    congr 1
    funext reply
    exact connected_redirect u s i reply
  | announcing link => exact congrArg some (announce_redirect u s i link)
  | pumping link => exact pump_redirect u s now i b link
  | writing link answer deadline =>
    dsimp only
    rw [Option.map_map]
    congr 1
    funext reply
    exact written_redirect u s now i link reply
  | closing link answer deadline =>
    rw [Option.map_map]
    rfl
  | ending => exact congrArg some (report_redirect u s i)
  | waiting due =>
    dsimp only
    rw [retry_redirect]
    split <;> rfl

end TwinLink.Socket
