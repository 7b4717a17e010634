import TwinLink.Socket.Step

/-! What can happen to a socket. A step of a driver is one of nineteen, and every change of a
socket is such a step, an operation of the client, the end of a driver that has been aborted
or something that a peer does. A law about all runs has one case for each. -/

namespace TwinLink

/-- What the handler is told of a frame, if it is told. -/
def Frame.callback? : Frame → Option Socket.Callback
  | text s => some (.message s)
  | binary bytes =>
    match Text.Utf8.decode bytes with
    | .ok s => some (.message s)
    | .error fault => some (.undecodable (.decode fault.message))
  | close => none

theorem Frame.callback_ne_status {f : Frame} {c : Socket.Callback} (h : f.callback? = some c)
    (b : Bool) : c ≠ .status b := by
  rintro rfl
  cases f with
  | text s => cases h
  | close => cases h
  | binary bytes =>
    simp only [callback?] at h
    split at h <;> cases h

namespace Socket

/-- The happenings of a list are all log records. -/
def Logs (seen : List Happening) : Prop := ∀ h ∈ seen, ∃ record, h = .log record

theorem logs_nil : Logs [] := by
  simp [Logs]

theorem logs_one (record : Log) : Logs [.log record] := by
  simp [Logs]

/-- What holds of no record holds of nothing there. -/
theorem Logs.eq_false {seen : List Happening} (h : Logs seen) {p : Happening → Bool}
    (hp : ∀ record, p (.log record) = false) : ∀ e ∈ seen, p e = false := by
  intro e he
  obtain ⟨record, rfl⟩ := h e he
  exact hp record

theorem Logs.not_mem {seen : List Happening} (h : Logs seen) {e : Happening}
    (he : ∀ record, e ≠ .log record) : e ∉ seen := by
  intro hmem
  obtain ⟨record, hrecord⟩ := h e hmem
  exact he record hrecord

/-- The generation that a driver reports with. -/
def generation (s : Socket) (i : Nat) : UInt64 := (s.drivers[i]?.map Driver.generation).getD 0

/-- What one step of the driver `i` can be. -/
inductive Stepped (now i : Nat) (s : Socket) : Move → Prop where
  | attempt (h : s.phase i = .queued) : Stepped now i s (s.attempt now i)
  | unanswered {answer deadline} (h : s.phase i = .connecting answer deadline) (record : Log) :
      Stepped now i s ⟨s.setPhase i .ending, [.log record], none⟩
  | opened {answer deadline} (h : s.phase i = .connecting answer deadline) (plan : Link.Plan)
      {machine : Machine} (hm : s.machine.onOpen (s.generation i) = some machine) :
      Stepped now i s
        ⟨setPhase i (.announcing s.links.length)
          { s with machine, sender := some s.links.length, links := s.links ++ [.ofPlan plan] },
          [.opened s.links.length], none⟩
  | superseded {answer deadline} (h : s.phase i = .connecting answer deadline) (plan : Link.Plan)
      (hm : s.machine.onOpen (s.generation i) = none) :
      Stepped now i s
        ⟨setPhase i .ending { s with links := s.links ++ [(Link.ofPlan plan).release] },
          [.released s.links.length], none⟩
  | announced {link} (h : s.phase i = .announcing link)
      (hc : s.machine.isCurrent (s.generation i) = true) (ho : s.state = .opened)
      (ha : s.announced = false) :
      Stepped now i s
        ⟨{ s.setPhase i (.pumping link) with announced := true }, [s.logInfo "channel open" []],
          some (.status true)⟩
  | unannounced {link} (h : s.phase i = .announcing link)
      (hn : s.machine.isCurrent (s.generation i) = true → s.state = .opened →
        s.announced = true) :
      Stepped now i s (.silent (s.setPhase i (.pumping link)))
  | read {link l f rest c} (h : s.phase i = .pumping link) (hl : s.links[link]? = some l)
      (hin : l.inbound = .frame f :: rest) (hc : f.callback? = some c) :
      Stepped now i s
        ⟨s.modifyLink link fun l => { l with inbound := rest }, [.read link (.frame f)], some c⟩
  | readLast {link l item rest seen} (h : s.phase i = .pumping link)
      (hl : s.links[link]? = some l) (hin : l.inbound = item :: rest)
      (hc : ∀ f, item = .frame f → f.callback? = none) (hs : Logs seen) :
      Stepped now i s ((s.modifyLink link fun l => { l with inbound := rest }).leave now i link
        (.read link item :: seen))
  | exhausted {link l} (h : s.phase i = .pumping link) (hl : s.links[link]? = some l)
      (hin : l.exhausted = true ∨ l.requests = [] ∧ s.sender ≠ some link) :
      Stepped now i s (s.leave now i link [])
  | dismissed {link l rest} (h : s.phase i = .pumping link) (hl : s.links[link]? = some l)
      (hr : l.requests = .close :: rest) :
      Stepped now i s ((s.modifyLink link fun l => { l with requests := rest }).leave now i link
        [.dismissed link])
  | write {link l text rest} (h : s.phase i = .pumping link) (hl : s.links[link]? = some l)
      (hr : l.requests = .text text :: rest) :
      Stepped now i s
        ⟨setPhase i (.writing link ((l.plan.write l.writes).due now) (now + writeLimit))
          ((s.modifyLink link fun l => { l with requests := rest }).modifyLink link
            fun l => { l with writes := l.writes + 1 }),
          [.write link text (Fate.ofReply (l.plan.write l.writes))], none⟩
  | written {link answer deadline} (h : s.phase i = .writing link answer deadline) :
      Stepped now i s (.silent (s.setPhase i (.pumping link)))
  | unwritten {link answer deadline seen} (h : s.phase i = .writing link answer deadline)
      (hs : Logs seen) : Stepped now i s (s.leave now i link seen)
  | release {link answer deadline} (h : s.phase i = .closing link answer deadline) :
      Stepped now i s (s.release i link)
  | closed {machine closing seen} (h : s.phase i = .ending)
      (hm : s.machine.onClose (s.generation i) = some (machine, closing)) (hs : Logs seen) :
      Stepped now i s
        ⟨{ s.setPhase i (.retiring closing.delay) with
            machine, sender := none, announced := false },
          .ended :: seen, if s.announced then some (.status false) else none⟩
  | outdated (h : s.phase i = .ending) (hm : s.machine.onClose (s.generation i) = none) :
      Stepped now i s (.silent (s.setPhase i .finished))
  | rest {delay} (h : s.phase i = .retiring delay) : Stepped now i s (s.rest now i delay)
  | retried {due machine} (h : s.phase i = .waiting due) (hd : due ≤ now)
      (hm : s.machine.onRetry (s.generation i) = some machine) :
      Stepped now i s
        (.silent { s.setPhase i .queued with machine, reconnects := s.reconnects + 1 })
  | cancelled {due} (h : s.phase i = .waiting due) (hd : due ≤ now)
      (hm : s.machine.onRetry (s.generation i) = none) :
      Stepped now i s (.silent (s.setPhase i .finished))

theorem connected_stepped {now i : Nat} {s : Socket} {answer : Option (Nat × Answer)}
    {deadline : Nat} (h : s.phase i = .connecting answer deadline) (reply : Option Answer) :
    Stepped now i s (s.connected i reply) := by
  rcases reply with _ | e | plan
  · exact .unanswered h _
  · cases e <;> exact .unanswered h _
  · simp only [connected]
    split
    next machine hm => exact .opened h plan hm
    next hm => exact .superseded h plan hm

theorem announce_stepped {now i link : Nat} {s : Socket} (h : s.phase i = .announcing link) :
    Stepped now i s (s.announce i link) := by
  simp only [announce]
  split
  next hc =>
    simp only [Bool.and_eq_true, beq_iff_eq, Bool.not_eq_true'] at hc
    exact .announced h hc.1.1 hc.1.2 hc.2
  next hc =>
    refine .unannounced h fun hg ho => ?_
    simpa [generation, ← hg, ho] using hc

theorem report_stepped {now i : Nat} {s : Socket} (h : s.phase i = .ending) :
    Stepped now i s (s.report i) := by
  simp only [report]
  split
  next hm => exact .outdated h hm
  next machine closing hm =>
    refine .closed h hm ?_
    split
    · exact logs_one _
    · exact logs_nil

theorem retry_stepped {now i due : Nat} {s : Socket} (h : s.phase i = .waiting due)
    (hd : due ≤ now) : Stepped now i s (s.retry i) := by
  simp only [retry]
  split
  next hm => exact .cancelled h hd hm
  next machine hm => exact .retried h hd hm

theorem receive_stepped {now i link : Nat} {s : Socket} {l : Link} {item : Inbound}
    {rest : List Inbound} (h : s.phase i = .pumping link) (hl : s.links[link]? = some l)
    (hin : l.inbound = item :: rest) :
    Stepped now i s
      ((s.modifyLink link fun l => { l with inbound := rest }).receive now i link item) := by
  rcases item with (text | bytes | _) | e
  · exact .read h hl hin rfl
  · simp only [receive]
    split
    next text hd => exact .read h hl hin (by simp [Frame.callback?, hd])
    next fault hd => exact .read h hl hin (by simp [Frame.callback?, hd])
  · exact .readLast h hl hin (by simp [Frame.callback?]) logs_nil
  · exact .readLast h hl hin (by simp) (logs_one _)

theorem transmit_stepped {now i link : Nat} {s : Socket} {l : Link} {request : Request}
    {rest : List Request} (h : s.phase i = .pumping link) (hl : s.links[link]? = some l)
    (hr : l.requests = request :: rest) :
    Stepped now i s
      ((s.modifyLink link fun l => { l with requests := rest }).transmit now i link request) := by
  cases request with
  | text text =>
    have ht : (s.modifyLink link fun l => { l with requests := rest }).links[link]? =
        some { l with requests := rest } := by
      simp [modifyLink, hl]
    simp only [transmit, ht]
    exact .write h hl hr
  | close => exact .dismissed h hl hr

theorem pump_stepped {now i link : Nat} {s : Socket} {outboundFirst : Bool} {m : Move}
    (h : s.phase i = .pumping link) (hm : s.pump now outboundFirst i link = some m) :
    Stepped now i s m := by
  unfold pump at hm
  split at hm
  next => cases hm
  next l hl =>
    extract_lets inward outward at hm
    -- the two directions, of which one is chosen
    have hin : ∀ m, inward = some m → Stepped now i s m := by
      intro m hm
      simp only [inward] at hm
      split at hm
      next item rest hi => cases hm; exact receive_stepped h hl hi
      next hi =>
        split at hm
        next => cases hm
        next hp => cases hm; exact .exhausted h hl (.inl (by simp [Link.exhausted, hi, hp]))
    have hout : ∀ m, outward = some m → Stepped now i s m := by
      intro m hm
      simp only [outward] at hm
      split at hm
      next request rest hr => cases hm; exact transmit_stepped h hl hr
      next hr =>
        split at hm
        next => cases hm
        next hs => cases hm; exact .exhausted h hl (.inr ⟨hr, hs⟩)
    split at hm
    · rcases Option.or_eq_some_iff.mp hm with hm | ⟨-, hm⟩
      · exact hout m hm
      · exact hin m hm
    · rcases Option.or_eq_some_iff.mp hm with hm | ⟨-, hm⟩
      · exact hin m hm
      · exact hout m hm

theorem step_stepped {now i : Nat} {s : Socket} {outboundFirst : Bool} {m : Move}
    (hm : s.step now outboundFirst i = some m) : Stepped now i s m := by
  unfold step at hm
  split at hm
  case h_1 h => cases hm; exact .attempt h
  case h_2 h =>
    obtain ⟨reply, -, rfl⟩ := Option.map_eq_some_iff.mp hm
    exact connected_stepped h reply
  case h_3 h => cases hm; exact announce_stepped h
  case h_4 h => exact pump_stepped h hm
  case h_5 h =>
    obtain ⟨reply, -, rfl⟩ := Option.map_eq_some_iff.mp hm
    rcases reply with _ | e | _
    · exact .unwritten h (logs_one _)
    · exact .unwritten h (logs_one _)
    · exact .written h
  case h_6 h =>
    obtain ⟨reply, -, rfl⟩ := Option.map_eq_some_iff.mp hm
    exact .release h
  case h_7 h => cases hm; exact report_stepped h
  case h_8 h => cases hm; exact .rest h
  case h_9 h =>
    split at hm
    next hd => cases hm; exact retry_stepped h hd
    next => cases hm
  case h_10 => cases hm

/-- What can happen to a socket. A shift that begins a session is marked `true` and one that
ends it for good `false`. -/
inductive Shift (s : Socket) : Option Bool → Move → Prop where
  | stay : Shift s none (.silent s)
  | connect (h : s.state = .closed) : Shift s (some true) s.connect
  | teardown (now : Nat) : Shift s (some false) (s.teardown now)
  | send {link text} (hl : s.sender = some link) (hh : s.isHeld link = true)
      (ho : s.state = .opened) :
      Shift s none ⟨s.modifyLink link (·.request (.text text)), [.queued link text], none⟩
  | step {now i m} (h : Stepped now i s m) : Shift s none m
  | discard {i} (h : s.isAborted i = true) : Shift s none (s.discard i)
  | reap {now i} (h : s.isReapDue now i = true) : Shift s none (s.reap i)
  | arrive (link : Nat) (item : Inbound) : Shift s none (.silent (s.arrive link item))
  | hangUp (link : Nat) : Shift s none (.silent (s.hangUp link))

theorem send_eq_ok {s : Socket} {text : String} {m : Move} :
    s.send text = .ok m ↔ ∃ link, s.sender = some link ∧ s.isHeld link = true ∧
      s.state = .opened ∧
      m = ⟨s.modifyLink link (·.request (.text text)), [.queued link text], none⟩ := by
  unfold send
  constructor
  · intro h
    split at h
    next link hl =>
      obtain ⟨hs, hh⟩ := Option.filter_eq_some_iff.mp hl
      split at h
      next ho => cases h; exact ⟨link, hs, hh, ho, rfl⟩
      next => cases h
    next => cases h
  · rintro ⟨link, hs, hh, ho, rfl⟩
    have hl : s.sender.filter s.isHeld = some link := Option.filter_eq_some_iff.mpr ⟨hs, hh⟩
    simp only [hl, if_pos ho]

theorem send_shift {s : Socket} {text : String} {m : Move} (h : s.send text = .ok m) :
    Shift s none m := by
  obtain ⟨link, hs, hh, ho, rfl⟩ := send_eq_ok.mp h
  exact .send hs hh ho

/-! ### Frames -/

theorem phase_eq {s : Socket} {i : Nat} {d : Driver} (h : s.drivers[i]? = some d) :
    s.phase i = d.phase := by
  simp [phase, h]

theorem isAborted_eq {s : Socket} {i : Nat} {d : Driver} (h : s.drivers[i]? = some d) :
    s.isAborted i = d.aborted := by
  simp [isAborted, h]

theorem generation_eq {s : Socket} {i : Nat} {d : Driver} (h : s.drivers[i]? = some d) :
    s.generation i = d.generation := by
  simp [generation, h]

theorem exists_driver {s : Socket} {i : Nat} (h : s.phase i ≠ .finished) :
    ∃ d, s.drivers[i]? = some d := by
  cases hd : s.drivers[i]? with
  | none => simp [phase, hd] at h
  | some d => exact ⟨d, rfl⟩

/-- A driver that makes a step has not finished. -/
theorem Stepped.phase_ne {now i : Nat} {s : Socket} {m : Move} (h : Stepped now i s m) :
    s.phase i ≠ .finished := by
  cases h <;> simp_all

theorem Stepped.exists_driver {now i : Nat} {s : Socket} {m : Move} (h : Stepped now i s m) :
    ∃ d, s.drivers[i]? = some d :=
  Socket.exists_driver h.phase_ne

/-- A step of a driver leaves all about the drivers but its own phase. -/
theorem Stepped.exists_phase {now i : Nat} {s : Socket} {m : Move} (h : Stepped now i s m) :
    ∃ p, m.socket.drivers = s.drivers.modify i fun d => { d with phase := p } := by
  cases h
  case read link _ _ _ _ h _ _ _ =>
    refine ⟨.pumping link, ?_⟩
    apply List.ext_getElem?
    intro j
    by_cases hij : i = j
    · subst hij
      cases hd : s.drivers[i]? with
      | none => simp [modifyLink, hd]
      | some d =>
        have hp : d.phase = .pumping link := by rw [← phase_eq hd]; exact h
        simp [modifyLink, hd, ← hp]
    · simp [modifyLink, hij]
  all_goals exact ⟨_, rfl⟩

theorem Stepped.getElem?_self {now i : Nat} {s : Socket} {m : Move} {d : Driver}
    (h : Stepped now i s m) (hd : s.drivers[i]? = some d) :
    m.socket.drivers[i]? = some { d with phase := m.socket.phase i } := by
  obtain ⟨p, hp⟩ := h.exists_phase
  simp [phase, hp, hd]

theorem Stepped.getElem?_other {now i j : Nat} {s : Socket} {m : Move}
    (h : Stepped now i s m) (hj : i ≠ j) : m.socket.drivers[j]? = s.drivers[j]? := by
  obtain ⟨p, hp⟩ := h.exists_phase
  simp [hp, hj]

/-- Drivers do not change which of them has the session or has been released. -/
theorem Stepped.slots {now i : Nat} {s : Socket} {m : Move} (h : Stepped now i s m) :
    m.socket.driver = s.driver ∧ m.socket.parting = s.parting := by
  cases h <;> exact ⟨rfl, rfl⟩

theorem Stepped.generation_eq {now i : Nat} {s : Socket} {m : Move} (h : Stepped now i s m) :
    m.socket.machine.generation = s.machine.generation ∧
      m.socket.machine.tornDown = s.machine.tornDown := by
  cases h
  case opened hm => obtain ⟨-, -, rfl⟩ := Machine.onOpen_eq_some.mp hm; exact ⟨rfl, rfl⟩
  case closed hm _ => cases (Machine.onClose_eq_some.mp hm).2.2; exact ⟨rfl, rfl⟩
  case retried hm => obtain ⟨-, -, rfl⟩ := Machine.onRetry_eq_some.mp hm; exact ⟨rfl, rfl⟩
  all_goals exact ⟨rfl, rfl⟩

theorem isHeld_modifyLink_of {s : Socket} {f : Link → Link} {i link : Nat}
    (hf : ∀ l, (f l).held = true → l.held = true)
    (h : (s.modifyLink i f).isHeld link = true) : s.isHeld link = true := by
  simp only [isHeld, modifyLink, List.getElem?_modify] at h ⊢
  cases hl : s.links[link]? with
  | none => simp [hl] at h
  | some l =>
    by_cases hi : i = link
    · exact hf l (by simpa [hl, hi] using h)
    · simpa [hl, hi] using h

/-- A link that has been released is not held again. -/
theorem Stepped.isHeld_of {now i link : Nat} {s : Socket} {m : Move} (h : Stepped now i s m)
    (hl : link < s.links.length) (hm : m.socket.isHeld link = true) : s.isHeld link = true := by
  cases h
  case opened => simpa [isHeld, setPhase, modifyDriver, List.getElem?_append_left hl] using hm
  case superseded =>
    simpa [isHeld, setPhase, modifyDriver, List.getElem?_append_left hl] using hm
  case read => exact isHeld_modifyLink_of (by simp) hm
  case readLast => exact isHeld_modifyLink_of (by simp) hm
  case dismissed => exact isHeld_modifyLink_of (by simp) hm
  case write =>
    exact isHeld_modifyLink_of (by simp) (isHeld_modifyLink_of (by simp) hm)
  case release => exact isHeld_modifyLink_of (by simp [Link.release]) hm
  all_goals exact hm

theorem Stepped.length_links_le {now i : Nat} {s : Socket} {m : Move} (h : Stepped now i s m) :
    s.links.length ≤ m.socket.links.length := by
  cases h <;> simp [setPhase, modifyDriver, modifyLink, Socket.attempt, leave, Socket.release,
    Socket.rest, Move.silent]

/-! ### Operations -/

theorem getElem?_abort (s : Socket) (i : Option Nat) (j : Nat) :
    (s.abort i).drivers[j]? =
      s.drivers[j]?.map fun d => if i = some j then { d with aborted := true } else d := by
  cases i with
  | none => simp [abort]
  | some i =>
    by_cases hij : i = j
    · subst hij; simp [abort, modifyDriver]
    · simp [abort, modifyDriver, hij]

/-- The socket whose drivers are all to end, the one of the session and the released one. -/
def endDrivers (s : Socket) : Socket := (s.abort s.parting).abort s.driver

theorem getElem?_endDrivers (s : Socket) (j : Nat) :
    s.endDrivers.drivers[j]? = s.drivers[j]?.map fun d =>
      if s.driver = some j ∨ s.parting = some j then { d with aborted := true } else d := by
  have hp : (s.abort s.parting).driver = s.driver := by cases s.parting <;> rfl
  simp only [endDrivers, getElem?_abort, Option.map_map]
  congr 1
  funext d
  by_cases h₁ : s.driver = some j <;> by_cases h₂ : s.parting = some j <;> simp [h₁, h₂]

theorem frame_endDrivers (s : Socket) :
    s.endDrivers = { s with drivers := s.endDrivers.drivers } := by
  have h (i j : Option Nat) :
      (s.abort i).abort j = { s with drivers := ((s.abort i).abort j).drivers } := by
    cases i <;> cases j <;> rfl
  exact h s.parting s.driver

theorem connect_of_closed {s : Socket} (hs : s.state = .closed) :
    s.connect = .silent
      { s with
        machine := { s.machine with
          state := .connecting, generation := s.machine.generation + 1, tornDown := false }
        parting := none
        driver := some s.endDrivers.drivers.length
        drivers := s.endDrivers.drivers ++
          [⟨s.machine.generation + 1, .queued, false, none⟩] } := by
  simp only [connect, Machine.beginOpen_eq_some.mpr ⟨hs, rfl⟩]
  rw [← endDrivers, frame_endDrivers]

theorem connect_of_live {s : Socket} (hs : s.state ≠ .closed) : s.connect = .silent s := by
  have hn : s.machine.beginOpen = none := by
    rw [Option.eq_none_iff_forall_ne_some]
    intro machine hm
    exact hs (Machine.beginOpen_eq_some.mp hm).1
  simp only [connect, hn]

theorem callback_connect (s : Socket) : s.connect.callback = none := by
  unfold connect
  split <;> rfl

theorem announced_connect (s : Socket) : s.connect.socket.announced = s.announced := by
  by_cases hs : s.state = .closed
  · rw [connect_of_closed hs]; rfl
  · rw [connect_of_live hs]; rfl

/-- What a teardown makes of the drivers: the one of the session is released if it has a link
and is to end otherwise. -/
theorem getElem?_teardown (now : Nat) (s : Socket) (j : Nat) :
    (s.teardown now).socket.drivers[j]? = s.drivers[j]?.map fun d =>
      if s.driver = some j then
        if (s.sender.filter s.isHeld).isSome then { d with reapAt := some (now + reapLimit) }
        else { d with aborted := true }
      else d := by
  cases hd : s.driver with
  | none => cases ha : s.sender.filter s.isHeld <;> simp [teardown, hd, ha, modifyLink]
  | some i =>
    by_cases hij : i = j
    · subst hij
      cases ha : s.sender.filter s.isHeld <;>
        simp [teardown, hd, ha, modifyLink, modifyDriver, abort]
    · cases ha : s.sender.filter s.isHeld <;>
        simp [teardown, hd, ha, modifyLink, modifyDriver, abort, hij]

theorem parting_teardown (now : Nat) (s : Socket) :
    (s.teardown now).socket.parting =
      if (s.sender.filter s.isHeld).isSome ∧ s.driver.isSome then s.driver else s.parting := by
  cases hd : s.driver <;> cases ha : s.sender.filter s.isHeld <;>
    simp [teardown, hd, ha, modifyLink, modifyDriver, abort]

theorem links_teardown (now : Nat) (s : Socket) :
    (s.teardown now).socket.links =
      match s.sender.filter s.isHeld with
      | some link => s.links.modify link (·.request .close)
      | none => s.links := by
  cases hd : s.driver <;> cases ha : s.sender.filter s.isHeld <;>
    simp [teardown, hd, ha, modifyLink, modifyDriver, abort]

theorem length_links_teardown (now : Nat) (s : Socket) :
    (s.teardown now).socket.links.length = s.links.length := by
  rw [links_teardown]
  split <;> simp

theorem reap_socket (s : Socket) (i : Nat) :
    (s.reap i).socket = s.modifyDriver i fun d => { d with reapAt := none, aborted := true } := by
  simp only [reap, abort, Socket.modifyDriver, List.modify_modify_eq]
  rfl

theorem seen_connect (s : Socket) : s.connect.seen = [] := by
  unfold connect
  split <;> rfl

theorem logs_teardown (now : Nat) (s : Socket) : Logs (s.teardown now).seen := by
  unfold teardown
  dsimp only
  split
  · exact logs_nil
  · exact logs_one _

/-- The end of a driver shows in the release of its link. -/
theorem seen_discard (s : Socket) (i : Nat) :
    (s.discard i).seen = ((s.phase i).link?.map Happening.released).toList := by
  unfold discard
  cases (s.phase i).link? <;> simp [Move.silent]

end Socket

end TwinLink
