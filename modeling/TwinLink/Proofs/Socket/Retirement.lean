import TwinLink.Proofs.Socket.Governance

/-! A socket that has been torn down. Its drivers may go on for a while, but the machine
refuses whatever they report. Main statement: until the socket is connected again nothing changes
its machine and no change of status is told, and no attempt to connect begins but that of a
driver that was about to begin it. -/

namespace TwinLink.Socket

/-- The driver has not begun the attempt that it is to make. -/
def Phase.isQueued : Phase → Bool
  | .queued => true
  | _ => false

/-- An attempt to connect begins. -/
def Happening.isAttempt : Happening → Bool
  | .attempt _ => true
  | _ => false

/-- The socket has been torn down and not been connected since. -/
structure Retired (s : Socket) : Prop where
  machine : s.machine.teardown = s.machine
  driver : s.driver = none
  sender : s.sender = none
  announced : s.announced = false
  /-- A driver that has not begun an attempt is to end before it does. -/
  queued : ∀ i, s.phase i = .queued → s.isAborted i = true

/-- A move that leaves a socket retired. -/
structure Idles (s : Socket) (m : Move) : Prop where
  retired : Retired m.socket
  machine : m.socket.machine = s.machine
  reconnects : m.socket.reconnects = s.reconnects
  attempts : m.socket.attempts = s.attempts + m.seen.countP Happening.isAttempt
  /-- No driver is about to connect that was not before. -/
  queued : ∀ i, m.socket.phase i = .queued → s.phase i = .queued
  untold : ∀ b, .status b ∉ m.callback

section

variable {s : Socket} {i now : Nat} {m : Move}

theorem lt_length_of_phase (h : (s.phase i).isFinished = false) : i < s.drivers.length := by
  obtain ⟨d, hd⟩ := exists_driver (s := s) (i := i) fun hp => by simp [hp, Phase.isFinished] at h
  exact (List.getElem?_eq_some_iff.mp hd).1

theorem Phase.isQueued_iff {p : Phase} : p.isQueued = true ↔ p = .queued := by
  cases p <;> simp [Phase.isQueued]

/-- Drivers are never forgotten. -/
theorem Shift.length_drivers_le {b : Option Bool} (h : Shift s b m) :
    s.drivers.length ≤ m.socket.drivers.length := by
  cases h with
  | connect hc =>
    rw [connect_of_closed hc]
    simp [Move.silent, length_endDrivers]
  | teardown now =>
    cases hd : s.driver <;> cases ha : s.sender.filter s.isHeld <;>
      simp [Socket.teardown, hd, ha, modifyLink, modifyDriver, abort]
  | step hm =>
    obtain ⟨p, hp⟩ := hm.exists_phase
    simp [hp]
  | discard =>
    unfold Socket.discard
    split <;> simp [setPhase, modifyDriver, modifyLink, Move.silent]
  | reap => simp [reap_socket, modifyDriver]
  | _ => exact Nat.le_refl _

theorem Retired.state (h : Retired s) : s.state = .closed := by
  rw [Socket.state, ← h.machine]
  rfl

theorem Retired.not_isCurrent (h : Retired s) (g : UInt64) : s.machine.isCurrent g = false := by
  rw [← h.machine]
  simp [Machine.isCurrent, Machine.teardown]

/-- A teardown retires a socket, whatever its drivers are at. -/
theorem Supervised.retired (h : Supervised s) (now : Nat) : Retired (s.teardown now).socket where
  machine := s.machine.teardown_teardown
  driver := rfl
  sender := rfl
  announced := rfl
  queued i hi := by
    rw [phase_teardown] at hi
    obtain ⟨d, hd⟩ := exists_driver (s := s) (i := i) (by simp [hi])
    have hp : d.phase = .queued := (phase_eq hd).symm.trans hi
    have ht := getElem?_teardown now s i
    rw [hd, Option.map_some] at ht
    rw [isAborted_eq ht]
    by_cases hdriver : s.driver = some i
    · -- a driver that has not begun has no link, so it is not released
      obtain ⟨e, he, hk⟩ := h.session i hdriver
      obtain rfl : e = d := Option.some.inj (he.symm.trans hd)
      have hasked : ¬ (s.sender.filter s.isHeld).isSome := by
        intro hasked
        have := hk.leaves hasked
        rw [hp] at this
        exact this
      rw [if_pos hdriver, if_neg hasked]
    · rw [if_neg hdriver]
      cases ha : d.aborted with
      | true => rfl
      | false =>
        have := ((h.former i d hd hdriver).leaves (by rw [hp]; rfl) ha).2
        rw [hp] at this
        exact this.elim

theorem Retired.idles_silent (h : Retired s) : Idles s (.silent s) where
  retired := h
  machine := rfl
  reconnects := rfl
  attempts := rfl
  queued _ hi := hi
  untold b := by simp [Move.silent]

/-- It is not torn down twice. -/
theorem Retired.teardown_eq (h : Retired s) (now : Nat) : s.teardown now = .silent s := by
  have hs := h.state
  obtain ⟨hm, hd, hl, ha, -⟩ := h
  cases s
  simp_all [Socket.teardown, Move.silent]

theorem Retired.send (h : Retired s) (text : String) (m : Move) : s.send text ≠ .ok m := by
  intro hs
  obtain ⟨link, hl, -⟩ := send_eq_ok.mp hs
  rw [h.sender] at hl
  cases hl

theorem Retired.idles_teardown (h : Retired s) (now : Nat) : Idles s (s.teardown now) := by
  rw [h.teardown_eq]
  exact h.idles_silent

/-- What happens to links alone does not matter. -/
theorem Retired.idles_links (h : Retired s) (links : List Link) :
    Idles s (.silent { s with links }) where
  retired := ⟨h.machine, h.driver, h.sender, h.announced, h.queued⟩
  machine := rfl
  reconnects := rfl
  attempts := rfl
  queued _ hi := hi
  untold b := by simp [Move.silent]

theorem Stepped.queued (hs : Stepped now i s m)
    (hc : s.machine.isCurrent (s.generation i) = false) {j : Nat}
    (hj : m.socket.phase j = .queued) : i ≠ j ∧ s.phase j = .queued := by
  have hij : i ≠ j := by
    rintro rfl
    obtain ⟨d, hd⟩ := hs.exists_driver
    cases hs
    case retried hm => simp [(Machine.onRetry_eq_some.mp hm).1] at hc
    all_goals
      simp_all [phase, setPhase, modifyDriver, modifyLink, leave, Socket.release, Move.silent,
        Socket.attempt, Socket.rest]
  rw [hs.phase_other hij] at hj
  exact ⟨hij, hj⟩

/-- A driver tells of a change of status only where it changes what has been announced. -/
theorem Stepped.told (hs : Stepped now i s m) :
    (∃ b, m.callback = some (.status b) ∧ s.announced = !b ∧ m.socket.announced = b) ∨
      (∀ b, .status b ∉ m.callback) ∧ m.socket.announced = s.announced := by
  cases hs
  case announced ha => exact .inl ⟨true, rfl, ha, rfl⟩
  case closed =>
    cases ha : s.announced with
    | true => exact .inl ⟨false, by simp, rfl, rfl⟩
    | false => exact .inr ⟨by simp, rfl⟩
  case read hf =>
    refine .inr ⟨fun b hb => ?_, rfl⟩
    cases Option.some.inj hb
    exact Frame.callback_ne_status hf b rfl
  all_goals
    right
    simp [leave, Socket.attempt, Socket.rest, Socket.release, Move.silent, setPhase, modifyDriver,
      modifyLink]

/-- An attempt is begun by a driver that was about to. -/
theorem Stepped.asks (hs : Stepped now i s m) :
    m.socket.attempts = s.attempts + m.seen.countP Happening.isAttempt ∧
      m.seen.countP Happening.isAttempt = (s.phase i).isQueued.toNat := by
  by_cases hq : s.phase i = .queued
  · rw [hq]
    cases hs
    case attempt => exact ⟨rfl, rfl⟩
    all_goals simp_all
  · have hseen : m.seen.countP Happening.isAttempt = 0 := by
      rw [List.countP_eq_zero]
      intro e he hattempt
      cases e with
      | attempt url => exact hq (hs.tells _ he)
      | _ => cases hattempt
    have hphase : (s.phase i).isQueued = false :=
      Bool.eq_false_iff.mpr fun h => hq (Phase.isQueued_iff.mp h)
    rw [hseen, hphase]
    refine ⟨?_, rfl⟩
    cases hs
    case attempt hp => exact absurd hp hq
    all_goals rfl

/-- Whatever a driver still does. -/
theorem Retired.step (h : Retired s) (hs : Stepped now i s m) : Idles s m := by
  have hc := h.not_isCurrent (s.generation i)
  obtain ⟨hmachine, hsender, hannounced, hreconnects⟩ := hs.refused hc
  refine
    { retired :=
        { machine := by rw [hmachine]; exact h.machine
          driver := hs.slots.1.trans h.driver
          sender := hsender.trans h.sender
          announced := hannounced.trans h.announced
          queued := fun j hj => ?_ }
      machine := hmachine
      reconnects := hreconnects
      attempts := hs.asks.1
      queued := fun j hj => (hs.queued hc hj).2
      untold := fun b => ?_ }
  · obtain ⟨hij, hq⟩ := hs.queued hc hj
    have ha := h.queued j hq
    rwa [isAborted, hs.getElem?_other hij]
  · rcases hs.told with ⟨b', -, hb, hb'⟩ | ⟨hnone, -⟩
    · -- what has been announced would have changed
      rw [hannounced, hb] at hb'
      cases b' <;> cases hb'
    · exact hnone b

theorem Retired.discard (h : Retired s) (i : Nat) : Idles s (s.discard i) := by
  have hphase := phase_discard s i
  have hqueued (j : Nat) (hj : (s.discard i).socket.phase j = .queued) :
      i ≠ j ∧ s.phase j = .queued := by
    rw [hphase] at hj
    split at hj
    next => cases hj
    next hij => exact ⟨hij, hj⟩
  have haborted (j : Nat) (hj : i ≠ j) : (s.discard i).socket.isAborted j = s.isAborted j := by
    unfold Socket.discard
    split <;> simp [isAborted, setPhase, modifyDriver, modifyLink, Move.silent, hj]
  have hframe : (s.discard i).socket.machine = s.machine ∧ (s.discard i).socket.driver = s.driver ∧
      (s.discard i).socket.sender = s.sender ∧ (s.discard i).socket.announced = s.announced ∧
      (s.discard i).socket.attempts = s.attempts ∧
      (s.discard i).socket.reconnects = s.reconnects ∧
      (s.discard i).callback = none ∧ (s.discard i).seen.countP Happening.isAttempt = 0 := by
    unfold Socket.discard
    split <;> simp [Move.silent, setPhase, modifyDriver, modifyLink, Happening.isAttempt]
  obtain ⟨hm, hd, hs, ha, hattempts, hreconnects, hcall, hseen⟩ := hframe
  exact
    { retired :=
        { machine := by rw [hm]; exact h.machine
          driver := hd.trans h.driver
          sender := hs.trans h.sender
          announced := ha.trans h.announced
          queued := fun j hj => by
            obtain ⟨hij, hq⟩ := hqueued j hj
            rw [haborted j hij]
            exact h.queued j hq }
      machine := hm
      reconnects := hreconnects
      attempts := by rw [hattempts, hseen, Nat.add_zero]
      queued := fun j hj => (hqueued j hj).2
      untold := by simp [hcall] }

theorem Retired.reap (h : Retired s) (i : Nat) : Idles s (s.reap i) := by
  have hphase (j : Nat) : (s.reap i).socket.phase j = s.phase j := by
    rw [reap_socket]
    exact phase_modifyDriver s i (fun _ => by rfl) j
  have haborted (j : Nat) (hj : s.isAborted j = true) : (s.reap i).socket.isAborted j = true := by
    rw [reap_socket]
    cases hd : s.drivers[j]? with
    | none => simp [isAborted, hd] at hj
    | some d =>
      rw [isAborted_eq hd] at hj
      by_cases hij : i = j <;> simp [isAborted, modifyDriver, hd, hij, hj]
  exact
    { retired :=
        { machine := h.machine
          driver := h.driver
          sender := h.sender
          announced := h.announced
          queued := fun j hj => haborted j (h.queued j ((hphase j).symm.trans hj)) }
      machine := rfl
      reconnects := rfl
      attempts := rfl
      queued := fun j hj => (hphase j).symm.trans hj
      untold := by simp [Socket.reap] }

end

end TwinLink.Socket
