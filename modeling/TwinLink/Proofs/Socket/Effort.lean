import TwinLink.Proofs.Socket.Status

/-! A driver that runs comes to wait. Every step takes it further towards its next wait, or takes
something off its link, and the wait before an attempt lasts for some time if the delays of the
machine do. Main statements: no shift makes a delay nothing, and a step leaves a driver less to
do before time has to pass. -/

namespace TwinLink

theorem Duration.ticks_pos {d : Duration} (h : 0 < d.nanos) : 0 < d.ticks := by
  rw [ticks, nanosPerMilli]
  omega

namespace Socket

/-- What a link has left to move. -/
def load (s : Socket) (link : Nat) : Nat :=
  (s.links[link]?.map fun l => l.inbound.length + l.requests.length).getD 0

/-- A bound on the steps that a driver takes from a phase before it has to wait. -/
def effort (now : Nat) (s : Socket) : Phase → Nat
  | .waiting due => if due ≤ now then 9 else 0
  | .queued => 8
  | .connecting .. => 7
  | .announcing link | .writing link .. => 2 * s.load link + 6
  | .pumping link => 2 * s.load link + 5
  | .closing .. => 4
  | .ending => 3
  | .retiring _ => 2
  | .finished => 0

/-- Every delay before an attempt takes some time. -/
structure Patient (s : Socket) : Prop where
  delay : 0 < s.machine.delay.nanos
  first : 0 < s.machine.backoff.bounds.first.nanos
  retiring : ∀ i d, s.phase i = .retiring d → 0 < d.nanos

section

variable {s : Socket} {i link now : Nat} {m : Move} {b : Option Bool} {l : Link}

/-! ### Delays -/

theorem patient_ofSettings (settings : Settings) (script : List (Reply Answer))
    (h : 0 < settings.backoff.first.nanos) : Patient (ofSettings settings script) where
  delay := h
  first := h
  retiring i d hp := by cases hp

/-- A driver that is about to wait has been told to by the machine. -/
theorem Stepped.retiring (hs : Stepped now i s m) {d : Duration}
    (hp : m.socket.phase i = .retiring d) : d = s.machine.delay := by
  obtain ⟨e, he⟩ := hs.exists_driver
  cases hs
  case closed hm _ =>
    obtain ⟨-, -, heq⟩ := Machine.onClose_eq_some.mp hm
    obtain ⟨-, rfl⟩ := Prod.mk.inj heq
    simpa [phase, setPhase, modifyDriver, he, eq_comm] using hp
  all_goals
    simp_all [phase, setPhase, modifyDriver, modifyLink, leave, Socket.release, Move.silent,
      Socket.attempt, Socket.rest]

theorem Stepped.backoff (hs : Stepped now i s m) :
    m.socket.machine.backoff = s.machine.backoff ∨
      m.socket.machine.backoff = s.machine.backoff.reset ∨
        m.socket.machine.backoff = s.machine.backoff.advance := by
  cases hs
  case opened hm =>
    obtain ⟨-, -, rfl⟩ := Machine.onOpen_eq_some.mp hm
    exact .inr (.inl rfl)
  case closed hm _ =>
    obtain ⟨-, -, heq⟩ := Machine.onClose_eq_some.mp hm
    obtain ⟨rfl, -⟩ := Prod.mk.inj heq
    exact .inr (.inr rfl)
  case retried hm =>
    obtain ⟨-, -, rfl⟩ := Machine.onRetry_eq_some.mp hm
    exact .inl rfl
  all_goals exact .inl rfl

theorem Patient.congr (h : Patient s) {t : Socket} (hm : t.machine.backoff = s.machine.backoff)
    (hp : ∀ j d, t.phase j = .retiring d → s.phase j = .retiring d) : Patient t where
  delay := by
    rw [Machine.delay, hm]
    exact h.delay
  first := by
    rw [hm]
    exact h.first
  retiring j d hj := h.retiring j d (hp j d hj)

theorem Patient.advance (h : Patient s) : 0 < s.machine.backoff.advance.current.nanos := by
  have hdelay : 0 < s.machine.backoff.current.nanos := h.delay
  have hfirst := h.first
  simp only [Backoff.Bounds.first, Duration.nanos_lesser] at hfirst
  simp only [Backoff.advance, Duration.nanos_lesser, Duration.nanos_double, longestSpan,
    nanosPerSecond, UInt64.size]
  omega

theorem Patient.step (h : Patient s) (hs : Stepped now i s m) : Patient m.socket where
  delay := by
    rw [Machine.delay]
    rcases hs.backoff with hb | hb | hb <;> rw [hb]
    · exact h.delay
    · exact h.first
    · exact h.advance
  first := by
    rcases hs.backoff with hb | hb | hb <;> rw [hb]
    · exact h.first
    · exact h.first
    · exact h.first
  retiring j d hj := by
    by_cases hij : i = j
    · subst hij
      rw [hs.retiring hj]
      exact h.delay
    · rw [hs.phase_other hij] at hj
      exact h.retiring j d hj

theorem Patient.shift (h : Patient s) (hs : Shift s b m) : Patient m.socket := by
  cases hs with
  | stay | send | arrive | hangUp => exact h.congr rfl fun _ _ hj => hj
  | connect hc =>
    refine h.congr ?_ fun j d hj => ?_
    · rw [connect_of_closed hc]
      rfl
    · rcases phase_connect hc j with hp | ⟨hp, -⟩
      · rw [← hp, hj]
      · rw [hp] at hj
        cases hj
  | teardown now =>
    exact
      { delay := h.first
        first := h.first
        retiring := fun j d hj => h.retiring j d ((phase_teardown now s j).symm.trans hj) }
  | step hm => exact h.step hm
  | @discard i =>
    refine h.congr (by rw [machine_discard]) fun j d hj => ?_
    rw [phase_discard] at hj
    split at hj
    · cases hj
    · exact hj
  | @reap now i =>
    rw [reap_socket]
    exact h.congr rfl fun j d hj => (phase_modifyDriver s i (fun _ => by rfl) j).symm.trans hj

/-! ### Steps -/

theorem load_eq (h : s.links[link]? = some l) :
    s.load link = l.inbound.length + l.requests.length := by
  simp [load, h]

theorem load_modifyLink (h : s.links[link]? = some l) (f : Link → Link) :
    (s.modifyLink link f).load link = (f l).inbound.length + (f l).requests.length := by
  simp [load, modifyLink, h]

/-- A step leaves a driver less to do before it has to wait. -/
theorem Stepped.effort_lt (h : Patient s) (hs : Stepped now i s m) :
    m.socket.effort now (m.socket.phase i) < s.effort now (s.phase i) := by
  obtain ⟨e, he⟩ := hs.exists_driver
  have hset {t : Socket} (ht : t.drivers = s.drivers) (p : Phase) :
      (t.setPhase i p).phase i = p := by
    simp [phase, setPhase, modifyDriver, ht, he]
  have hless {t : Socket} {p q : Phase} (hp : s.phase i = p) (hq : t.phase i = q)
      (hlt : t.effort now q < s.effort now p) :
      t.effort now (t.phase i) < s.effort now (s.phase i) := by
    rw [hp, hq]
    exact hlt
  -- a link that is left is closed
  have hleave {t : Socket} {p : Phase} {link : Nat} (hp : s.phase i = p)
      (ht : t.drivers = s.drivers) (hlt : 4 < s.effort now p) (seen : List Happening) :
      (t.leave now i link seen).socket.effort now ((t.leave now i link seen).socket.phase i) <
        s.effort now (s.phase i) := hless hp (hset ht _) hlt
  cases hs
  case attempt hp => exact hless hp (hset rfl _) (by simp [effort])
  case unanswered hp _ => exact hless hp (hset rfl _) (by simp [effort])
  case superseded hp _ _ => exact hless hp (hset rfl _) (by simp [effort])
  case opened hp plan _ _ =>
    refine hless hp (hset rfl _) ?_
    simp [effort, load, setPhase, modifyDriver, Link.ofPlan]
  case announced hp _ _ _ => exact hless hp (hset rfl _) (Nat.lt_succ_self _)
  case unannounced hp _ => exact hless hp (hset rfl _) (Nat.lt_succ_self _)
  case read hp hl hin _ =>
    refine hless hp hp ?_
    simp only [effort, load_modifyLink hl, load_eq hl, hin, List.length_cons]
    omega
  case readLast hp _ _ _ _ => exact hleave hp (by rfl) (by simp [effort]) _
  case exhausted hp _ _ => exact hleave hp (by rfl) (by simp [effort]) _
  case dismissed hp _ _ => exact hleave hp (by rfl) (by simp [effort]) _
  case write link l text rest hp hl hr =>
    refine hless hp (hset rfl _) ?_
    have hload : (setPhase i (.writing link ((l.plan.write l.writes).due now) (now + writeLimit))
        ((s.modifyLink link fun l => { l with requests := rest }).modifyLink link
          fun l => { l with writes := l.writes + 1 })).load link =
        l.inbound.length + rest.length := by
      simp [load, setPhase, modifyDriver, modifyLink, hl]
    simp only [effort, hload, load_eq hl, hr, List.length_cons]
    omega
  case written hp => exact hless hp (hset rfl _) (Nat.lt_succ_self _)
  case unwritten hp _ => exact hleave hp (by rfl) (by simp [effort]) _
  case release hp => exact hless hp (hset rfl _) (by simp [effort])
  case closed hp _ _ => exact hless hp (hset rfl _) (by simp [effort])
  case outdated hp _ => exact hless hp (hset rfl _) (by simp [effort])
  case rest d hp =>
    have hd : 0 < d.ticks := Duration.ticks_pos (h.retiring i d hp)
    refine hless hp (hset rfl _) ?_
    rw [effort, if_neg (by omega)]
    exact Nat.zero_lt_two
  case retried hp hd _ => exact hless hp (hset rfl _) (by simp [effort, hd])
  case cancelled hp hd _ => exact hless hp (hset rfl _) (by simp [effort, hd])

end

end Socket

end TwinLink
