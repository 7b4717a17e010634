import TwinLink.Proofs.Socket.Shift

/-! Which driver a socket relies on. While a session lasts, one driver has its generation and
stands where the machine is; all others have finished or are to end. After a teardown at most
one driver goes on, which only finishes its link. Main statement: every shift keeps this, as
long as generations do not wrap around. -/

namespace TwinLink.Socket

/-- The driver `i` goes on: it has neither finished nor been aborted. -/
def isUp (s : Socket) (i : Nat) : Bool := !(s.phase i).isFinished && !s.isAborted i

/-- Where a driver stands while the machine of its session is in a state. -/
def Phase.Stands : Phase → Machine.State → Prop
  | queued, state | connecting .., state => state = .connecting
  | announcing _, state | pumping _, state | writing .., state | closing .., state =>
    state = .opened
  | ending, state => state ≠ .closed
  | retiring _, state | waiting _, state => state = .closed
  | finished, _ => False

/-- A driver has a link to finish, or has just finished it. -/
def Phase.Leaves : Phase → Prop
  | announcing _ | pumping _ | writing .. | closing .. | ending => True
  | _ => False

/-- The driver `d` keeps the session of a socket. -/
structure Keeps (s : Socket) (d : Driver) : Prop where
  generation : d.generation = s.machine.generation
  current : s.machine.tornDown = false
  running : d.aborted = false
  unlimited : d.reapAt = none
  alone : s.parting = none
  stands : d.phase.Stands s.state
  sender : d.phase ≠ .ending → s.sender = d.phase.link?
  ended : d.phase = .ending → ∀ link, s.sender = some link → s.isHeld link = false

/-- A driver that is no longer the one of the session. It goes on only if it was released. -/
structure Former (s : Socket) (j : Nat) (d : Driver) : Prop where
  older : d.generation.toNat < s.machine.generation.toNat
  leaves : d.phase.isFinished = false → d.aborted = false → s.parting = some j ∧ d.phase.Leaves

structure Supervised (s : Socket) : Prop where
  session : ∀ i, s.driver = some i → ∃ d, s.drivers[i]? = some d ∧ Keeps s d
  idle : s.driver = none → s.state = .closed ∧ s.sender = none
  former : ∀ j d, s.drivers[j]? = some d → s.driver ≠ some j → Former s j d
  sender_lt : ∀ link, s.sender = some link → link < s.links.length

theorem isHeld_release (s : Socket) (link : Nat) :
    (s.modifyLink link Link.release).isHeld link = false := by
  cases hl : s.links[link]? <;> simp [isHeld, modifyLink, hl, Link.release]

theorem supervised_ofSettings (settings : Settings) (script : List (Reply Answer)) :
    Supervised (ofSettings settings script) where
  session i h := by simp [ofSettings] at h
  idle _ := ⟨rfl, rfl⟩
  former j d h := by simp [ofSettings] at h
  sender_lt link h := by simp [ofSettings] at h

/-! ### Steps of drivers -/

section Step

variable {now i : Nat} {s : Socket} {m : Move} {d : Driver}

theorem Keeps.isCurrent (h : Keeps s d) (hd : s.drivers[i]? = some d) :
    s.machine.isCurrent (s.generation i) = true := by
  rw [Socket.generation_eq hd, Machine.isCurrent_iff]
  exact ⟨h.generation.symm, h.current⟩

/-- Where the driver of the session stands after a step. -/
theorem Keeps.stands_step (h : Keeps s d) (hd : s.drivers[i]? = some d) (hs : Stepped now i s m) :
    (m.socket.phase i).Stands m.socket.state ∧
      (m.socket.phase i ≠ .ending → m.socket.sender = (m.socket.phase i).link?) ∧
      (m.socket.phase i = .ending → ∀ link, m.socket.sender = some link →
        m.socket.isHeld link = false) := by
  have hc := h.isCurrent hd
  have hstands := h.stands
  have hsender := h.sender
  have hended := h.ended
  rw [← phase_eq hd] at hstands hsender hended
  cases hs
  -- the machine answers the driver of its session
  case opened hp plan hm =>
    obtain ⟨-, -, rfl⟩ := Machine.onOpen_eq_some.mp hm
    simp [Phase.Stands, phase, setPhase, modifyDriver, hd, state, Phase.link?]
  case closed hp hm _ =>
    cases (Machine.onClose_eq_some.mp hm).2.2
    simp [Phase.Stands, phase, setPhase, modifyDriver, hd, state, Phase.link?]
  case retried hp _ hm =>
    obtain ⟨-, -, rfl⟩ := Machine.onRetry_eq_some.mp hm
    rw [hp] at hsender
    simp [Phase.Stands, phase, setPhase, modifyDriver, hd, state, Phase.link?, Move.silent, hsender]
  -- and does not refuse
  case superseded hp _ hm =>
    rw [hp] at hstands
    simp [Machine.onOpen, hc, show s.machine.state = .connecting from hstands] at hm
  case outdated hp hm =>
    rw [hp] at hstands
    simp [Machine.onClose, hc, show s.machine.state ≠ .closed from hstands] at hm
  case cancelled hp _ hm =>
    rw [hp] at hstands
    simp [Machine.onRetry, hc, show s.machine.state = .closed from hstands] at hm
  case release link _ _ hp =>
    rw [hp] at hsender hstands
    have hl : s.sender = some link := hsender (by simp)
    have ho : s.machine.state = .opened := hstands
    refine ⟨?_, ?_, ?_⟩
    · simp [Phase.Stands, phase, setPhase, modifyDriver, modifyLink, hd, state, Socket.release, ho]
    · simp [phase, setPhase, modifyDriver, modifyLink, hd, Socket.release]
    · intro _ link' hl'
      obtain rfl : link = link' := Option.some.inj (hl.symm.trans hl')
      exact isHeld_release s link
  all_goals
    simp_all [Phase.Stands, Phase.link?, phase, setPhase, modifyDriver, modifyLink, leave,
      Socket.attempt, Socket.rest, Move.silent, state]

/-- The driver of the session keeps it at every step. -/
theorem Keeps.step (h : Keeps s d) (hd : s.drivers[i]? = some d) (hs : Stepped now i s m) :
    Keeps m.socket { d with phase := m.socket.phase i } := by
  obtain ⟨hg, ht⟩ := hs.generation_eq
  obtain ⟨hstands, hsender, hended⟩ := h.stands_step hd hs
  exact
    { generation := h.generation.trans hg.symm
      current := ht.trans h.current
      running := h.running
      unlimited := h.unlimited
      alone := hs.slots.2.trans h.alone
      stands := hstands
      sender := hsender
      ended := hended }

/-- A driver of an ended session is refused by the machine, and changes nothing else that
counts for the session. -/
theorem Stepped.refused (hs : Stepped now i s m)
    (hc : s.machine.isCurrent (s.generation i) = false) :
    m.socket.machine = s.machine ∧ m.socket.sender = s.sender ∧
      m.socket.announced = s.announced ∧ m.socket.reconnects = s.reconnects := by
  cases hs
  case opened hm => simp [(Machine.onOpen_eq_some.mp hm).1] at hc
  case announced hg _ _ => simp [hg] at hc
  case closed hm _ => simp [(Machine.onClose_eq_some.mp hm).1] at hc
  case retried hm => simp [(Machine.onRetry_eq_some.mp hm).1] at hc
  all_goals exact ⟨rfl, rfl, rfl, rfl⟩

/-- A driver of an ended session finishes its link and no more. -/
theorem Stepped.leaves (hs : Stepped now i s m)
    (hc : s.machine.isCurrent (s.generation i) = false) (hl : (s.phase i).Leaves) :
    (m.socket.phase i).Leaves ∨ m.socket.phase i = .finished := by
  obtain ⟨d, hd⟩ := hs.exists_driver
  cases hs
  case closed hm _ => simp [(Machine.onClose_eq_some.mp hm).1] at hc
  all_goals
    simp_all [Phase.Leaves, phase, setPhase, modifyDriver, modifyLink, leave, Socket.release,
      Move.silent]

theorem Former.not_isCurrent {j : Nat} (h : Former s j d) (hd : s.drivers[j]? = some d) :
    s.machine.isCurrent (s.generation j) = false := by
  rw [Socket.generation_eq hd, Bool.eq_false_iff, ne_eq, Machine.isCurrent_iff]
  rintro ⟨hg, -⟩
  exact absurd h.older (by simp [hg])

/-- What a step of another driver leaves of a former driver. -/
theorem Former.of_step {j : Nat} (h : Former s j d) (hs : Stepped now i s m) :
    Former m.socket j d where
  older := by rw [hs.generation_eq.1]; exact h.older
  leaves hf ha := by rw [hs.slots.2]; exact h.leaves hf ha

/-- A former driver remains one. -/
theorem Former.step (h : Former s i d) (hd : s.drivers[i]? = some d) (hs : Stepped now i s m) :
    Former m.socket i { d with phase := m.socket.phase i } where
  older := by rw [hs.generation_eq.1]; exact h.older
  leaves hf ha := by
    have hp := phase_eq hd
    have hnf : d.phase.isFinished = false := by
      have := hs.phase_ne
      rw [hp] at this
      cases hph : d.phase <;> simp_all [Phase.isFinished]
    obtain ⟨hpart, hl⟩ := h.leaves hnf ha
    refine ⟨hs.slots.2.trans hpart, ?_⟩
    rcases hs.leaves (h.not_isCurrent hd) (hp ▸ hl) with hl | hl
    · exact hl
    · simp [hl, Phase.isFinished] at hf

/-- What a step of another driver leaves of the driver of the session. -/
theorem Keeps.of_step (h : Keeps s d) (hs : Stepped now i s m)
    (hc : s.machine.isCurrent (s.generation i) = false)
    (hlt : ∀ link, s.sender = some link → link < s.links.length) : Keeps m.socket d := by
  obtain ⟨hm, hsender, -, -⟩ := hs.refused hc
  refine
    { generation := by rw [hm]; exact h.generation
      current := by rw [hm]; exact h.current
      running := h.running
      unlimited := h.unlimited
      alone := hs.slots.2.trans h.alone
      stands := by rw [state, hm]; exact h.stands
      sender := by rw [hsender]; exact h.sender
      ended := ?_ }
  intro he link hl
  rw [hsender] at hl
  rw [Bool.eq_false_iff]
  intro hheld
  have := hs.isHeld_of (hlt link hl) hheld
  simp [h.ended he link hl] at this

theorem Stepped.sender_lt (hs : Stepped now i s m)
    (hlt : ∀ link, s.sender = some link → link < s.links.length) :
    ∀ link, m.socket.sender = some link → link < m.socket.links.length := by
  intro link hl
  have hle := hs.length_links_le
  cases hs
  case opened =>
    obtain rfl : s.links.length = link := by simpa [setPhase, modifyDriver] using hl
    simp [setPhase, modifyDriver]
  case closed => simp at hl
  all_goals exact Nat.lt_of_lt_of_le (hlt link hl) hle

theorem Supervised.step (h : Supervised s) (hs : Stepped now i s m) : Supervised m.socket := by
  obtain ⟨hdriver, hparting⟩ := hs.slots
  obtain ⟨d, hd⟩ := hs.exists_driver
  by_cases hi : s.driver = some i
  · -- the driver of the session
    obtain ⟨d', hd', hk⟩ := h.session i hi
    obtain rfl : d' = d := Option.some.inj (hd'.symm.trans hd)
    refine
      { session := ?_
        idle := by rw [hdriver, hi]; simp
        former := ?_
        sender_lt := hs.sender_lt h.sender_lt }
    · intro j hj
      obtain rfl : i = j := Option.some.inj (hi.symm.trans (hdriver ▸ hj))
      exact ⟨_, hs.getElem?_self hd, hk.step hd hs⟩
    · intro j e he hj
      rw [hdriver] at hj
      have hij : i ≠ j := fun hij => hj (hij ▸ hi)
      rw [hs.getElem?_other hij] at he
      exact (h.former j e he hj).of_step hs
  · -- a driver of an earlier session
    have hf := h.former i d hd hi
    have hc := hf.not_isCurrent hd
    obtain ⟨hm, hsender, -, -⟩ := hs.refused hc
    refine
      { session := ?_
        idle := ?_
        former := ?_
        sender_lt := hs.sender_lt h.sender_lt }
    · intro j hj
      rw [hdriver] at hj
      have hij : i ≠ j := fun hij => hi (hij ▸ hj)
      obtain ⟨e, he, hk⟩ := h.session j hj
      exact ⟨e, (hs.getElem?_other hij).trans he, hk.of_step hs hc h.sender_lt⟩
    · intro hn
      rw [hdriver] at hn
      rw [state, hm, hsender]
      exact h.idle hn
    · intro j e he hj
      rw [hdriver] at hj
      by_cases hij : i = j
      · subst hij
        obtain rfl := Option.some.inj ((hs.getElem?_self hd).symm.trans he)
        exact hf.step hd hs
      · rw [hs.getElem?_other hij] at he
        exact (h.former j e he hj).of_step hs

end Step

/-! ### Operations -/

section Operation

variable {s : Socket}

theorem toNat_succ_generation {g : UInt64} (hb : g.toNat + 1 < UInt64.size) :
    (g + 1).toNat = g.toNat + 1 := by
  rw [UInt64.toNat_add, UInt64.toNat_one]
  exact Nat.mod_eq_of_lt hb

/-- A closed channel has no link. -/
theorem Supervised.sender_eq_none (h : Supervised s) (hs : s.state = .closed) :
    s.sender = none := by
  cases hd : s.driver with
  | none => exact (h.idle hd).2
  | some i =>
    obtain ⟨d, -, hk⟩ := h.session i hd
    have hstands := hk.stands
    have hsender := hk.sender
    rw [hs] at hstands
    cases hp : d.phase <;> simp_all [Phase.Stands, Phase.link?]

/-- Every driver is older than the session to come. -/
theorem Supervised.toNat_le (h : Supervised s) {j : Nat} {d : Driver}
    (hd : s.drivers[j]? = some d) : d.generation.toNat ≤ s.machine.generation.toNat := by
  by_cases hj : s.driver = some j
  · obtain ⟨e, he, hk⟩ := h.session j hj
    obtain rfl : e = d := Option.some.inj (he.symm.trans hd)
    exact Nat.le_of_eq (congrArg UInt64.toNat hk.generation)
  · exact Nat.le_of_lt (h.former j d hd hj).older

/-- All drivers but the one that goes on have finished or are to end. -/
theorem Supervised.endDrivers_up (h : Supervised s) {j : Nat} {d : Driver}
    (hd : s.endDrivers.drivers[j]? = some d) : d.phase.isFinished = true ∨ d.aborted = true := by
  rw [getElem?_endDrivers, Option.map_eq_some_iff] at hd
  obtain ⟨e, he, rfl⟩ := hd
  split
  next => exact .inr rfl
  next hj =>
    rw [not_or] at hj
    have hf := h.former j e he hj.1
    cases hfin : e.phase.isFinished with
    | true => exact .inl rfl
    | false =>
      cases ha : e.aborted with
      | true => exact .inr rfl
      | false => exact absurd (hf.leaves hfin ha).1 hj.2

theorem Supervised.connect (h : Supervised s) (hs : s.state = .closed)
    (hb : s.machine.generation.toNat + 1 < UInt64.size) : Supervised s.connect.socket := by
  rw [connect_of_closed hs]
  refine
    { session := ?_
      idle := by simp [Move.silent]
      former := ?_
      sender_lt := by simp [Move.silent, h.sender_eq_none hs] }
  · intro i hi
    obtain rfl := Option.some.inj hi
    refine ⟨_, List.getElem?_concat_length, ?_⟩
    exact
      { generation := rfl
        current := rfl
        running := rfl
        unlimited := rfl
        alone := rfl
        stands := rfl
        sender := fun _ => h.sender_eq_none hs
        ended := by simp }
  · intro j d hd hj
    have hne : s.endDrivers.drivers.length ≠ j := fun hne => hj (congrArg some hne)
    have hd : s.endDrivers.drivers[j]? = some d := by
      rcases Nat.lt_or_gt_of_ne hne with hlt | hgt
      · simp only [Move.silent] at hd
        rw [List.getElem?_eq_none (by simp; omega)] at hd
        cases hd
      · simpa [Move.silent, List.getElem?_append_left hgt] using hd
    refine ⟨?_, fun hf ha => ?_⟩
    · rw [getElem?_endDrivers, Option.map_eq_some_iff] at hd
      obtain ⟨e, he, rfl⟩ := hd
      have hle := h.toNat_le he
      simp only [Move.silent, toNat_succ_generation hb]
      split
      · exact Nat.lt_succ_of_le hle
      · exact Nat.lt_succ_of_le hle
    · rcases h.endDrivers_up hd with hf' | ha'
      · simp [hf'] at hf
      · simp [ha'] at ha

/-- The driver of a session whose link is held has that link to finish. -/
theorem Keeps.leaves {d : Driver} (h : Keeps s d) (ha : (s.sender.filter s.isHeld).isSome) :
    d.phase.Leaves := by
  obtain ⟨link, hl⟩ := Option.isSome_iff_exists.mp ha
  obtain ⟨hsender, hheld⟩ := Option.filter_eq_some_iff.mp hl
  have hs := h.sender
  cases hp : d.phase <;> simp_all [Phase.Leaves, Phase.link?]

theorem Supervised.teardown (h : Supervised s) (now : Nat)
    (hb : s.machine.generation.toNat + 1 < UInt64.size) : Supervised (s.teardown now).socket := by
  refine
    { session := by simp [Socket.teardown]
      idle := fun _ => ⟨rfl, rfl⟩
      former := ?_
      sender_lt := by simp [Socket.teardown] }
  intro j d hd _
  rw [getElem?_teardown, Option.map_eq_some_iff] at hd
  obtain ⟨e, he, rfl⟩ := hd
  have hg : (s.teardown now).socket.machine.generation =
      if s.machine.tornDown then s.machine.generation else s.machine.generation + 1 := rfl
  by_cases hj : s.driver = some j
  · -- the driver of the session
    obtain ⟨d, hd, hk⟩ := h.session j hj
    obtain rfl : d = e := Option.some.inj (hd.symm.trans he)
    have hlt : d.generation.toNat < (s.teardown now).socket.machine.generation.toNat := by
      rw [hg, hk.current, if_neg Bool.false_ne_true, toNat_succ_generation hb, hk.generation]
      omega
    simp only [hj, if_true]
    split
    next ha => exact ⟨hlt, fun _ _ => ⟨by simp [parting_teardown, hj, ha], hk.leaves ha⟩⟩
    next => exact ⟨hlt, fun _ ha => by simp at ha⟩
  · -- a driver of an earlier session
    have hf := h.former j e he hj
    simp only [hj, if_false]
    refine ⟨?_, fun hfin ha => ?_⟩
    · have := hf.older
      rw [hg]
      split
      · exact this
      · rw [toNat_succ_generation hb]; omega
    · obtain ⟨hp, hl⟩ := hf.leaves hfin ha
      refine ⟨?_, hl⟩
      cases hd : s.driver with
      | none => simp [parting_teardown, hd, hp]
      | some i =>
        obtain ⟨d, -, hk⟩ := h.session i hd
        simp [hk.alone] at hp

/-- What peers and clients do to links does not matter for the drivers. -/
theorem Supervised.modifyLink (h : Supervised s) (link : Nat) {f : Link → Link}
    (hf : ∀ l, (f l).held = true → l.held = true) : Supervised (s.modifyLink link f) where
  session i hi := by
    obtain ⟨d, hd, hk⟩ := h.session i hi
    refine ⟨d, hd, { hk with ended := fun he link hl => ?_ }⟩
    rw [Bool.eq_false_iff]
    intro hheld
    have := isHeld_modifyLink_of hf hheld
    simp [hk.ended he link hl] at this
  idle := h.idle
  former j d hd hj := { h.former j d hd hj with }
  sender_lt link hl := by simpa [Socket.modifyLink] using h.sender_lt link hl

/-- What ends a former driver does not matter for the driver of the session. -/
theorem Supervised.modifyDriver (h : Supervised s) {i : Nat} {f : Driver → Driver}
    (hi : s.driver ≠ some i) (hg : ∀ d, (f d).generation = d.generation)
    (hf : ∀ d, (f d).phase.isFinished = true ∨ (f d).aborted = true) :
    Supervised (s.modifyDriver i f) where
  session k hk := by
    obtain ⟨d, hd, hkeeps⟩ := h.session k hk
    have hik : i ≠ k := fun hik => hi (hik ▸ hk)
    exact ⟨d, by simpa [Socket.modifyDriver, hik] using hd, { hkeeps with }⟩
  idle := h.idle
  former j d hd hj := by
    by_cases hij : i = j
    · subst hij
      simp only [Socket.modifyDriver, List.getElem?_modify_eq, Option.map_eq_map,
        Option.map_eq_some_iff] at hd
      obtain ⟨e, he, rfl⟩ := hd
      refine ⟨by rw [hg]; exact (h.former i e he hi).older, fun hfin ha => ?_⟩
      rcases hf e with hfin' | ha'
      · simp [hfin'] at hfin
      · simp [ha'] at ha
    · have hd : s.drivers[j]? = some d := by simpa [Socket.modifyDriver, hij] using hd
      exact { h.former j d hd hj with }
  sender_lt := h.sender_lt

/-- The driver of the session is neither to end nor limited. -/
theorem Supervised.driver_ne (h : Supervised s) {i : Nat}
    (hi : s.isAborted i = true ∨ ∃ now, s.isReapDue now i = true) : s.driver ≠ some i := by
  intro hd
  obtain ⟨d, hd, hk⟩ := h.session i hd
  rcases hi with ha | ⟨now, hr⟩
  · simp [isAborted_eq hd, hk.running] at ha
  · simp [isReapDue, hd, hk.unlimited] at hr

theorem Supervised.discard (h : Supervised s) {i : Nat} (hi : s.driver ≠ some i) :
    Supervised (s.discard i).socket := by
  unfold Socket.discard
  split
  next link hl =>
    exact (h.modifyLink link (by simp [Link.release])).modifyDriver hi (fun _ => rfl)
      fun _ => .inl rfl
  next => exact h.modifyDriver hi (fun _ => rfl) fun _ => .inl rfl

/-- What can happen to a socket leaves one driver in charge. -/
theorem Supervised.shift {b : Option Bool} {m : Move} (h : Supervised s) (hs : Shift s b m)
    (hb : b.isSome → s.machine.generation.toNat + 1 < UInt64.size) : Supervised m.socket := by
  cases hs with
  | stay => exact h
  | connect hc => exact h.connect hc (hb rfl)
  | teardown now => exact h.teardown now (hb rfl)
  | send => exact h.modifyLink _ (by simp [Link.request])
  | step hm => exact h.step hm
  | discard ha => exact h.discard (h.driver_ne (.inl ha))
  | reap hr =>
    rw [reap_socket]
    exact h.modifyDriver (h.driver_ne (.inr ⟨_, hr⟩)) (fun _ => rfl) fun _ => .inr rfl
  | arrive link item =>
    refine h.modifyLink link fun l hl => ?_
    unfold Link.arrive at hl
    split at hl
    next hheld => exact hheld
    next => exact hl
  | hangUp link => exact h.modifyLink link (by simp [Link.hangUp])

/-- A generation is used up only by what begins or ends a session. -/
theorem Shift.toNat_generation_le {b : Option Bool} {m : Move} (hs : Shift s b m) :
    m.socket.machine.generation.toNat ≤
      s.machine.generation.toNat + if b.isSome then 1 else 0 := by
  have hsucc : (s.machine.generation + 1).toNat ≤ s.machine.generation.toNat + 1 := by
    rw [UInt64.toNat_add, UInt64.toNat_one]
    exact Nat.mod_le _ _
  cases hs with
  | connect hc => rw [connect_of_closed hc]; exact hsucc
  | teardown now =>
    have hg : (s.teardown now).socket.machine.generation =
      if s.machine.tornDown then s.machine.generation else s.machine.generation + 1 := rfl
    rw [hg]
    split
    · exact Nat.le_succ _
    · exact hsucc
  | step hm => exact Nat.le_of_eq (congrArg UInt64.toNat hm.generation_eq.1)
  | discard => unfold Socket.discard; split <;> exact Nat.le_refl _
  | _ => exact Nat.le_refl _

/-- A session lasts as long as it has a driver. -/
theorem Shift.isSome_driver {b : Option Bool} {m : Move} (hs : Shift s b m) :
    m.socket.driver.isSome = b.getD s.driver.isSome := by
  cases hs with
  | connect hc => rw [connect_of_closed hc]; rfl
  | step hm => rw [hm.slots.1]; rfl
  | discard => unfold Socket.discard; split <;> rfl
  | _ => rfl

end Operation

end TwinLink.Socket
