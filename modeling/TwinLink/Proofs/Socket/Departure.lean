import TwinLink.Proofs.Socket.Retirement

/-! How long a driver goes on without the session. A teardown either ends it or releases it and
sets it a limit, and no shift takes the limit back: from then on the driver has finished, is to
end, or is aborted when the limit is reached. The links that a socket had at a teardown stay with
the drivers that it had, so what holds of these drivers holds of the links. -/

namespace TwinLink.Socket

/-- The link on which something is moved in or out. -/
def Happening.moved? : Happening → Option Nat
  | read link _ | write link .. => some link
  | _ => none

theorem Phase.isFinished_of_link? {p : Phase} {link : Nat} (h : p.link? = some link) :
    p.isFinished = false := by
  cases p <;> first | rfl | cases h

/-- Halves that are held are in the hands of a driver, and a driver has a link that there is. -/
structure Owned (s : Socket) : Prop where
  held : ∀ link, s.isHeld link = true → ∃ j, (s.phase j).link? = some link
  lt : ∀ j link, (s.phase j).link? = some link → link < s.links.length

/-- A driver that goes on without the session was released, by itself and for a limited time. -/
structure Tended (now : Nat) (s : Socket) : Prop where
  alone : ∀ i, s.driver = some i → s.parting = none
  limited : ∀ j d, s.drivers[j]? = some d → d.phase.isFinished = false → s.driver ≠ some j →
    d.aborted = true ∨ s.parting = some j ∧ ∃ t ≤ now + reapLimit, d.reapAt = some t

/-- Every driver below `n` that has not finished is to end. -/
def Ousted (n : Nat) (s : Socket) : Prop :=
  ∀ j d, s.drivers[j]? = some d → j < n → d.phase.isFinished = false → d.aborted = true

/-- The first `n` drivers of a socket and its first `m` links are left to themselves, at most
until `deadline`. -/
structure Departing (n m deadline now : Nat) (s : Socket) : Prop where
  drivers_le : n ≤ s.drivers.length
  links_le : m ≤ s.links.length
  former : ∀ j < n, s.driver ≠ some j
  owner : ∀ j link, (s.phase j).link? = some link → link < m → j < n
  limited : ∀ j d, s.drivers[j]? = some d → j < n → d.phase.isFinished = false →
    now ≤ deadline ∧ (d.aborted = true ∨ ∃ t ≤ deadline, d.reapAt = some t)

section Shift

variable {s : Socket} {b : Option Bool} {m : Move} {now i j link : Nat} {d : Driver}

theorem Stepped.moved (hs : Stepped now i s m) {h : Happening} (hm : h ∈ m.seen)
    (hl : h.moved? = some link) : (s.phase i).link? = some link := by
  have hlogs {seen : List Happening} (hr : Logs seen) : h ∉ seen := by
    apply hr.not_mem
    rintro record rfl
    cases hl
  cases hs with
  | read hp | write hp =>
    cases List.mem_singleton.mp hm
    cases hl
    rw [hp]
    rfl
  | readLast hp _ _ _ hr =>
    rcases List.mem_append.mp hm with hm | hm
    · rcases List.mem_cons.mp hm with rfl | hm
      · cases hl
        rw [hp]
        rfl
      · exact absurd hm (hlogs hr)
    · cases List.mem_singleton.mp hm
      cases hl
  | unwritten _ hr =>
    rcases List.mem_append.mp hm with hm | hm
    · exact absurd hm (hlogs hr)
    · cases List.mem_singleton.mp hm
      cases hl
  | dismissed =>
    rcases List.mem_append.mp hm with hm | hm <;>
      (cases List.mem_singleton.mp hm; cases hl)
  | closed _ _ hr =>
    rcases List.mem_cons.mp hm with rfl | hm
    · cases hl
    · exact absurd hm (hlogs hr)
  | unannounced | written | outdated | retried | cancelled => cases hm
  | _ =>
    cases List.mem_singleton.mp hm
    cases hl

theorem getElem?_discard (s : Socket) (i j : Nat) : (s.discard i).socket.drivers[j]? =
    s.drivers[j]?.map fun d => if i = j then { d with phase := .finished } else d := by
  have h (t : Socket) (ht : t.drivers = s.drivers) : (t.setPhase i .finished).drivers[j]? =
      s.drivers[j]?.map fun d => if i = j then { d with phase := .finished } else d := by
    by_cases hij : i = j
    · subst hij
      simp [setPhase, modifyDriver, ht]
    · simp [setPhase, modifyDriver, ht, hij]
  unfold discard
  split
  · exact h _ rfl
  · exact h _ rfl

/-- What becomes of a driver that does not have the session: it goes on as it did, or is to end. -/
theorem Shift.former (hs : Shift s b m) (hj : j < s.drivers.length)
    (hd : m.socket.drivers[j]? = some d) (hf : d.phase.isFinished = false) :
    ∃ c, s.drivers[j]? = some c ∧ c.phase.isFinished = false ∧
      (d.aborted = true ∨ d.aborted = c.aborted ∧ d.reapAt = c.reapAt ∨ s.driver = some j) := by
  have hsame (h : m.socket.drivers[j]? = s.drivers[j]?) : ∃ c, s.drivers[j]? = some c ∧
      c.phase.isFinished = false ∧
      (d.aborted = true ∨ d.aborted = c.aborted ∧ d.reapAt = c.reapAt ∨ s.driver = some j) :=
    ⟨d, h ▸ hd, hf, .inr (.inl ⟨rfl, rfl⟩)⟩
  cases hs with
  | stay | arrive | hangUp | send => exact hsame rfl
  | connect hc =>
    rw [connect_of_closed hc] at hd
    simp only [Move.silent] at hd
    rw [List.getElem?_append_left (by rwa [length_endDrivers]), getElem?_endDrivers] at hd
    obtain ⟨c, hc, rfl⟩ := Option.map_eq_some_iff.mp hd
    refine ⟨c, hc, ?_, ?_⟩
    · split at hf <;> exact hf
    · split
      · exact .inl rfl
      · exact .inr (.inl ⟨rfl, rfl⟩)
  | teardown now =>
    rw [getElem?_teardown] at hd
    obtain ⟨c, hc, rfl⟩ := Option.map_eq_some_iff.mp hd
    refine ⟨c, hc, ?_, ?_⟩
    · split at hf
      · split at hf <;> exact hf
      · exact hf
    · split
      · next h => exact .inr (.inr h)
      · exact .inr (.inl ⟨rfl, rfl⟩)
  | @step now i _ hm =>
    by_cases hij : i = j
    · subst hij
      obtain ⟨c, hc⟩ := hm.exists_driver
      rw [hm.getElem?_self hc] at hd
      cases hd
      refine ⟨c, hc, ?_, .inr (.inl ⟨rfl, rfl⟩)⟩
      have hne := hm.phase_ne
      rw [phase_eq hc] at hne
      cases hp : c.phase <;> first | rfl | exact absurd hp hne
    · exact hsame (hm.getElem?_other hij)
  | @discard i =>
    rw [getElem?_discard] at hd
    obtain ⟨c, hc, rfl⟩ := Option.map_eq_some_iff.mp hd
    by_cases hij : i = j
    · rw [if_pos hij] at hf
      cases hf
    · rw [if_neg hij] at hf ⊢
      exact ⟨c, hc, hf, .inr (.inl ⟨rfl, rfl⟩)⟩
  | @reap now i =>
    rw [reap_socket] at hd
    by_cases hij : i = j
    · subst hij
      simp only [modifyDriver, List.getElem?_modify_eq] at hd
      obtain ⟨c, hc, rfl⟩ := Option.map_eq_some_iff.mp hd
      exact ⟨c, hc, hf, .inl rfl⟩
    · simp only [modifyDriver] at hd
      rw [List.getElem?_modify_ne _ _ hij] at hd
      exact ⟨d, hd, hf, .inr (.inl ⟨rfl, rfl⟩)⟩

/-- At most one driver gets a link or releases the one that it has. -/
theorem Shift.grip (hs : Shift s b m) : ∃ i, Grip s m.socket i ∧
    ∀ j, i ≠ j → (m.socket.phase j).link? = (s.phase j).link? := by
  have hsame {t : Socket} (hp : ∀ j, (t.phase j).link? = (s.phase j).link?)
      (hh : ∀ link, t.isHeld link = s.isHeld link) :
      ∃ i, Grip s t i ∧ ∀ j, i ≠ j → (t.phase j).link? = (s.phase j).link? :=
    ⟨0, .same (hp 0) hh, fun j _ => hp j⟩
  cases hs with
  | stay => exact hsame (fun _ => rfl) fun _ => rfl
  | connect hc =>
    refine hsame (fun j => ?_) fun link => ?_
    · rcases phase_connect hc j with hj | ⟨hj, hp⟩
      · rw [hj]
      · rw [hj, hp]
        rfl
    · rw [connect_of_closed hc]
      rfl
  | teardown now => exact hsame (fun j => by rw [phase_teardown]) (isHeld_teardown now s)
  | send => exact hsame (fun _ => rfl) (isHeld_modifyLink s _ fun _ => by rfl)
  | @step now i _ hm => exact ⟨i, hm.grip, fun j hij => by rw [hm.phase_other hij]⟩
  | @discard i => exact ⟨i, grip_discard s i, fun j hij => by rw [phase_discard, if_neg hij]⟩
  | @reap now i =>
    rw [reap_socket]
    exact hsame (fun j => by rw [phase_modifyDriver s i fun _ => by rfl]) fun _ => rfl
  | arrive link item =>
    refine hsame (fun _ => rfl) (isHeld_modifyLink s _ fun l => ?_)
    unfold Link.arrive
    split <;> rfl
  | hangUp link => exact hsame (fun _ => rfl) (isHeld_modifyLink s _ fun _ => by rfl)

/-- A driver has the link that it had, or the one that is new. -/
theorem Shift.link?_of (hs : Shift s b m) (hl : (m.socket.phase j).link? = some link) :
    (s.phase j).link? = some link ∨ link = s.links.length ∧ m.socket.isHeld link = true := by
  obtain ⟨i, hg, hother⟩ := hs.grip
  by_cases hij : i = j
  · subst hij
    cases hg with
    | same hp => exact .inl (hp ▸ hl)
    | take _ hp hh =>
      obtain rfl := Option.some.inj (hl.symm.trans hp)
      exact .inr ⟨rfl, by simp [hh]⟩
    | drop _ hp =>
      rw [hp] at hl
      cases hl
  · exact .inl (hother j hij ▸ hl)

/-- A link that has been released is not held again. -/
theorem Shift.isHeld_of (hs : Shift s b m) (hlt : link < s.links.length)
    (hm : m.socket.isHeld link = true) : s.isHeld link = true := by
  obtain ⟨i, hg, -⟩ := hs.grip
  cases hg with
  | same _ hh => exact hh link ▸ hm
  | take _ _ hh =>
    rw [hh, Bool.or_eq_true, decide_eq_true_eq] at hm
    exact hm.resolve_right (Nat.ne_of_lt hlt)
  | drop _ _ hh =>
    rw [hh, Bool.and_eq_true] at hm
    exact hm.1

theorem Shift.length_links_le (hs : Shift s b m) : s.links.length ≤ m.socket.links.length := by
  cases hs with
  | connect hc =>
    rw [connect_of_closed hc]
    exact Nat.le_refl _
  | teardown now => exact Nat.le_of_eq (length_links_teardown now s).symm
  | step hm => exact hm.length_links_le
  | discard =>
    unfold Socket.discard
    split <;> simp [setPhase, modifyDriver, modifyLink, Move.silent]
  | reap => simp [reap_socket, modifyDriver]
  | _ => simp [Move.silent, Socket.arrive, Socket.hangUp, modifyLink]

theorem Owned.shift (h : Owned s) (hs : Shift s b m) : Owned m.socket where
  held link hl := by
    obtain ⟨i, hg, hother⟩ := hs.grip
    -- the driver that is concerned has the new link, and no longer the one that it drops
    cases hg with
    | same hp hh =>
      obtain ⟨j, hj⟩ := h.held link (hh link ▸ hl)
      by_cases hij : i = j
      · exact ⟨i, by rw [hp, hij, hj]⟩
      · exact ⟨j, by rw [hother j hij, hj]⟩
    | take hn hp hh =>
      rw [hh, Bool.or_eq_true, decide_eq_true_eq] at hl
      rcases hl with hl | rfl
      · obtain ⟨j, hj⟩ := h.held link hl
        have hij : i ≠ j := by
          rintro rfl
          rw [hn] at hj
          cases hj
        exact ⟨j, by rw [hother j hij, hj]⟩
      · exact ⟨i, hp⟩
    | @drop l hl' hp hh =>
      rw [hh, Bool.and_eq_true, decide_eq_true_eq] at hl
      obtain ⟨j, hj⟩ := h.held link hl.1
      have hij : i ≠ j := by
        rintro rfl
        exact hl.2 (Option.some.inj (hj.symm.trans hl'))
      exact ⟨j, by rw [hother j hij, hj]⟩
  lt j link hl := by
    rcases hs.link?_of hl with hl | ⟨-, hheld⟩
    · exact Nat.lt_of_lt_of_le (h.lt j link hl) hs.length_links_le
    · exact lt_of_isHeld hheld

/-! ### What is kept -/

variable {n k deadline : Nat}

theorem tended_ofSettings (settings : Settings) (script : List (Reply Answer)) :
    Tended now (ofSettings settings script) where
  alone i h := by cases h
  limited j d h := by cases h

theorem owned_ofSettings (settings : Settings) (script : List (Reply Answer)) :
    Owned (ofSettings settings script) where
  held link h := by cases h
  lt j link h := by cases h

theorem Tended.mono (h : Tended now s) {later : Nat} (hle : now ≤ later) : Tended later s where
  alone := h.alone
  limited j d hd hf hn := by
    rcases h.limited j d hd hf hn with ha | ⟨hp, t, ht, hr⟩
    · exact .inl ha
    · exact .inr ⟨hp, t, by omega, hr⟩

/-- What no session is begun or ended by keeps who has it and who was released. -/
theorem Shift.slots (hs : Shift s none m) :
    m.socket.driver = s.driver ∧ m.socket.parting = s.parting := by
  cases hs with
  | step hm => exact hm.slots
  | discard =>
    unfold Socket.discard
    split <;> exact ⟨rfl, rfl⟩
  | reap => exact ⟨rfl, rfl⟩
  | _ => exact ⟨rfl, rfl⟩

theorem Shift.length_drivers (hs : Shift s none m) :
    m.socket.drivers.length = s.drivers.length := by
  cases hs with
  | step hm =>
    obtain ⟨p, hp⟩ := hm.exists_phase
    rw [hp, List.length_modify]
  | discard =>
    unfold Socket.discard
    split <;> simp [setPhase, modifyDriver, modifyLink, Move.silent]
  | reap => simp [reap_socket, modifyDriver]
  | _ => rfl

theorem Tended.quiet (h : Tended now s) (hs : Shift s none m) : Tended now m.socket where
  alone i hi := by
    obtain ⟨hdriver, hparting⟩ := hs.slots
    rw [hparting]
    exact h.alone i (hdriver ▸ hi)
  limited j d hd hf hn := by
    obtain ⟨hdriver, hparting⟩ := hs.slots
    rw [hdriver] at hn
    have hj : j < s.drivers.length := by
      rw [← hs.length_drivers]
      exact (List.getElem?_eq_some_iff.mp hd).1
    obtain ⟨c, hc, hcf, ha | ⟨ha, hr⟩ | hi⟩ := hs.former hj hd hf
    · exact .inl ha
    · rw [ha, hr, hparting]
      exact h.limited j c hc hcf hn
    · exact absurd hi hn

/-- Whoever goes on when a session is begun, or is released before, is to end. -/
theorem Tended.ousted (h : Tended now s) (hc : s.state = .closed) :
    Ousted s.drivers.length s.connect.socket := by
  intro j d hd hj hf
  rw [connect_of_closed hc] at hd
  simp only [Move.silent] at hd
  rw [List.getElem?_append_left (by rwa [length_endDrivers]), getElem?_endDrivers] at hd
  obtain ⟨c, hc, rfl⟩ := Option.map_eq_some_iff.mp hd
  split
  · rfl
  · next hn =>
    rw [if_neg hn] at hf
    rcases h.limited j c hc hf fun hi => hn (.inl hi) with ha | ⟨hp, -⟩
    · exact ha
    · exact absurd (.inr hp) hn

theorem Tended.connect (h : Tended now s) (hc : s.state = .closed) :
    Tended now s.connect.socket where
  alone i _ := by
    rw [connect_of_closed hc]
    rfl
  limited j d hd hf hn := by
    left
    refine h.ousted hc j d hd ?_ hf
    -- any other driver is the one that has just come
    have hlt := (List.getElem?_eq_some_iff.mp hd).1
    rw [connect_of_closed hc] at hlt hn
    simp only [Move.silent, List.length_append, List.length_singleton, length_endDrivers] at hlt hn
    have hne : s.drivers.length ≠ j := fun hne => hn (congrArg some hne)
    omega

/-- A teardown releases the driver of the session for a limited time, or ends it. -/
theorem Tended.teardown (h : Tended now s) : Tended now (s.teardown now).socket where
  alone i hi := by cases hi
  limited j d hd hf _ := by
    rw [getElem?_teardown] at hd
    obtain ⟨c, hc, rfl⟩ := Option.map_eq_some_iff.mp hd
    rw [parting_teardown]
    by_cases hj : s.driver = some j
    · rw [if_pos hj]
      by_cases ha : (s.sender.filter s.isHeld).isSome
      · rw [if_pos ha, if_pos ⟨ha, by rw [hj]; rfl⟩]
        exact .inr ⟨hj, _, Nat.le_refl _, rfl⟩
      · rw [if_neg ha]
        exact .inl rfl
    · rw [if_neg hj] at hf ⊢
      rcases h.limited j c hc hf hj with ha | ⟨hp, t, ht, hr⟩
      · exact .inl ha
      · -- while a session lasts none has been released
        have hnone : ¬ ((s.sender.filter s.isHeld).isSome ∧ s.driver.isSome) := by
          rintro ⟨-, hi⟩
          obtain ⟨i, hi⟩ := Option.isSome_iff_exists.mp hi
          rw [h.alone i hi] at hp
          cases hp
        rw [if_neg hnone]
        exact .inr ⟨hp, t, ht, hr⟩

theorem Tended.shift (h : Tended now s) (hs : Shift s b m)
    (hd : b = some false → m.socket = (s.teardown now).socket) : Tended now m.socket := by
  cases b with
  | none => exact h.quiet hs
  | some b =>
    cases b with
    | true =>
      cases hs with
      | connect hc => exact h.connect hc
    | false =>
      rw [hd rfl]
      exact h.teardown

/-- After a teardown the links that there were are left to the drivers that there were. -/
theorem Tended.departing (h : Tended now s) : Departing s.drivers.length s.links.length
    (now + reapLimit) now (s.teardown now).socket where
  drivers_le := (Shift.teardown now).length_drivers_le
  links_le := (Shift.teardown now).length_links_le
  former j _ hj := by cases hj
  owner j link hl _ := by
    rw [phase_teardown] at hl
    exact lt_length_of_phase (Phase.isFinished_of_link? hl)
  limited j d hd _ hf := by
    refine ⟨Nat.le_add_right .., ?_⟩
    rcases h.teardown.limited j d hd hf (by intro hj; cases hj) with ha | ⟨-, t, ht, hr⟩
    · exact .inl ha
    · exact .inr ⟨t, ht, hr⟩

theorem Departing.shift (h : Departing n k deadline now s) (hs : Shift s b m) :
    Departing n k deadline now m.socket where
  drivers_le := Nat.le_trans h.drivers_le hs.length_drivers_le
  links_le := Nat.le_trans h.links_le hs.length_links_le
  former j hj := by
    have hne := h.former j hj
    cases b with
    | none =>
      rw [hs.slots.1]
      exact hne
    | some b =>
      cases hs with
      | connect hc =>
        rw [connect_of_closed hc]
        have hle := h.drivers_le
        simp only [Move.silent, length_endDrivers]
        intro heq
        have := Option.some.inj heq
        omega
      | teardown => exact fun hi => by cases hi
  owner j link hl hlt := by
    rcases hs.link?_of hl with hl | ⟨rfl, -⟩
    · exact h.owner j link hl hlt
    · exact absurd hlt (Nat.not_lt.mpr h.links_le)
  limited j d hd hj hf := by
    obtain ⟨c, hc, hcf, ha⟩ := hs.former (Nat.lt_of_lt_of_le hj h.drivers_le) hd hf
    obtain ⟨hnow, hlimit⟩ := h.limited j c hc hj hcf
    refine ⟨hnow, ?_⟩
    rcases ha with ha | ⟨ha, hr⟩ | hi
    · exact .inl ha
    · rw [ha, hr]
      exact hlimit
    · exact absurd hi (h.former j hj)

/-- Drivers that are to end stay so, whoever has the session. -/
theorem Ousted.shift (h : Ousted n s) (hf : ∀ j < n, s.driver ≠ some j)
    (hn : n ≤ s.drivers.length) (hs : Shift s b m) : Ousted n m.socket := by
  intro j d hd hj hfin
  obtain ⟨c, hc, hcf, ha⟩ := hs.former (Nat.lt_of_lt_of_le hj hn) hd hfin
  rcases ha with ha | ⟨ha, -⟩ | hi
  · exact ha
  · rw [ha]
    exact h j c hc hj hcf
  · exact absurd hi (hf j hj)

/-- When a session is begun, the deadline of those that are left is at once. -/
theorem Departing.oust (h : Departing n k deadline now s) (ho : Ousted n s) :
    Departing n k now now s where
  drivers_le := h.drivers_le
  links_le := h.links_le
  former := h.former
  owner := h.owner
  limited j d hd hj hf := ⟨Nat.le_refl _, .inl (ho j d hd hj hf)⟩

/-- What is known of a driver while nothing can go on. -/
theorem of_isSettled (hs : s.isSettled now = true) (hd : s.drivers[j]? = some d)
    (hf : d.phase.isFinished = false) :
    d.aborted = false ∧ s.step now false j = none ∧ ∀ t, d.reapAt = some t → now < t := by
  have hj : j ∈ List.range s.drivers.length :=
    List.mem_range.mpr (List.getElem?_eq_some_iff.mp hd).1
  have hrun := List.all_eq_true.mp hs j hj
  simp only [canRun, isReapDue, phase_eq hd, isAborted_eq hd, hd, hf, Option.bind_some,
    Bool.not_false, Bool.true_and, Bool.and_eq_true, Bool.not_eq_true', Bool.or_eq_false_iff,
    Option.isSome_eq_false_iff, Option.isNone_iff_eq_none] at hrun
  obtain ⟨⟨ha, hstep⟩, hreap⟩ := hrun
  refine ⟨ha, hstep, fun t ht => ?_⟩
  rw [ht] at hreap
  simpa using hreap

theorem mem_dues (hd : s.drivers[j]? = some d) (hf : d.phase.isFinished = false) {t : Nat}
    (ht : d.phase.due? = some t ∨ d.reapAt = some t) : t ∈ s.dues := by
  apply List.mem_flatMap.mpr
  refine ⟨d, List.mem_of_getElem? hd, ?_⟩
  rcases ht with ht | ht <;> simp [hf, ht]

/-- Time passes up to the deadline, and further once all have finished. -/
theorem Departing.elapse (h : Departing n k deadline now s) {ms : Nat}
    (hs : s.isSettled now = true) (hdues : ∀ due ∈ s.dues, now < due → now + ms ≤ due) :
    Departing n k deadline (now + ms) s where
  drivers_le := h.drivers_le
  links_le := h.links_le
  former := h.former
  owner := h.owner
  limited j d hd hj hf := by
    obtain ⟨-, hlimit⟩ := h.limited j d hd hj hf
    obtain ⟨ha, -, hreap⟩ := of_isSettled hs hd hf
    refine ⟨?_, hlimit⟩
    rcases hlimit with hb | ⟨t, ht, hr⟩
    · rw [ha] at hb
      cases hb
    · exact Nat.le_trans (hdues t (mem_dues hd hf (.inr hr)) (hreap t hr)) ht

/-- Behind the deadline, or at it once nothing can go on, all have finished. -/
theorem Departing.finished (h : Departing n k deadline now s)
    (hnow : deadline < now ∨ deadline ≤ now ∧ s.isSettled now = true) (hj : j < n) :
    (s.phase j).isFinished = true := by
  cases hd : s.drivers[j]? with
  | none => simp [phase, hd, Phase.isFinished]
  | some d =>
    rw [phase_eq hd]
    cases hf : d.phase.isFinished with
    | true => rfl
    | false =>
      obtain ⟨hle, hlimit⟩ := h.limited j d hd hj hf
      rcases hnow with hlt | ⟨hge, hs⟩
      · omega
      · obtain ⟨ha, -, hreap⟩ := of_isSettled hs hd hf
        rcases hlimit with hb | ⟨t, ht, hr⟩
        · rw [ha] at hb
          cases hb
        · have := hreap t hr
          omega

/-- And the links are released. -/
theorem Departing.released (h : Departing n k deadline now s) (ho : Owned s)
    (hf : ∀ j < n, (s.phase j).isFinished = true) (hl : link < k) : s.isHeld link = false := by
  rw [Bool.eq_false_iff]
  intro hheld
  obtain ⟨j, hj⟩ := ho.held link hheld
  have hfin := hf j (h.owner j link hj hl)
  rw [Phase.isFinished_of_link? hj] at hfin
  cases hfin

/-- What is moved on a link that is left to its driver is moved before the deadline. -/
theorem Departing.moved (h : Departing n k deadline now s) (hl : (s.phase i).link? = some link)
    (hlt : link < k) : now ≤ deadline ∧ i < n := by
  have hi := h.owner i link hl hlt
  have hf := Phase.isFinished_of_link? hl
  obtain ⟨d, hd⟩ := exists_driver (s := s) (i := i) fun hp => by rw [hp] at hf; cases hf
  rw [phase_eq hd] at hf
  exact ⟨(h.limited i d hd hi hf).1, hi⟩

/-! ### A link that is left -/

/-- A link on which nothing is moved any more has been released, or its driver waits for it to
close, at most until `deadline`. -/
structure Left (link deadline now : Nat) (s : Socket) : Prop where
  lt : link < s.links.length
  closing : s.isHeld link = true → now ≤ deadline ∧
    ∃ j answer t, s.phase j = .closing link answer t ∧ t ≤ deadline

/-- A driver that moves no more frames closes its link. -/
theorem Stepped.closing (hs : Stepped now i s m) (hp : (s.phase i).open? = some link)
    (hm : (m.socket.phase i).open? ≠ some link) : ∃ answer,
      m.socket.phase i = .closing link answer (now + closeLimit) := by
  obtain ⟨d, hd⟩ := hs.exists_driver
  have hset {t : Socket} (ht : t.drivers = s.drivers) (p : Phase) :
      (t.setPhase i p).phase i = p := by
    simp [phase, setPhase, modifyDriver, ht, hd]
  have hstay {t : Socket} (ht : t.drivers = s.drivers) {p : Phase} (hp : p.open? = some link) :
      ((t.setPhase i p).phase i).open? = some link := by
    rw [hset ht, hp]
  cases hs
  case readLast h _ _ _ _ | exhausted h _ _ | dismissed h _ _ | unwritten h _ =>
    rw [h] at hp
    cases hp
    exact ⟨_, hset rfl _⟩
  case announced h _ _ _ | unannounced h _ | write h _ _ | written h =>
    rw [h] at hp
    cases hp
    exact absurd (hstay rfl rfl) hm
  case read => exact absurd hp hm
  all_goals simp_all [Phase.open?]

/-- A driver that waits for its link to close goes on to do so until the link is released. -/
theorem Shift.closing (hs : Shift s b m) {answer : Option (Nat × Unit)} {t : Nat}
    (hp : s.phase j = .closing link answer t) :
    m.socket.phase j = .closing link answer t ∨ m.socket.isHeld link = false := by
  cases hs with
  | stay | arrive | hangUp | send => exact .inl hp
  | connect hc =>
    rcases phase_connect hc j with hj | ⟨-, hj⟩
    · exact .inl (hj.trans hp)
    · rw [hj] at hp
      cases hp
  | teardown now => exact .inl ((phase_teardown now s j).trans hp)
  | @step now i _ hm =>
    by_cases hij : i = j
    · subst hij
      cases hm with
      | release h =>
        rw [h] at hp
        cases hp
        exact .inr (isHeld_release s link)
      | _ => simp_all
    · exact .inl ((hm.phase_other hij).trans hp)
  | @discard i =>
    by_cases hij : i = j
    · subst hij
      right
      simp only [Socket.discard, hp, Phase.link?]
      exact isHeld_release s link
    · rw [phase_discard, if_neg hij]
      exact .inl hp
  | @reap now i =>
    rw [reap_socket, phase_modifyDriver s i fun _ => by rfl]
    exact .inl hp

theorem Left.shift (h : Left link deadline now s) (hs : Shift s b m) :
    Left link deadline now m.socket where
  lt := Nat.lt_of_lt_of_le h.lt hs.length_links_le
  closing hheld := by
    obtain ⟨hnow, j, answer, t, hp, ht⟩ := h.closing (hs.isHeld_of h.lt hheld)
    rcases hs.closing hp with hj | hn
    · exact ⟨hnow, j, answer, t, hj, ht⟩
    · rw [hn] at hheld
      cases hheld

/-- What is not there yet is due later, at the deadline if not before. -/
theorem lt_due_of_settled {α : Type} {answer : Option (Nat × α)} {deadline : Nat}
    (h : settled now answer deadline = none) :
    now < answer.elim deadline fun a => min a.1 deadline := by
  cases answer with
  | none =>
    simp only [settled] at h
    split at h
    · cases h
    · exact Nat.lt_of_not_le ‹_›
  | some a =>
    simp only [settled] at h
    split at h
    · cases h
    · split at h
      · cases h
      · simp only [Option.elim]
        omega

/-- While nothing can go on, a driver that waits for its link to close has something due. -/
theorem of_closing (hs : s.isSettled now = true) {answer : Option (Nat × Unit)} {t : Nat}
    (hp : s.phase j = .closing link answer t) :
    now < answer.elim t (fun a => min a.1 t) ∧ answer.elim t (fun a => min a.1 t) ∈ s.dues := by
  obtain ⟨d, hd⟩ := exists_driver (s := s) (i := j) fun h => by rw [h] at hp; cases hp
  have hphase : d.phase = .closing link answer t := by rw [← phase_eq hd, hp]
  have hf : d.phase.isFinished = false := by rw [hphase]; rfl
  obtain ⟨-, hstep, -⟩ := of_isSettled hs hd hf
  simp only [step, hp, Option.map_eq_none_iff] at hstep
  exact ⟨lt_due_of_settled hstep, mem_dues hd hf (.inl (by rw [hphase]; rfl))⟩

/-- Time passes up to the deadline, and further once the link is released. -/
theorem Left.elapse (h : Left link deadline now s) {ms : Nat} (hs : s.isSettled now = true)
    (hdues : ∀ due ∈ s.dues, now < due → now + ms ≤ due) :
    Left link deadline (now + ms) s where
  lt := h.lt
  closing hheld := by
    obtain ⟨-, j, answer, t, hp, ht⟩ := h.closing hheld
    obtain ⟨hlt, hdue⟩ := of_closing hs hp
    have hle := hdues _ hdue hlt
    exact ⟨Nat.le_trans hle (by cases answer <;> simp <;> omega), j, answer, t, hp, ht⟩

/-- Behind the deadline, or at it once nothing can go on, the link is released. -/
theorem Left.released (h : Left link deadline now s)
    (hnow : deadline < now ∨ deadline ≤ now ∧ s.isSettled now = true) :
    s.isHeld link = false := by
  rw [Bool.eq_false_iff]
  intro hheld
  obtain ⟨hle, j, answer, t, hp, ht⟩ := h.closing hheld
  rcases hnow with hlt | ⟨hge, hs⟩
  · omega
  · have hlt := (of_closing hs hp).1
    cases answer <;> simp only [Option.elim] at hlt <;> omega

end Shift

end TwinLink.Socket
