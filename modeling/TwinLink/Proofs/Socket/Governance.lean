import TwinLink.Proofs.Socket.Custody

/-! Who is in charge of a socket. While a session lasts it is one driver, which stands where
the machine is and has a retry pending whenever the channel is closed. Otherwise at most one
driver goes on, to finish the link that it has been asked to close. -/

namespace TwinLink.Socket

/-- A retry is pending: the driver `i` has scheduled it or waits for it, and when the time has
come the machine accepts it. -/
inductive Armed (s : Socket) (i : Nat) : Prop where
  | scheduled {delay : Duration} (h : s.phase i = .retiring delay)
      (next : ∀ now b, ∃ m, s.step now b i = some m ∧ m.socket.machine = s.machine ∧
        m.socket.phase i = .waiting (now + delay.ticks))
  | waiting {due : Nat} (h : s.phase i = .waiting due)
      (next : ∀ now b, due ≤ now → ∃ m, s.step now b i = some m ∧
        m.socket.state = .connecting ∧ m.socket.phase i = .queued)

/-- The driver `i` has the session of a socket, and no other driver goes on. -/
structure InCharge (s : Socket) (i : Nat) : Prop where
  current : s.machine.isCurrent (s.generation i) = true
  up : s.isUp i = true
  alone : ∀ j, s.isUp j = true → j = i
  stands : (s.phase i).Stands s.state
  armed : s.state = .closed → Armed s i

/-- The driver `i` of an ended session finishes its link: it was released for that and writes
what was queued before it closes the link. -/
structure Finishing (s : Socket) (i : Nat) : Prop where
  released : s.parting = some i
  leaves : (s.phase i).Leaves
  asked : ∀ link, (s.phase i).open? = some link →
    ∃ texts : List String, s.requests link = texts.map .text ++ [.close]

/-- A session has begun: the drivers that a socket had are to end, and a new one has the
session. -/
structure Renewed (s t : Socket) : Prop where
  state : t.state = .connecting
  generation : t.machine.generation = s.machine.generation + 1
  current : t.machine.isCurrent (t.generation s.drivers.length) = true
  up : ∀ j, t.isUp j = true ↔ j = s.drivers.length
  links : t.links = s.links

/-- A link is held by a driver that has not been aborted. -/
def isLive (s : Socket) (link : Nat) : Prop :=
  ∃ i, (s.phase i).link? = some link ∧ s.isAborted i = false

/-- Who is in charge of a socket, while a session lasts and when there is none. -/
structure Governed (s : Socket) (session : Bool) : Prop where
  charge : session = true → ∃ i, InCharge s i
  finishing : session = false → s.state = .closed ∧ ∀ i, s.isUp i = true → Finishing s i
  alone : ∀ i j, s.isUp i = true → s.isUp j = true → i = j
  held : ∀ link, s.isHeld link = true ↔ ∃ i, (s.phase i).link? = some link
  single : ∀ a b, s.isLive a → s.isLive b → a = b
  /-- Opening a channel that is connecting or open changes nothing. -/
  ignored : s.state ≠ .closed → s.connect = .silent s
  renewed : s.state = .closed → Renewed s s.connect.socket
  /-- A second teardown changes nothing. -/
  ended : ∀ now now', (s.teardown now).socket.teardown now' = .silent (s.teardown now).socket

section

variable {s : Socket} {i j : Nat} {d : Driver}

theorem isUp_iff : s.isUp i = true ↔
    ∃ d, s.drivers[i]? = some d ∧ d.phase.isFinished = false ∧ d.aborted = false := by
  cases hd : s.drivers[i]? <;> simp [isUp, phase, isAborted, hd, Phase.isFinished]

theorem Supervised.released (h : Supervised s) (hi : s.isUp i = true) (hd : s.driver ≠ some i) :
    s.parting = some i ∧ (s.phase i).Leaves := by
  obtain ⟨d, hdi, hf, ha⟩ := isUp_iff.mp hi
  rw [phase_eq hdi]
  exact (h.former i d hdi hd).leaves hf ha

theorem Keeps.isUp (h : Keeps s d) (hd : s.drivers[i]? = some d) : s.isUp i = true := by
  refine isUp_iff.mpr ⟨d, hd, ?_, h.running⟩
  have hs := h.stands
  cases hp : d.phase <;> simp_all [Phase.Stands, Phase.isFinished]

/-- Besides the driver of the session no driver goes on. -/
theorem Supervised.up_unique (h : Supervised s) (hi : s.driver = some i) (hj : s.isUp j = true) :
    j = i := by
  obtain ⟨d, -, hk⟩ := h.session i hi
  by_cases hji : s.driver = some j
  · exact Option.some.inj (hji.symm.trans hi)
  · have := (h.released hj hji).1
    rw [hk.alone] at this
    cases this

theorem Supervised.alone (h : Supervised s) (hi : s.isUp i = true) (hj : s.isUp j = true) :
    i = j := by
  cases hd : s.driver with
  | some k => exact (h.up_unique hd hi).trans (h.up_unique hd hj).symm
  | none =>
    have hi := (h.released hi (by simp [hd])).1
    exact Option.some.inj (hi.symm.trans (h.released hj (by simp [hd])).1)

theorem Keeps.armed (h : Keeps s d) (hd : s.drivers[i]? = some d) (hs : s.state = .closed) :
    Armed s i := by
  have hstands := h.stands
  have hc := h.isCurrent hd
  rw [hs] at hstands
  have hp := phase_eq hd
  cases hph : d.phase with
  | retiring delay =>
    rw [hph] at hp
    refine .scheduled hp fun now b => ⟨s.rest now i delay, by simp [Socket.step, hp], rfl, ?_⟩
    simp [Socket.rest, phase, setPhase, modifyDriver, hd]
  | waiting due =>
    rw [hph] at hp
    refine .waiting hp fun now b hdue => ⟨s.retry i, by simp [Socket.step, hp, hdue], ?_⟩
    have hm := Machine.onRetry_eq_some.mpr ⟨hc, hs, rfl⟩
    rw [Socket.generation] at hm
    simp only [retry, hm]
    simp [Move.silent, state, phase, setPhase, modifyDriver, hd]
  | _ => simp [hph, Phase.Stands] at hstands

theorem Supervised.inCharge (h : Supervised s) (hi : s.driver = some i) : InCharge s i := by
  obtain ⟨d, hd, hk⟩ := h.session i hi
  exact
    { current := hk.isCurrent hd
      up := hk.isUp hd
      alone := fun j hj => h.up_unique hi hj
      stands := by rw [phase_eq hd]; exact hk.stands
      armed := hk.armed hd }

theorem Orderly.of_mem_close {link : Nat} {queue : List Request} (h : Orderly s link queue)
    (hc : .close ∈ queue) : ∃ texts : List String, queue = texts.map .text ++ [.close] := by
  cases h with
  | texts ts => simp at hc
  | closing ts _ => exact ⟨ts, rfl⟩

theorem Supervised.finishing (h : Supervised s) (hc : Custody s)
    (ho : ∀ link, Orderly s link (s.requests link)) (hn : s.driver = none)
    (hi : s.isUp i = true) : Finishing s i := by
  have hd : s.driver ≠ some i := by simp [hn]
  obtain ⟨hp, hl⟩ := h.released hi hd
  exact
    { released := hp
      leaves := hl
      asked := fun link hopen => (ho link).of_mem_close (hc.asked i link hd hopen) }

theorem length_endDrivers (s : Socket) : s.endDrivers.drivers.length = s.drivers.length := by
  have h (i : Option Nat) (t : Socket) : (t.abort i).drivers.length = t.drivers.length := by
    cases i <;> simp [abort, modifyDriver]
  rw [endDrivers, h, h]

theorem Supervised.renewed (h : Supervised s) (hs : s.state = .closed) :
    Renewed s s.connect.socket := by
  have hlen := length_endDrivers s
  rw [connect_of_closed hs]
  refine { state := rfl, generation := rfl, current := ?_, up := fun j => ?_, links := rfl }
  · simp [Move.silent, Socket.generation, ← hlen, Machine.isCurrent]
  · rw [isUp_iff, ← hlen]
    simp only [Move.silent]
    constructor
    · rintro ⟨d, hd, hf, ha⟩
      rcases Nat.lt_or_ge j s.endDrivers.drivers.length with hlt | hge
      · rw [List.getElem?_append_left hlt] at hd
        rcases h.endDrivers_up hd with hf' | ha'
        · simp [hf'] at hf
        · simp [ha'] at ha
      · obtain ⟨hlt, -⟩ := List.getElem?_eq_some_iff.mp hd
        rw [List.length_append, List.length_singleton] at hlt
        omega
    · rintro rfl
      exact ⟨_, List.getElem?_concat_length, rfl, rfl⟩

theorem teardown_teardown (s : Socket) (now now' : Nat) :
    (s.teardown now).socket.teardown now' = .silent (s.teardown now).socket := by
  generalize ht : (s.teardown now).socket = t
  have hmachine : t.machine = s.machine.teardown := by rw [← ht]; rfl
  have hsender : t.sender = none := by rw [← ht]; rfl
  have hdriver : t.driver = none := by rw [← ht]; rfl
  have hannounced : t.announced = false := by rw [← ht]; rfl
  have hstate : t.state = .closed := by rw [state, hmachine]; rfl
  have hagain : t.machine.teardown = t.machine := by rw [hmachine, Machine.teardown_teardown]
  simp only [teardown, hsender, hdriver, hannounced, hstate, hagain, Option.filter_none, if_true,
    Bool.false_eq_true, if_false, Move.silent, Move.mk.injEq, and_true]
  cases t
  simp_all

/-- A socket under supervision is governed as long as its session says. -/
theorem Supervised.governed (h : Supervised s) (hc : Custody s)
    (ho : ∀ link, Orderly s link (s.requests link)) : Governed s s.driver.isSome where
  charge hs := by
    obtain ⟨i, hi⟩ := Option.isSome_iff_exists.mp hs
    exact ⟨i, h.inCharge hi⟩
  finishing hs := by
    have hn : s.driver = none := by simpa using hs
    exact ⟨(h.idle hn).1, fun i hi => h.finishing hc ho hn hi⟩
  alone _ _ := h.alone
  held link := ⟨hc.held link, fun ⟨i, hi⟩ => hc.owner i link hi⟩
  single a b := by
    rintro ⟨i, hi, hai⟩ ⟨j, hj, haj⟩
    have hup (k link : Nat) (hk : (s.phase k).link? = some link) (ha : s.isAborted k = false) :
        s.isUp k = true := by
      cases hp : s.phase k <;> simp_all [isUp, Phase.link?, Phase.isFinished]
    obtain rfl := h.alone (hup i a hi hai) (hup j b hj haj)
    exact Option.some.inj (hi.symm.trans hj)
  ignored := connect_of_live
  renewed := h.renewed
  ended := teardown_teardown s

end

end TwinLink.Socket
