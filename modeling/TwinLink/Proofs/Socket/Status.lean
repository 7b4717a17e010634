import TwinLink.Proofs.Socket.Retirement

/-! What a socket has told its handler. The status that has been announced last is kept beside
the machine, and only two steps of a driver and a teardown change it. A channel that has been
announced is open, whatever happens; and once the driver of the session moves frames it has
been. -/

namespace TwinLink.Socket

def Callback.status? : Callback → Option Bool
  | status b => some b
  | _ => none

/-- The driver has said that the channel is open, or need not. -/
def Phase.isServing : Phase → Bool
  | pumping _ | writing .. | closing .. => true
  | _ => false

/-- What has been announced is the case. -/
def Truthful (s : Socket) : Prop := s.announced = true → s.state = .opened

/-- The driver of the session does not move frames before it has been announced. -/
def Forthright (s : Socket) : Prop :=
  ∀ i, s.driver = some i → (s.phase i).isServing = true → s.announced = true

section

variable {s : Socket} {b : Option Bool} {m : Move} {now i : Nat}

theorem truthful_ofSettings (settings : Settings) (script : List (Reply Answer)) :
    Truthful (ofSettings settings script) := by
  intro h
  cases h

theorem forthright_ofSettings (settings : Settings) (script : List (Reply Answer)) :
    Forthright (ofSettings settings script) := by
  intro i h
  cases h

theorem announced_discard (s : Socket) (i : Nat) :
    (s.discard i).socket.announced = s.announced := by
  unfold Socket.discard
  split <;> rfl

theorem machine_discard (s : Socket) (i : Nat) : (s.discard i).socket.machine = s.machine := by
  unfold Socket.discard
  split <;> rfl

theorem sender_discard (s : Socket) (i : Nat) : (s.discard i).socket.sender = s.sender := by
  unfold Socket.discard
  split <;> rfl

theorem callback_discard (s : Socket) (i : Nat) : (s.discard i).callback = none := by
  unfold Socket.discard
  split <;> rfl

/-- Only the driver of the session tells of a status: that the channel is open, before it moves
frames, and that it is not, once it has no link. -/
theorem Stepped.telling (hs : Stepped now i s m) {c : Bool} (hc : m.callback = some (.status c)) :
    s.machine.isCurrent (s.generation i) = true ∧
      ((c = true ∧ s.state = .opened ∧ ∃ link, s.phase i = .announcing link) ∨
        c = false ∧ s.phase i = .ending) := by
  cases hs
  case announced hp hg ho _ =>
    obtain rfl : true = c := by simpa using hc
    exact ⟨hg, .inl ⟨rfl, ho, _, hp⟩⟩
  case closed hp hm _ =>
    obtain rfl : false = c := by
      split at hc
      · simpa using hc
      · cases hc
    exact ⟨(Machine.onClose_eq_some.mp hm).1, .inr ⟨rfl, hp⟩⟩
  case read hf =>
    cases Option.some.inj hc
    exact absurd rfl (Frame.callback_ne_status hf c)
  all_goals cases hc

theorem Truthful.not_announced (h : Truthful s) (hs : s.state ≠ .opened) : s.announced = false :=
  Bool.eq_false_iff.mpr fun ha => hs (h ha)

theorem Truthful.step (h : Truthful s) (hs : Stepped now i s m) : Truthful m.socket := by
  intro ha
  cases hs
  case opened hm =>
    obtain ⟨-, -, rfl⟩ := Machine.onOpen_eq_some.mp hm
    rfl
  case announced ho _ => exact ho
  case closed => cases ha
  case retried hm =>
    obtain ⟨-, hclosed, rfl⟩ := Machine.onRetry_eq_some.mp hm
    have := h.not_announced (s := s) (by simp [state, hclosed])
    simp [Move.silent, setPhase, modifyDriver, this] at ha
  all_goals exact h ha

/-- Whatever happens, a channel that has been announced is open. -/
theorem Truthful.shift (h : Truthful s) (hs : Shift s b m) : Truthful m.socket := by
  cases hs with
  | connect hc =>
    intro ha
    rw [connect_of_closed hc] at ha
    have := h.not_announced (by simp [hc])
    simp [Move.silent, this] at ha
  | teardown => intro ha; cases ha
  | step hm => exact h.step hm
  | discard =>
    intro ha
    rw [announced_discard] at ha
    rw [state, machine_discard]
    exact h ha
  | _ => exact h

/-- While a channel is open and announced, its driver and its link stay what they are. -/
theorem Shift.standing (hs : Shift s b m) (ho : s.state = .opened)
    (ha : m.socket.announced = true) :
    m.socket.driver = s.driver ∧ m.socket.sender = s.sender := by
  cases hs with
  | connect hc => simp [ho] at hc
  | teardown => cases ha
  | step hm =>
    refine ⟨hm.slots.1, ?_⟩
    cases hm
    case opened hopen => simp [state, (Machine.onOpen_eq_some.mp hopen).2.1] at ho
    case closed => cases ha
    all_goals rfl
  | discard => exact ⟨driver_discard s _, sender_discard s _⟩
  | _ => exact ⟨rfl, rfl⟩

/-- A driver that the machine heeds is the one of the session. -/
theorem Supervised.driver_eq (h : Supervised s) (hp : s.phase i ≠ .finished)
    (hc : s.machine.isCurrent (s.generation i) = true) : s.driver = some i := by
  refine Decidable.byContradiction fun hd => ?_
  obtain ⟨d, hdi⟩ := exists_driver hp
  rw [(h.former i d hdi hd).not_isCurrent hdi] at hc
  cases hc

theorem Forthright.step (h : Forthright s) (hv : Supervised s) (hs : Stepped now i s m) :
    Forthright m.socket := by
  intro j hj hp
  rw [hs.slots.1] at hj
  obtain ⟨d, hd, hk⟩ := hv.session j hj
  by_cases hij : i = j
  · subst hij
    have hc := hk.isCurrent hd
    have hstands := hk.stands
    have hserve := h i hj
    rw [← phase_eq hd] at hstands
    cases hs
    case announced => rfl
    case unannounced hphase hn =>
      rw [hphase] at hstands
      exact hn hc hstands
    all_goals
      simp_all [phase, setPhase, modifyDriver, modifyLink, leave, Socket.attempt, Socket.rest,
        Socket.release, Move.silent, Phase.isServing]
  · rw [hs.phase_other hij] at hp
    have hne : s.driver ≠ some i := fun hi => hij (Option.some.inj (hi.symm.trans hj))
    obtain ⟨e, he⟩ := hs.exists_driver
    obtain ⟨-, -, ha, -⟩ := hs.refused ((hv.former i e he hne).not_isCurrent he)
    rw [ha]
    exact h j hj hp

theorem Forthright.shift (h : Forthright s) (hv : Supervised s) (hs : Shift s b m) :
    Forthright m.socket := by
  cases hs with
  | connect hc =>
    intro j hj hp
    rw [connect_of_closed hc] at hj hp
    obtain rfl : s.endDrivers.drivers.length = j := Option.some.inj hj
    simp [Move.silent, phase, Phase.isServing] at hp
  | teardown => intro j hj; cases hj
  | step hm => exact h.step hv hm
  | discard =>
    intro j hj hp
    rw [driver_discard] at hj
    rw [phase_discard] at hp
    rw [announced_discard]
    split at hp
    next => cases hp
    next => exact h j hj hp
  | reap =>
    intro j hj hp
    rw [reap_socket] at hj hp ⊢
    rw [phase_modifyDriver s _ fun _ => by rfl] at hp
    exact h j hj hp
  | _ => exact h

end

end TwinLink.Socket
