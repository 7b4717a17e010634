import TwinLink.Proofs.Socket.Governance
import TwinLink.Proofs.World.Moments

/-! One driver in charge of each channel, in every run. Whatever the program, the drivers, the
peers and the clock do, also inside callbacks, a socket is governed as its sessions say: while
the last one lasts by exactly one driver, with a retry pending whenever the channel is closed,
and afterwards by none. Generations are counted modulo `UInt64.size`, so a run that begins and ends
as many sessions is left out. -/

namespace TwinLink

/-- A driver goes on from here at once; it waits for nothing. -/
def Socket.Phase.isPassing : Socket.Phase → Bool
  | announcing _ | ending | retiring _ => true
  | _ => false

namespace World

open Socket

variable {σ ι ε : Type} {C : Consumer σ ι ε} {w : World σ ι ε}

/-- Only the driver that runs passes through a phase in which nothing is waited for. -/
def Passing (w : World σ ι ε) : Prop :=
  ∀ k i, ((w.socket k).phase i).isPassing = true → w.running = some (k, i)

theorem Passing.of_phase {w' : World σ ι ε} (h : Passing w)
    (hs : ∀ k i, (w'.socket k).phase i = (w.socket k).phase i)
    (hr : w.running = none ∨ w'.running = w.running) : Passing w' := by
  intro k i hp
  rw [hs] at hp
  rcases hr with hr | hr
  · exact absurd ((h k i hp).symm.trans hr) (by simp)
  · rw [hr]
    exact h k i hp

theorem Passing.settle {u : World σ ι ε} {k : ChannelKind} {m : Move}
    (hm : ∀ i, (m.socket.phase i).isPassing = true → u.running = some (k, i))
    (ho : ∀ i, ((u.socket k.other).phase i).isPassing = true → u.running = some (k.other, i)) :
    Passing (u.settle C k m) := by
  intro k' i hp
  rw [running_settle]
  by_cases hk : k' = k
  · subst hk
    rw [socket_settle_self] at hp
    exact hm i hp
  · obtain rfl := eq_other hk
    rw [socket_settle_other] at hp
    exact ho i hp

/-- No driver has come into such a phase. -/
def Calm (s t : Socket) : Prop :=
  ∀ j, (t.phase j).isPassing = true → (s.phase j).isPassing = true

theorem calm_connect (s : Socket) : Calm s s.connect.socket := by
  intro j hp
  by_cases hs : s.state = .closed
  · rcases phase_connect hs j with hj | ⟨hj, -⟩
    · exact hj ▸ hp
    · simp [hj, Phase.isPassing] at hp
  · rw [connect_of_live hs] at hp
    exact hp

theorem calm_teardown (now : Nat) (s : Socket) : Calm s (s.teardown now).socket := by
  intro j hp
  rwa [phase_teardown] at hp

theorem calm_send {s : Socket} {text : String} {m : Move} (h : s.send text = .ok m) :
    Calm s m.socket := by
  obtain ⟨link, -, -, -, rfl⟩ := send_eq_ok.mp h
  exact fun _ hp => hp

theorem calm_reap (s : Socket) (i : Nat) : Calm s (s.reap i).socket := by
  intro j hp
  rwa [reap_socket, phase_modifyDriver s i fun _ => by rfl] at hp

theorem calm_discard (s : Socket) (i : Nat) : Calm s (s.discard i).socket := by
  intro j hp
  rw [phase_discard] at hp
  split at hp
  next => simp [Phase.isPassing] at hp
  next => exact hp

theorem Passing.operate {u : World σ ι ε} {k : ChannelKind} {m : Move} (h : Passing w)
    (hs : ∀ k, u.socket k = w.socket k) (hr : u.running = w.running)
    (hc : Calm (w.socket k) m.socket) : Passing (u.settle C k m) := by
  refine settle (fun i hp => ?_) fun i hp => ?_
  · rw [hr]
    exact h k i (hc i hp)
  · rw [hr]
    rw [hs] at hp
    exact h k.other i hp

/-- A driver that is passing has a next step. -/
theorem step_ne_none {s : Socket} {i : Nat} (hp : (s.phase i).isPassing = true) (now : Nat)
    (b : Bool) : s.step now b i ≠ none := by
  cases h : s.phase i <;> simp_all [Phase.isPassing, Socket.step]

/-- Once the driver that runs has no next step, no driver is passing. -/
theorem Passing.not_passing (h : Passing w) {k : ChannelKind} {i now : Nat} {b : Bool}
    (hr : w.running = some (k, i)) (hn : (w.socket k).step now b i = none) (k' : ChannelKind)
    (j : Nat) : ((w.socket k').phase j).isPassing = false := by
  rw [Bool.eq_false_iff]
  intro hp
  obtain ⟨rfl, rfl⟩ := Prod.mk.inj (Option.some.inj ((h k' j hp).symm.trans hr))
  exact step_ne_none hp now b hn

theorem Passing.stop {u : World σ ι ε} (hs : ∀ k, u.socket k = w.socket k)
    (hn : ∀ k j, ((w.socket k).phase j).isPassing = false) : Passing u := by
  intro k j hp
  rw [hs, hn] at hp
  cases hp

theorem Passing.act (h : Passing w) (l : Label ι) : Passing (act C w l) := by
  have hacted := act_acted C w l
  generalize World.act C w l = w' at hacted
  generalize news C l w = es at hacted
  cases hacted with
  | stay => exact h
  | call | work | refused | elapse =>
    exact h.of_phase (fun k _ => by cases k <;> rfl) (.inr rfl)
  | connect => exact h.operate (socket_congr rfl rfl) rfl (calm_connect _)
  | teardown => exact h.operate (socket_congr rfl rfl) rfl (calm_teardown _ _)
  | sent _ _ hm => exact h.operate (socket_congr rfl rfl) rfl (calm_send hm)
  | @step k i b m _ hr hm =>
    refine settle (fun j hp => ?_) fun j hp => h k.other j hp
    by_cases hij : i = j
    · rw [← hij, hr]
    · rw [(step_stepped hm).phase_other hij] at hp
      exact h k j hp
  | stop _ hr hm => exact stop (socket_congr rfl rfl) (h.not_passing hr hm)
  | @discard k i b _ hr hm _ =>
    have hstop : Passing { w with running := none } :=
      stop (socket_congr rfl rfl) (h.not_passing hr hm)
    refine hstop.operate (fun _ => rfl) rfl ?_
    rw [socket_congr rfl rfl k]
    exact calm_discard _ _
  | poll _ hr => exact h.of_phase (fun k _ => by cases k <;> rfl) (.inl hr)
  | cancel => exact h.operate (fun _ => rfl) rfl (calm_discard _ _)
  | reap => exact h.operate (fun _ => rfl) rfl (calm_reap _ _)
  | arrive k | hangUp k =>
    exact h.of_phase (fun k' _ => by cases k <;> cases k' <;> rfl) (.inr (by cases k <;> rfl))

/-! ### Runs -/

section Run

variable (C : Consumer σ ι ε) (k : ChannelKind) (labels : List (Label ι))

/-- Two sockets to which nothing has happened. -/
abbrev ofSettings (live command : Settings) (answers : ChannelKind → List (Reply Answer))
    (state : σ) : World σ ι ε :=
  ofSockets (.ofSettings live (answers .live)) (.ofSettings command (answers .command)) state

theorem socket_ofSettings (live command : Settings) (answers : ChannelKind → List (Reply Answer))
    (state : σ) : ∃ settings script,
      (ofSettings live command answers state : World σ ι ε).socket k =
        .ofSettings settings script := by
  cases k <;> exact ⟨_, _, rfl⟩

theorem isSome_driver_run (w : World σ ι ε) (h : (w.socket k).driver = none) :
    ((run C labels w).socket k).driver.isSome =
      (sessions C k labels w).getLast?.getD false := by
  refine moments_invariant C (P := fun past w => (w.socket k).driver.isSome =
    (sessionsOf k past).getLast?.getD false) labels (fun past w l _ hw => ?_) [] w
    (by rw [h]; rfl)
  obtain ⟨m, hm⟩ := (act_acted C w l).exists_shifted k
  rw [hm.socket, hm.shift.isSome_driver, sessionsOf_append, sessionsOf_one, hw]
  cases w.session? k l <;> simp

/-- A run with fewer than `UInt64.size` sessions keeps a socket under supervision, and with it
whatever is kept from moment to moment by a socket under supervision. -/
theorem supervised_invariant {P : List (World σ ι ε × Label ι) → World σ ι ε → Prop}
    (step : ∀ past w l, Supervised (w.socket k) → Custody (w.socket k) → P past w →
      P (past ++ [(w, l)]) (act C w l))
    (w : World σ ι ε) (h : Supervised (w.socket k)) (hc : Custody (w.socket k))
    (hg : (w.socket k).machine.generation = 0) (hp : P [] w)
    (hb : (sessions C k labels w).length < UInt64.size) :
    Supervised ((run C labels w).socket k) ∧ Custody ((run C labels w).socket k) ∧
      P (moments C labels w) (run C labels w) := by
  suffices hrun : ((run C labels w).socket k).machine.generation.toNat ≤
        (sessions C k labels w).length ∧
      ((sessions C k labels w).length < UInt64.size →
        Supervised ((run C labels w).socket k) ∧ Custody ((run C labels w).socket k) ∧
          P (moments C labels w) (run C labels w)) by
    exact hrun.2 hb
  refine moments_invariant C (P := fun past w =>
    (w.socket k).machine.generation.toNat ≤ (sessionsOf k past).length ∧
      ((sessionsOf k past).length < UInt64.size →
        Supervised (w.socket k) ∧ Custody (w.socket k) ∧ P past w))
    labels (fun past w l _ hw => ?_) [] w ⟨by rw [hg]; exact Nat.le_refl 0, fun _ => ⟨h, hc, hp⟩⟩
  obtain ⟨m, hm⟩ := (act_acted C w l).exists_shifted k
  have hcount : (sessionsOf k (past ++ [(w, l)])).length =
      (sessionsOf k past).length + if (w.session? k l).isSome then 1 else 0 := by
    rw [sessionsOf_append, sessionsOf_one, List.length_append]
    cases w.session? k l <;> rfl
  have hle := hm.shift.toNat_generation_le
  rw [hm.socket, hcount]
  refine ⟨by omega, fun hlt => ?_⟩
  obtain ⟨hv, hcus, hpast⟩ := hw.2 (by omega)
  refine ⟨hv.shift hm.shift fun hsome => ?_, hcus.shift hv hm.shift, step past w l hv hcus hpast⟩
  rw [if_pos hsome] at hlt
  omega

/-- The same for what is kept by every shift of a socket under supervision. -/
theorem supervised_happenings {P : List Happening → Socket → Prop}
    (step : ∀ seen s b m, Shift s b m → Supervised s → Custody s → P seen s →
      P (seen ++ m.seen) m.socket)
    (w : World σ ι ε) (h : Supervised (w.socket k)) (hc : Custody (w.socket k))
    (hg : (w.socket k).machine.generation = 0) (hp : P [] (w.socket k))
    (hb : (sessions C k labels w).length < UInt64.size) :
    Supervised ((run C labels w).socket k) ∧ Custody ((run C labels w).socket k) ∧
      P (happenings C k labels w) ((run C labels w).socket k) := by
  refine supervised_invariant C k labels (P := fun past w =>
    P (happeningsOf C k past) (w.socket k)) (fun past w l hv hc h => ?_) w h hc hg hp hb
  obtain ⟨m, hm⟩ := (act_acted C w l).exists_shifted k
  rw [happeningsOf_append_one C hm, hm.socket]
  exact step _ _ _ _ hm.shift hv hc h

theorem supervised_run (w : World σ ι ε) (h : Supervised (w.socket k)) (hc : Custody (w.socket k))
    (hg : (w.socket k).machine.generation = 0) (hb : (sessions C k labels w).length < UInt64.size) :
    Supervised ((run C labels w).socket k) ∧ Custody ((run C labels w).socket k) := by
  obtain ⟨hv, hcus, -⟩ := supervised_invariant C k labels (P := fun _ _ => True)
    (fun _ _ _ _ _ _ => trivial) w h hc hg trivial hb
  exact ⟨hv, hcus⟩

/-- Whatever happens, the sessions of a channel tell who is in charge of its socket; and a
driver that does not run waits for something. -/
theorem run_governed (live command : Settings) (answers : ChannelKind → List (Reply Answer))
    (state : σ)
    (hb : (sessions C k labels (ofSettings live command answers state)).length < UInt64.size) :
    let w := run C labels (ofSettings live command answers state)
    Governed (w.socket k)
        ((sessions C k labels (ofSettings live command answers state)).getLast?.getD false) ∧
      ∀ i, ((w.socket k).phase i).isPassing = true → w.running = some (k, i) := by
  intro w
  have hstart (k : ChannelKind) : ∃ settings script,
      (ofSettings live command answers state : World σ ι ε).socket k =
        .ofSettings settings script := by
    cases k <;> exact ⟨_, _, rfl⟩
  obtain ⟨settings, script, hk⟩ := hstart k
  have hpassing : Passing (ofSettings live command answers state : World σ ι ε) := by
    intro k i hp
    obtain ⟨settings, script, hk⟩ := hstart k
    rw [hk] at hp
    simp [Socket.ofSettings, phase, Phase.isPassing] at hp
  obtain ⟨hv, hc⟩ := supervised_run C k labels _ (hk ▸ supervised_ofSettings settings script)
    (hk ▸ custody_ofSettings settings script) (by rw [hk]; rfl) hb
  have ha := happenings_invariant C (P := Accounted) (fun _ _ _ _ hs h => h.shift hs) k labels
    (ofSettings live command answers state) (hk ▸ accounted_ofSettings settings script)
  refine ⟨?_, fun i hp => ?_⟩
  · rw [← isSome_driver_run C k labels _ (by rw [hk]; rfl)]
    exact hv.governed hc ha.orderly
  · exact run_invariant C (P := Passing) (fun _ l h => h.act l) labels _ hpassing k i hp

end Run

/-- A consumer that asks for nothing. -/
def Consumer.idle : Consumer Unit Unit Unit := ⟨fun _ _ => (), fun _ _ _ => ⟨(), [], []⟩⟩

/-- Usual settings for a host with a short name. -/
def plainSettings (k : ChannelKind) : Settings :=
  ⟨k, ⟨false, [], [], .domain ['h'], none, [[]], none, none⟩, .usual, .ofMillis 10000⟩

/-- A channel that is opened, torn down on its link and opened again. -/
def reopening : List (Label Unit) :=
  [.call (.connect .live), .proceed false, .poll .live 0, .proceed false, .proceed false,
    .proceed false, .proceed false, .call (.teardown .live), .proceed false, .proceed false,
    .call (.connect .live), .proceed false]

/-- The network accepts every attempt. -/
def accepting : ChannelKind → List (Reply Answer) :=
  fun _ => [.now (.ok ⟨fun _ => .now (.ok ()), .now ()⟩)]

theorem run_governed_reopening :
    sessions Consumer.idle .live reopening
        (ofSettings (plainSettings .live) (plainSettings .command) accepting ()) =
      [true, false, true] ∧
    Governed
      ((run Consumer.idle reopening
        (ofSettings (plainSettings .live) (plainSettings .command) accepting ())).socket .live)
      true := by
  have hs : sessions Consumer.idle .live reopening
      (ofSettings (plainSettings .live) (plainSettings .command) accepting ()) =
        [true, false, true] := by decide
  have hg := (run_governed Consumer.idle .live reopening (plainSettings .live)
    (plainSettings .command) accepting () (by rw [hs]; decide)).1
  rw [hs] at hg
  exact ⟨hs, hg⟩

end World

end TwinLink
