import TwinLink.Proofs.Config.Lookup
import TwinLink.Proofs.Manager.Separation
import TwinLink.Proofs.Socket.Effort

/-! The other channel keeps no driver from running. As long as the program asks for nothing when
it is called, what is in progress comes to an end, and so does the run of a driver, since every
delay takes some time. Main statement: unless a driver of a channel runs already, each of them can
come to run before time passes and before anything else reaches its side. -/

namespace TwinLink.Manager

open Socket World

variable {κ γ τ ν : Type} {C : Client κ γ τ ν}

/-- A bound on how often a task leads to another, which leads to another. -/
def depth : Task (Item κ γ) → Nat
  | .work (.request (.own _)) | .work (.call ..) | .work .discardLatest | .work (.sent ..) => 0
  | .work (.heard ..) => 1
  | .connect _ | .teardown _ | .send .. => 2
  | .work (.request _) => 3

/-- What is in progress goes on from `w` to `w'`, and nothing reaches side `k` meanwhile. -/
def Proceeds (C : Client κ γ τ ν) (k : ChannelKind) (w w' : System κ γ τ ν) : Prop :=
  ∃ n, inputs C k (List.replicate n (.proceed false)) w = [] ∧
    run C (List.replicate n (.proceed false)) w = w'

/-- The tasks `front` are done, and those behind them are left. -/
structure Drained (front rest : List (Task (Item κ γ))) (w w' : System κ γ τ ν) : Prop where
  agenda : w'.agenda = rest
  now : w'.now = w.now
  running : w'.running = w.running
  sockets : (∀ t ∈ front, depth t ≤ 1) → ∀ k, w'.socket k = w.socket k

variable {k k' : ChannelKind} {w w' u : System κ γ τ ν} {t : Turn κ γ} {task : Task (Item κ γ)}
  {es : List (Entry (Note ν κ))} {front rest : List (Task (Item κ γ))}

/-! ### Going on -/

theorem inputs_append (p q : List (Turn κ γ)) (w : System κ γ τ ν) :
    inputs C k (p ++ q) w = inputs C k p w ++ inputs C k q (run C p w) := by
  induction p generalizing w with
  | nil => rfl
  | cons t p ih =>
    rw [List.cons_append, inputs, inputs, ih, List.append_assoc]
    rfl

theorem Proceeds.refl (w : System κ γ τ ν) : Proceeds C k w w := ⟨0, rfl, rfl⟩

theorem Proceeds.trans (h : Proceeds C k w u) (h' : Proceeds C k u w') : Proceeds C k w w' := by
  obtain ⟨n, hn, rfl⟩ := h
  obtain ⟨n', hn', rfl⟩ := h'
  refine ⟨n + n', ?_, ?_⟩
  · rw [← List.replicate_append_replicate, inputs_append, hn, hn', List.append_nil]
  · rw [← List.replicate_append_replicate, run, List.map_append, World.run_append]
    rfl

theorem Proceeds.one (h : input? k w (.proceed false : Turn κ γ) = none) :
    Proceeds C k w (World.act (consumer C) w (.proceed false)) := by
  refine ⟨1, ?_, rfl⟩
  rw [List.replicate_one, inputs, h]
  rfl

theorem Proceeds.shaped (h : Proceeds C k w w') (hs : Shaped w.agenda) : Shaped w'.agenda := by
  obtain ⟨n, -, rfl⟩ := h
  exact run_shaped C _ w hs

theorem run_patient (turns : List (Turn κ γ)) (h : ∀ k, Patient (w.socket k)) (k : ChannelKind) :
    Patient ((run C turns w).socket k) := by
  refine World.run_invariant (consumer C) (P := fun w => Patient (w.socket k)) (fun w l h => ?_) _ w
    (h k)
  obtain ⟨m, hm⟩ := (act_acted (consumer C) w l).exists_shifted k
  rw [hm.socket]
  exact h.shift hm.shift

theorem Proceeds.patient (h : Proceeds C k w w') (hp : ∀ k, Patient (w.socket k))
    (k : ChannelKind) : Patient (w'.socket k) := by
  obtain ⟨n, -, rfl⟩ := h
  exact run_patient _ hp k

/-! ### Tasks -/

/-- What a task leads to is less deep. -/
theorem Performed.depth_lt {v : View} {s : State κ τ} {item : Item κ γ}
    {o : Outcome (State κ τ) (Item κ γ) (Note ν κ)} (hq : C.Quiet) (hp : Performed C v s item o) :
    ∀ t ∈ o.next, depth t < depth (.work item) := by
  intro t ht
  cases hp with
  | changed | received =>
    obtain ⟨l, -, rfl⟩ := List.mem_map.mp ht
    exact Nat.zero_lt_one
  | consulted | called => simp [consult, hq _ _ _ _] at ht
  | connect | disconnect | release | encoded | subscribed | watched =>
    simp only [onHub, List.mem_cons, List.not_mem_nil, or_false] at ht
    rcases ht with rfl | rfl | rfl <;> simp [depth]
  | _ => cases ht

theorem depth_lt_four (task : Task (Item κ γ)) : depth task < 4 := by
  unfold depth
  split <;> decide

/-- What is heard of a move calls listeners at most. -/
theorem depth_hearing {c : Option Callback} :
    ∀ t ∈ hearing (consumer C) k c, depth t = 1 := by
  intro t ht
  obtain ⟨c, -, rfl⟩ : ∃ c' ∈ c, Task.work (Item.heard k c') = t := by
    simpa [hearing, consumer] using ht
  rfl

theorem Took.drained (hq : C.Quiet) (ht : Took C w w' t (some task) es) :
    ∃ next rest, w.agenda = task :: rest ∧ (∀ t ∈ next, depth t < depth task) ∧
      Drained [task] (next ++ rest) w w' := by
  have hdeep {P : Prop} (hd : 1 < depth task) (h : ∀ t ∈ [task], depth t ≤ 1) : P :=
    absurd (h task (List.mem_singleton_self task)) (Nat.not_le.mpr hd)
  cases ht with
  | @work _ item rest o ha hp hw =>
    subst hw
    exact ⟨o.next, rest, ha, hp.depth_lt hq, rfl, rfl, rfl, fun _ k => by cases k <;> rfl⟩
  | @connect _ k rest ha hw =>
    subst hw
    refine ⟨[], rest, ha, by simp, ?_, now_settle .., running_settle .., hdeep Nat.one_lt_two⟩
    rw [agenda_settle, callback_connect]
    rfl
  | @teardown _ k rest ha hw =>
    subst hw
    refine ⟨_, rest, ha, fun t ht => ?_, agenda_settle .., now_settle .., running_settle ..,
      hdeep Nat.one_lt_two⟩
    rw [depth_hearing t ht]
    exact Nat.one_lt_two
  | @sent _ c text rest m ha he hm hw =>
    subst hw
    refine ⟨[.work (.sent c (.ok ()))], rest, ha, by simp [depth], ?_, now_settle ..,
      running_settle .., hdeep Nat.one_lt_two⟩
    rw [agenda_settle, send_callback hm]
    rfl
  | @refused _ c text rest e ha he hm hw =>
    subst hw
    exact ⟨[.work (.sent c (.error e))], rest, ha, by simp [depth], rfl, rfl, rfl,
      fun _ k => by cases k <;> rfl⟩

/-- The next task is done, and what it leads to comes before the others. -/
theorem exists_next (hq : C.Quiet) (hs : Shaped w.agenda) (ha : w.agenda = task :: rest) :
    ∃ next, (∀ t ∈ next, depth t < depth task) ∧
      Drained [task] (next ++ rest) w (World.act (consumer C) w (.proceed false)) := by
  have hperformed : w.performed (Turn.proceed false : Turn κ γ).label = some task := by
    rw [Turn.label, performed, ha, List.head?_cons]
  have ht := took C hs (.proceed false)
  rw [hperformed] at ht
  obtain ⟨next, rest', ha', hnext, hone⟩ := ht.drained hq
  obtain rfl : rest' = rest := (List.cons.inj (ha'.symm.trans ha)).2
  exact ⟨next, hnext, hone⟩

/-- What is in progress is done after finitely many turns: by induction on how deep it is, and
then on how much there is of it. -/
theorem exists_drained (hq : C.Quiet) (k : ChannelKind) (n : Nat)
    (front rest : List (Task (Item κ γ))) (w : System κ γ τ ν) (hs : Shaped w.agenda)
    (ha : w.agenda = front ++ rest) (hn : ∀ t ∈ front, depth t < n) :
    ∃ w', Proceeds C k w w' ∧ Drained front rest w w' := by
  induction n generalizing front rest w with
  | zero =>
    cases front with
    | nil => exact ⟨w, .refl w, ha, rfl, rfl, fun _ _ => rfl⟩
    | cons t front => exact absurd (hn t List.mem_cons_self) (Nat.not_lt_zero _)
  | succ n ih =>
    induction front generalizing w with
    | nil => exact ⟨w, .refl w, ha, rfl, rfl, fun _ _ => rfl⟩
    | cons task front ihfront =>
      obtain ⟨next, hnext, hone⟩ := exists_next hq hs ha
      have hfirst : Proceeds C k w (World.act (consumer C) w (.proceed false)) :=
        .one (by rw [input?, ha]; rfl)
      have hs₁ := hfirst.shaped hs
      -- what the task leads to comes first
      obtain ⟨u, hu, hdone⟩ := ih next (front ++ rest) _ hs₁ hone.agenda fun t ht =>
        (hnext t ht).trans_le (Nat.le_of_lt_succ (hn task List.mem_cons_self))
      obtain ⟨w', hw', hrest⟩ := ihfront u (hu.shaped hs₁) hdone.agenda fun t ht =>
        hn t (List.mem_cons_of_mem _ ht)
      refine ⟨w', hfirst.trans (hu.trans hw'),
        { agenda := hrest.agenda
          now := hrest.now.trans (hdone.now.trans hone.now)
          running := hrest.running.trans (hdone.running.trans hone.running)
          sockets := fun hd k => ?_ }⟩
      have htask : depth task ≤ 1 := hd task List.mem_cons_self
      rw [hrest.sockets (fun t ht => hd t (List.mem_cons_of_mem _ ht)) k,
        hdone.sockets (fun t ht => ((hnext t ht).trans_le htask).le) k,
        hone.sockets (fun t ht => List.mem_singleton.mp ht ▸ htask) k]

/-! ### Drivers -/

/-- A driver of the other channel that runs has to wait after finitely many turns: each of its
steps leaves it less to do. -/
theorem exists_stopped (hq : C.Quiet) (n : Nat) {k k' : ChannelKind} (hk : k' ≠ k) {i : Nat}
    (w : System κ γ τ ν) (hp : Patient (w.socket k')) (ha : w.agenda = [])
    (hr : w.running = some (k', i))
    (hn : (w.socket k').effort w.now ((w.socket k').phase i) ≤ n) :
    ∃ w', Proceeds C k w w' ∧ w'.isIdle ∧ w'.now = w.now := by
  induction n using Nat.strong_induction_on generalizing w with
  | _ n ih =>
    have hone : Proceeds C k w (World.act (consumer C) w (.proceed false)) :=
      .one (by simp [input?, ha, hr, hk])
    have hs : Shaped w.agenda := ha ▸ .calm (by simp)
    cases hm : (w.socket k').step w.now false i with
    | some m =>
      have hact : World.act (consumer C) w (.proceed false) = w.settle (consumer C) k' m := by
        simp only [World.act, proceed, ha, hr, drive, hm]
      rw [hact] at hone
      obtain ⟨u, hu, hdone⟩ := exists_drained hq k 2 (hearing (consumer C) k' m.callback) []
        (w.settle (consumer C) k' m) (hone.shaped hs) (by rw [agenda_settle, ha]) fun t ht => by
          rw [depth_hearing t ht]
          exact Nat.one_lt_two
      have hsocket : u.socket k' = m.socket := by
        rw [hdone.sockets (fun t ht => (depth_hearing t ht).le), socket_settle_self]
      have hnow : u.now = w.now := hdone.now.trans (now_settle ..)
      have hstep := step_stepped hm
      have hlt := hstep.effort_lt hp
      obtain ⟨w', hw', hidle, htime⟩ := ih _ (hlt.trans_le hn) u
        (hsocket ▸ hp.step hstep) hdone.agenda
        (hdone.running.trans ((running_settle ..).trans hr)) (by rw [hsocket, hnow])
      exact ⟨w', hone.trans (hu.trans hw'), hidle, htime.trans hnow⟩
    | none =>
      refine ⟨_, hone, ?_⟩
      simp only [World.act, proceed, ha, hr, drive, hm]
      split
      · refine ⟨isIdle_iff.mpr ⟨?_, running_settle ..⟩, now_settle ..⟩
        rw [agenda_settle, callback_discard]
        rfl
      · exact ⟨rfl, rfl⟩

theorem exists_idle (hq : C.Quiet) {k : ChannelKind} (w : System κ γ τ ν) (hs : Shaped w.agenda)
    (hp : ∀ k, Patient (w.socket k)) (hr : ∀ i, w.running ≠ some (k, i)) :
    ∃ w', Proceeds C k w w' ∧ w'.isIdle ∧ w'.now = w.now := by
  obtain ⟨u, hu, hdone⟩ := exists_drained hq k 4 w.agenda [] w hs (List.append_nil _).symm
    fun t _ => depth_lt_four t
  cases hrun : w.running with
  | none => exact ⟨u, hu, isIdle_iff.mpr ⟨hdone.agenda, hdone.running.trans hrun⟩, hdone.now⟩
  | some d =>
    obtain ⟨k', i⟩ := d
    have hk : k' ≠ k := fun h => hr i (h ▸ hrun)
    obtain ⟨w', hw', hidle, hnow⟩ := exists_stopped hq _ hk u (hu.patient hp k') hdone.agenda
      (hdone.running.trans hrun) le_rfl
    exact ⟨w', hu.trans hw', hidle, hnow.trans hdone.now⟩

/-! ### Configurations -/

theorem patient_ofConfig {c : Config} (hc : c.validate = .ok ())
    (live command : List (Reply Answer)) (client : τ) (k : ChannelKind) :
    Patient ((ofConfig c live command client : System κ γ τ ν).socket k) := by
  have hfirst : 0 < (c.backoff k).first.nanos := by
    have hbounds := Backoff.Bounds.validate_eq_ok.mp ((Config.validate_eq_ok.mp hc).1 k)
    rw [Backoff.Bounds.first, Duration.nanos_lesser]
    omega
  unfold ofConfig
  split <;> cases k <;> exact patient_ofSettings _ _ hfirst

/-- The other channel keeps no driver from running. At every point of a run in which listeners ask
for nothing, unless a driver of channel `k` runs already, what is in progress is done and the
driver of the other channel waits after finitely many turns. Nothing reaches side `k` meanwhile
and no time passes; all that is seen of the side is what was due to it; and then each of its
drivers runs as soon as it gets its turn, unless it has ended or is to end. -/
theorem run_unhindered (hq : C.Quiet) (k : ChannelKind) {c : Config} (hc : c.validate = .ok ())
    (live command : List (Reply Answer)) (client : τ) (turns : List (Turn κ γ))
    {w : System κ γ τ ν} (hw : w = run C turns (ofConfig c live command client))
    (hr : ∀ i, w.running ≠ some (k, i)) :
    ∃ w' n, w' = run C (List.replicate n (.proceed false)) w ∧
      inputs C k (List.replicate n (.proceed false)) w = [] ∧ w'.now = w.now ∧
      side k (sights k (history C (List.replicate n (.proceed false)) w)) w' = outlook k [] w ∧
      ∀ i, ((w'.socket k).phase i).isFinished = false → (w'.socket k).isAborted i = false →
        (World.act (consumer C) w' (.poll k i)).running = some (k, i) := by
  have hs : Shaped w.agenda := by
    rw [hw]
    exact run_shaped C turns _ (shaped_ofConfig ..)
  have hp : ∀ k, Patient (w.socket k) := by
    rw [hw]
    exact run_patient turns (patient_ofConfig hc live command client)
  obtain ⟨w', ⟨n, hn, hrun⟩, hidle, hnow⟩ := exists_idle hq w hs hp hr
  refine ⟨w', n, hrun.symm, hn, hnow, ?_, fun i hf hab => ?_⟩
  · have houtlook := outlook_run hq k (List.replicate n (.proceed false)) w hs []
    rw [hn, hrun, List.nil_append, outlook_idle (isIdle_iff.mp hidle).1] at houtlook
    exact houtlook
  · simp [World.act, poll, hidle, hf, hab]

end TwinLink.Manager
