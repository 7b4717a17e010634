import TwinLink.Proofs.Socket.Departure
import TwinLink.Proofs.World.Timeline

/-! How long the links of a channel outlast its sessions. Time passes only over what is not due,
so a driver that a teardown has released for a while has ended when the while is over, and a link
that is closed for a while is released. A driver that is to end because the channel is opened
again ends where it has to wait, so that what it is doing then it still does. Main statement: so
it is after every teardown of every run, whatever is queued and whatever the peers do. -/

namespace TwinLink.World

open Socket

variable {σ ι ε : Type} {C : Consumer σ ι ε} {w w' : World σ ι ε} {k : ChannelKind} {l : Label ι}

/-- The link of a channel on which something is moved in or out. -/
def Entry.moved? (k : ChannelKind) (e : Entry ε) : Option Nat :=
  (e.happening? k).bind Happening.moved?

/-- The time `due` is over: it has passed, or nothing goes on that is due then. -/
def Over (due : Nat) (w : World σ ι ε) : Prop :=
  due < w.now ∨ due ≤ w.now ∧ w.isSettled = true

/-- A driver runs all the while, without having to wait. -/
def RunsOver (C : Consumer σ ι ε) (k : ChannelKind) (i : Nat) (labels : List (Label ι))
    (w : World σ ι ε) : Prop :=
  ∀ part, part <+: labels → (run C part w).running = some (k, i)

/-- What is left of the first `n` drivers and `m` links of a channel, which are to be gone at the
instant `due`. -/
structure Vanishing (C : Consumer σ ι ε) (k : ChannelKind) (n m due : Nat) (labels : List (Label ι))
    (w : World σ ι ε) : Prop where
  moved : ∀ u e link, (u, e) ∈ history C labels w → e.moved? k = some link → link < m → u.now ≤ due
  ended : Over due (run C labels w) → ∀ i < n,
    (((run C labels w).socket k).phase i).isFinished = true
  released : Over due (run C labels w) → ∀ link < m,
    ((run C labels w).socket k).isHeld link = false
  /-- Once the channel is opened again they are to be gone at that instant. -/
  superseded : ∀ before l after, labels = before ++ l :: after →
    (run C before w).session? k l = some true →
    Over (run C before w).now (run C labels w) →
      (∀ i < n, (((run C labels w).socket k).phase i).isFinished = true) ∧
        ∀ link < m, ((run C labels w).socket k).isHeld link = false
  /-- And only a driver that runs as that is done moves anything, before it has to wait. -/
  replaced : ∀ before l after, labels = before ++ l :: after →
    (run C before w).session? k l = some true →
    ∀ u e link, (u, e) ∈ history C after (act C (run C before w) l) → e.moved? k = some link →
      link < m → u.now = (run C before w).now ∧ ∃ i < n, ∃ part, part <+: after ∧
        u = run C (l :: part) (run C before w) ∧ RunsOver C k i (l :: part) (run C before w)

/-! ### Steps -/

theorem mem_history {u : World σ ι ε} {e : Entry ε} {labels : List (Label ι)}
    (h : (u, e) ∈ history C labels w) : ∃ before l after, labels = before ++ l :: after ∧
      u = run C before w ∧ e ∈ news C l u := by
  induction labels generalizing w with
  | nil => cases h
  | cons l labels ih =>
    rw [history_cons, List.mem_append] at h
    rcases h with h | h
    · obtain ⟨e, he, heq⟩ := List.mem_map.mp h
      cases heq
      exact ⟨[], l, labels, rfl, rfl, he⟩
    · obtain ⟨before, l', after, rfl, hu, he⟩ := ih h
      exact ⟨l :: before, l', after, rfl, hu, he⟩

theorem isSettled_socket (h : w.isSettled = true) (k : ChannelKind) :
    (w.socket k).isSettled w.now = true := by
  simp only [isSettled, Bool.and_eq_true] at h
  cases k
  · exact h.1.2
  · exact h.2

/-- The time of a socket is over when that of the world is. -/
theorem Over.socket {due : Nat} (h : Over due w) (k : ChannelKind) :
    due < w.now ∨ due ≤ w.now ∧ (w.socket k).isSettled w.now = true :=
  h.imp_right fun h => ⟨h.1, isSettled_socket h.2 k⟩

/-- A session is begun or ended by the task that is in progress. -/
theorem act_of_session (C : Consumer σ ι ε) {b : Bool} (hl : w.session? k l = some b) :
    ∃ rest, act C w l = { w with agenda := rest }.settle C k
      (if b then (w.socket k).connect else (w.socket k).teardown w.now) := by
  cases l with
  | proceed c =>
    rw [session?, performed] at hl
    cases ha : w.agenda with
    | nil =>
      rw [ha] at hl
      cases hl
    | cons t rest =>
      rw [ha] at hl
      refine ⟨rest, ?_⟩
      simp only [act, proceed, ha]
      cases t with
      | connect k' =>
        simp only [List.head?_cons] at hl
        split at hl
        · next hk =>
          cases hl
          obtain ⟨rfl, -⟩ := hk
          cases k' <;> rfl
        · cases hl
      | teardown k' =>
        simp only [List.head?_cons] at hl
        split at hl
        · next hk =>
          cases hl
          subst hk
          cases k' <;> rfl
        · cases hl
      | _ => cases hl
  | _ => cases hl

theorem socket_act_of_teardown (hl : w.session? k l = some false) :
    (act C w l).socket k = ((w.socket k).teardown w.now).socket := by
  obtain ⟨rest, hact⟩ := act_of_session C hl
  rw [hact]
  exact socket_settle_self C k _ _

theorem socket_act_of_connect (hl : w.session? k l = some true) :
    (act C w l).socket k = (w.socket k).connect.socket := by
  obtain ⟨rest, hact⟩ := act_of_session C hl
  rw [hact]
  exact socket_settle_self C k _ _

theorem running_act_of_session {b : Bool} (hl : w.session? k l = some b) :
    (act C w l).running = w.running := by
  obtain ⟨rest, hact⟩ := act_of_session C hl
  rw [hact]
  exact running_settle C k _ _

/-- Time passes where nothing is due. -/
theorem now_act (C : Consumer σ ι ε) (w : World σ ι ε) (l : Label ι) :
    (act C w l).now = w.now ∨ ∃ ms, (act C w l).now = w.now + ms ∧
      ∀ k, (act C w l).socket k = w.socket k ∧ (w.socket k).isSettled w.now = true ∧
        ∀ due ∈ (w.socket k).dues, w.now < due → w.now + ms ≤ due := by
  have hacted := act_acted C w l
  generalize hw' : act C w l = w' at hacted
  generalize news C l w = es at hacted
  cases hacted with
  | @elapse ms =>
    by_cases hms : ms = 0
    · exact .inl (by rw [hms]; rfl)
    · refine .inr ⟨ms, rfl, fun k => ⟨socket_congr rfl rfl k, settled_of_elapse ?_ k⟩⟩
      rw [show w.elapse ms = { w with now := w.now + ms } from hw']
      simp [hms]
  | connect | teardown | sent | step | discard | cancel | reap => exact .inl (now_settle C _ _ _)
  | arrive k | hangUp k => exact .inl (by cases k <;> rfl)
  | _ => exact .inl rfl

/-- What every shift keeps, and time as long as nothing is due, every run keeps. -/
theorem run_timed {P : Nat → Socket → Prop}
    (shift : ∀ now s b m, Shift s b m → (b = some false → m.socket = (s.teardown now).socket) →
      P now s → P now m.socket)
    (elapse : ∀ now s ms, s.isSettled now = true →
      (∀ due ∈ s.dues, now < due → now + ms ≤ due) → P now s → P (now + ms) s)
    (labels : List (Label ι)) (h : P w.now (w.socket k)) :
    P (run C labels w).now ((run C labels w).socket k) := by
  refine run_invariant C (P := fun w => P w.now (w.socket k)) (fun w l h => ?_) labels w h
  rcases now_act C w l with hnow | ⟨ms, hnow, hk⟩
  · obtain ⟨m, hm⟩ := (act_acted C w l).exists_shifted k
    rw [hnow, hm.socket]
    refine shift _ _ _ _ hm.shift (fun hl => ?_) h
    rw [← hm.socket]
    exact socket_act_of_teardown hl
  · obtain ⟨hs, hsettled, hdues⟩ := hk k
    rw [hnow, hs]
    exact elapse _ _ _ hsettled hdues h

/-- What becomes of a driver: it goes on a step or stays, ends and releases its link, or comes
about. -/
inductive Turned (now : Nat) (s t : Socket) (j : Nat) : Prop
  | same (h : t.phase j = s.phase j)
  | begun (h : s.phase j = .finished)
  | ended (h : ∀ link, (s.phase j).link? = some link → t.isHeld link = false)
  | step {m : Move} (h : Stepped now j s m) (ht : t = m.socket)

theorem turned_connect (now : Nat) (s : Socket) (j : Nat) : Turned now s s.connect.socket j := by
  by_cases hs : s.state = .closed
  · rcases phase_connect hs j with hj | ⟨-, hj⟩
    · exact .same hj
    · exact .begun hj
  · rw [connect_of_live hs]
    exact .same rfl

theorem turned_discard (now : Nat) (s : Socket) (i j : Nat) :
    Turned now s (s.discard i).socket j := by
  by_cases hij : i = j
  · subst hij
    refine .ended fun link hl => ?_
    simp only [Socket.discard, hl]
    exact isHeld_release s link
  · exact .same (by rw [phase_discard, if_neg hij])

theorem act_turned (C : Consumer σ ι ε) (w : World σ ι ε) (l : Label ι) (k : ChannelKind)
    (j : Nat) : Turned w.now (w.socket k) ((act C w l).socket k) j := by
  have hacted := act_acted C w l
  generalize act C w l = w' at hacted
  generalize news C l w = es at hacted
  have hmove {u : World σ ι ε} {k' : ChannelKind} {m : Move} (hu : ∀ k, u.socket k = w.socket k)
      (hm : Turned w.now (w.socket k') m.socket j) :
      Turned w.now (w.socket k) ((u.settle C k' m).socket k) j := by
    rw [socket_settle]
    split
    · next hk =>
      subst hk
      exact hm
    · rw [hu]
      exact .same rfl
  cases hacted with
  | connect => exact hmove (socket_congr rfl rfl) (turned_connect _ _ j)
  | teardown => exact hmove (socket_congr rfl rfl) (.same (phase_teardown _ _ j))
  | sent _ _ hm =>
    obtain ⟨link, -, -, -, rfl⟩ := send_eq_ok.mp hm
    exact hmove (socket_congr rfl rfl) (.same rfl)
  | @step k' i b m _ _ hm =>
    refine hmove (fun _ => rfl) ?_
    by_cases hij : i = j
    · subst hij
      exact .step (step_stepped hm) rfl
    · exact .same ((step_stepped hm).phase_other hij)
  | discard => exact hmove (socket_congr rfl rfl) (turned_discard _ _ _ j)
  | cancel => exact hmove (fun _ => rfl) (turned_discard _ _ _ j)
  | @reap k' i =>
    refine hmove (fun _ => rfl) (.same ?_)
    rw [reap_socket, phase_modifyDriver _ i fun _ => by rfl]
  | arrive k' | hangUp k' => exact .same (by cases k <;> cases k' <;> rfl)
  | _ => exact .same (by cases k <;> rfl)

/-- A link on which nothing is moved any more has been left to its driver. -/
theorem left_act {j link : Nat} (hlt : link < (w.socket k).links.length)
    (hp : ((w.socket k).phase j).open? = some link)
    (hm : (((act C w l).socket k).phase j).open? ≠ some link) :
    Left link (w.now + closeLimit) (act C w l).now ((act C w l).socket k) := by
  have hnow : (act C w l).now = w.now := by
    refine (now_act C w l).resolve_right ?_
    rintro ⟨ms, -, hk⟩
    rw [(hk k).1] at hm
    exact hm hp
  rw [hnow]
  obtain ⟨m, hshifted⟩ := (act_acted C w l).exists_shifted k
  have hlt' : link < ((act C w l).socket k).links.length := by
    rw [hshifted.socket]
    exact Nat.lt_of_lt_of_le hlt hshifted.shift.length_links_le
  refine ⟨hlt', fun hheld => ?_⟩
  cases act_turned C w l k j with
  | same h =>
    rw [h] at hm
    exact absurd hp hm
  | begun h =>
    rw [h] at hp
    cases hp
  | ended h =>
    rw [h link (Phase.link?_of_open? hp)] at hheld
    cases hheld
  | step h ht =>
    rw [ht] at hm ⊢
    obtain ⟨answer, ha⟩ := h.closing hp hm
    exact ⟨Nat.le_add_right .., j, answer, _, ha, Nat.le_refl _⟩

/-- Something is moved on a link by the driver that runs. -/
theorem running_of_moved {e : Entry ε} {link : Nat} (he : e ∈ news C l w)
    (hl : e.moved? k = some link) :
    ∃ i, w.running = some (k, i) ∧ ((w.socket k).phase i).link? = some link := by
  obtain ⟨h, hh, hmoved⟩ := Option.bind_eq_some_iff.mp hl
  have hacted := act_acted C w l
  generalize act C w l = w' at hacted
  generalize news C l w = es at hacted he
  -- what a move has seen, if it is one of this channel
  have hseen {k' : ChannelKind} {m : Move} (he : e ∈ Entry.ofMove k' m) : k' = k ∧ h ∈ m.seen := by
    have hmem : h ∈ (Entry.ofMove k' m).filterMap (Entry.happening? k) :=
      List.mem_filterMap.mpr ⟨e, he, hh⟩
    by_cases hk : k = k'
    · subst hk
      rw [filterMap_ofMove_self] at hmem
      exact ⟨rfl, hmem⟩
    · obtain rfl := eq_other hk
      rw [filterMap_ofMove_other] at hmem
      cases hmem
  cases hacted with
  | @step k' i b m _ hr hm =>
    obtain ⟨rfl, hmem⟩ := hseen he
    exact ⟨i, hr, (step_stepped hm).moved hmem hmoved⟩
  | connect =>
    have hmem := (hseen he).2
    rw [seen_connect] at hmem
    cases hmem
  | teardown =>
    obtain ⟨record, rfl⟩ := logs_teardown _ _ _ (hseen he).2
    cases hmoved
  | sent _ _ hm =>
    obtain ⟨link, -, -, -, rfl⟩ := send_eq_ok.mp hm
    cases List.mem_singleton.mp (hseen he).2
    cases hmoved
  | discard | cancel =>
    have hmem := (hseen he).2
    rw [seen_discard, Option.mem_toList] at hmem
    obtain ⟨link, -, rfl⟩ := Option.map_eq_some_iff.mp hmem
    cases hmoved
  | reap =>
    cases List.mem_singleton.mp (hseen he).2
    cases hmoved
  | work =>
    obtain ⟨note, -, rfl⟩ := List.mem_map.mp he
    cases hh
  | _ => cases he

/-- A driver that is to end runs on only where it has been running. -/
theorem running_act_of {n i : Nat} (ho : Ousted n (w.socket k)) (hi : i < n)
    (hr : (act C w l).running = some (k, i)) : w.running = some (k, i) := by
  have hacted := act_acted C w l
  generalize act C w l = w' at hacted hr
  generalize news C l w = es at hacted
  cases hacted with
  | connect | teardown | sent | step | cancel | reap =>
    rwa [running_settle] at hr
  | discard =>
    rw [running_settle] at hr
    cases hr
  | stop => cases hr
  | @poll k' j _ _ hf ha =>
    cases hr
    obtain ⟨d, hd⟩ := exists_driver (s := w.socket k) (i := i) fun h => by rw [h] at hf; cases hf
    rw [phase_eq hd] at hf
    rw [isAborted_eq hd, ho i d hd hi hf] at ha
    cases ha
  | arrive k' | hangUp k' => cases k' <;> exact hr
  | _ => exact hr

/-! ### Runs -/

section Run

variable (labels : List (Label ι)) {n m due : Nat}

theorem run_owned (h : Owned (w.socket k)) : Owned ((run C labels w).socket k) :=
  run_timed (P := fun _ s => Owned s) (fun _ _ _ _ hs _ h => h.shift hs) (fun _ _ _ _ _ h => h)
    labels h

theorem run_tended (h : Tended w.now (w.socket k)) :
    Tended (run C labels w).now ((run C labels w).socket k) :=
  run_timed (fun _ _ _ _ hs hd h => h.shift hs hd)
    (fun _ _ ms _ _ h => h.mono (Nat.le_add_right _ ms)) labels h

theorem run_departing (h : Departing n m due w.now (w.socket k)) :
    Departing n m due (run C labels w).now ((run C labels w).socket k) :=
  run_timed (fun _ _ _ _ hs _ h => h.shift hs) (fun _ _ _ hs hd h => h.elapse hs hd) labels h

theorem run_left {link : Nat} (h : Left link due w.now (w.socket k)) :
    Left link due (run C labels w).now ((run C labels w).socket k) :=
  run_timed (fun _ _ _ _ hs _ h => h.shift hs) (fun _ _ _ hs hd h => h.elapse hs hd) labels h

/-- Drivers that are to end remain so. -/
theorem run_ousted (hd : Departing n m due w.now (w.socket k)) (ho : Ousted n (w.socket k)) :
    Ousted n ((run C labels w).socket k) := by
  induction labels generalizing w with
  | nil => exact ho
  | cons l labels ih =>
    obtain ⟨mv, hm⟩ := (act_acted C w l).exists_shifted k
    refine ih (run_departing [l] hd) ?_
    rw [hm.socket]
    exact ho.shift hd.former hd.drivers_le hm.shift

/-- A driver that is to end has run from the beginning if it runs in the end. -/
theorem running_of_run {i : Nat} (hd : Departing n m due w.now (w.socket k))
    (ho : Ousted n (w.socket k)) (hi : i < n) (hr : (run C labels w).running = some (k, i)) :
    w.running = some (k, i) := by
  induction labels generalizing w with
  | nil => exact hr
  | cons l labels ih =>
    exact running_act_of ho hi (ih (run_departing [l] hd) (run_ousted [l] hd ho) hr)

/-- What is moved on a link that is left to its driver is moved before the deadline. -/
theorem moved_le_due (h : Departing n m due w.now (w.socket k)) {u : World σ ι ε} {e : Entry ε}
    {link : Nat} (hu : (u, e) ∈ history C labels w) (he : e.moved? k = some link)
    (hlt : link < m) : u.now ≤ due ∧ ∃ before i, before <+: labels ∧ u = run C before w ∧ i < n ∧
      u.running = some (k, i) := by
  obtain ⟨before, l, after, rfl, rfl, hnews⟩ := mem_history hu
  obtain ⟨i, hr, hl⟩ := running_of_moved hnews he
  obtain ⟨hle, hi⟩ := (run_departing _ h).moved hl hlt
  exact ⟨hle, before, i, List.prefix_append _ _, rfl, hi, hr⟩

/-- A driver that is to end and runs in the end has run all the while. -/
theorem runsOver_of_run {i : Nat} (hd : Departing n m due w.now (w.socket k))
    (ho : Ousted n (w.socket k)) (hi : i < n) (hr : (run C labels w).running = some (k, i)) :
    RunsOver C k i labels w := by
  rintro part ⟨rest, rfl⟩
  rw [run_append] at hr
  exact running_of_run rest (run_departing part hd) (run_ousted part hd ho) hi hr

/-- From the next session on the deadline is its beginning. -/
theorem Departing.reopened (h : Departing n m due w.now (w.socket k))
    (ht : Tended w.now (w.socket k)) (hl : w.session? k l = some true) :
    Departing n m w.now (act C w l).now ((act C w l).socket k) ∧
      Ousted n ((act C w l).socket k) := by
  obtain ⟨mv, hm⟩ := (act_acted C w l).exists_shifted k
  have hshift := hm.shift
  rw [hl] at hshift
  have hc : (w.socket k).state = .closed := by
    cases hshift with
    | connect hc => exact hc
  have ho : Ousted n ((act C w l).socket k) := by
    rw [socket_act_of_connect hl]
    exact fun j d hd hj => ht.ousted hc j d hd (Nat.lt_of_lt_of_le hj h.drivers_le)
  have hd : Departing n m due w.now ((act C w l).socket k) := by
    rw [hm.socket]
    exact h.shift hshift
  refine ⟨?_, ho⟩
  rw [now_act_of_session hl]
  exact hd.oust ho

/-- Nothing is moved then but by the driver that runs, before it has to wait. -/
theorem Departing.replaced (h : Departing n m due w.now (w.socket k))
    (ht : Tended w.now (w.socket k)) (hl : w.session? k l = some true) {u : World σ ι ε}
    {e : Entry ε} {link : Nat} (hu : (u, e) ∈ history C labels (act C w l))
    (he : e.moved? k = some link) (hlt : link < m) :
    u.now = w.now ∧ ∃ i < n, ∃ part, part <+: labels ∧ u = run C (l :: part) w ∧
      RunsOver C k i (l :: part) w := by
  obtain ⟨hd, ho⟩ := Departing.reopened (C := C) h ht hl
  obtain ⟨hle, part, i, hpart, rfl, hi, hr⟩ := moved_le_due _ hd hu he hlt
  have hnow : (act C w l).now = w.now := now_act_of_session hl
  have hge : w.now ≤ (run C part (act C w l)).now :=
    run_timed (k := k) (P := fun now _ => w.now ≤ now) (fun _ _ _ _ _ _ h => h)
      (fun _ _ ms _ _ h => Nat.le_trans h (Nat.le_add_right _ ms)) part (Nat.le_of_eq hnow.symm)
  have hover : RunsOver C k i part (act C w l) := runsOver_of_run part hd ho hi hr
  refine ⟨Nat.le_antisymm hle hge, i, hi, part, hpart, rfl, fun p hp => ?_⟩
  cases p with
  | nil =>
    rw [run_nil, ← running_act_of_session (C := C) hl]
    exact hover [] List.nil_prefix
  | cons l' p =>
    obtain ⟨rfl, hprefix⟩ := List.cons_prefix_cons.mp hp
    exact hover p hprefix

/-- And those that are left have ended when nothing goes on any more. -/
theorem Departing.superseded (h : Departing n m due w.now (w.socket k))
    (ht : Tended w.now (w.socket k)) (ho : Owned (w.socket k)) (hl : w.session? k l = some true)
    (hover : Over w.now (run C (l :: labels) w)) :
    (∀ i < n, (((run C (l :: labels) w).socket k).phase i).isFinished = true) ∧
      ∀ link < m, ((run C (l :: labels) w).socket k).isHeld link = false := by
  have hd : Departing n m w.now (run C (l :: labels) w).now ((run C (l :: labels) w).socket k) :=
    run_departing labels (Departing.reopened h ht hl).1
  have hfinished (i : Nat) (hi : i < n) :
      (((run C (l :: labels) w).socket k).phase i).isFinished = true :=
    hd.finished (hover.socket k) hi
  exact ⟨hfinished, fun link hlt => hd.released (run_owned _ ho) hfinished hlt⟩

theorem Departing.vanishing (h : Departing n m due w.now (w.socket k))
    (ht : Tended w.now (w.socket k)) (ho : Owned (w.socket k)) :
    Vanishing C k n m due labels w where
  moved _ _ _ hu he hlt := (moved_le_due _ h hu he hlt).1
  ended hover _ hi := (run_departing _ h).finished (hover.socket k) hi
  released hover _ hlt := (run_departing _ h).released (run_owned _ ho)
    (fun _ hi => (run_departing _ h).finished (hover.socket k) hi) hlt
  superseded before l after heq hl hover := by
    subst heq
    rw [run_append] at hover ⊢
    exact Departing.superseded after (run_departing before h) (run_tended before ht)
      (run_owned before ho) hl hover
  replaced _ _ _ _ hl _ _ _ hu he hlt :=
    Departing.replaced _ (run_departing _ h) (run_tended _ ht) hl hu he hlt

end Run

/-- Seven seconds after a teardown nothing is moved any more on the links that there were, and their
drivers have ended; when the channel is opened again before, they end at that instant, one that
runs then where it next has to wait. A link that is left for another reason is released within two
seconds. -/
theorem run_departed (C : Consumer σ ι ε) (k : ChannelKind) (live command : Settings)
    (answers : ChannelKind → List (Reply Answer)) (state : σ) (before : List (Label ι))
    (l : Label ι) (after : List (Label ι)) :
    let w := run C before (ofSettings live command answers state)
    let s := w.socket k
    let v := act C w l
    (w.session? k l = some false →
      Vanishing C k s.drivers.length s.links.length (w.now + 7000) after v) ∧
    ∀ i link, (s.phase i).open? = some link → ((v.socket k).phase i).open? ≠ some link →
      Over (w.now + 2000) (run C after v) → ((run C after v).socket k).isHeld link = false := by
  intro w s v
  obtain ⟨settings, script, hk⟩ := socket_ofSettings (ι := ι) (ε := ε) k live command answers state
  have hstart : Tended 0 ((ofSettings live command answers state : World σ ι ε).socket k) := by
    rw [hk]
    exact tended_ofSettings settings script
  have htended : Tended w.now s := run_tended _ hstart
  have howned : Owned s := by
    refine run_owned _ ?_
    rw [hk]
    exact owned_ofSettings settings script
  refine ⟨fun hl => ?_, fun i link hp hm hover => ?_⟩
  · have hv : v.socket k = (s.teardown w.now).socket := socket_act_of_teardown hl
    have hnow : v.now = w.now := now_act_of_session hl
    refine Departing.vanishing _ ?_ ?_ ?_
    · rw [hv, hnow]
      exact htended.departing
    · exact run_tended [l] htended
    · exact run_owned [l] howned
  · have hlt := howned.lt i link (Phase.link?_of_open? hp)
    have hleft : Left link (w.now + closeLimit) v.now (v.socket k) := left_act hlt hp hm
    exact (run_left _ hleft).released (hover.socket k)

/-- A network on which the first write takes four seconds and nothing else is answered. -/
def stalling : ChannelKind → List (Reply Answer) :=
  fun _ => [.now (.ok ⟨fun n => if n = 0 then .after 4000 (.ok ()) else .never, .never⟩)]

/-- A channel that is opened and on which two texts are queued. -/
def queueing : List (Label Unit) :=
  [.call (.connect .live), .proceed false, .poll .live 0, .proceed false, .proceed false,
    .proceed false, .proceed false, .call (.send .live "a" fun _ => ()), .proceed false,
    .proceed false, .call (.send .live "b" fun _ => ()), .proceed false, .proceed false]

/-- The driver writes the one and is aborted while it writes the other. -/
def expiring : List (Label Unit) :=
  [.proceed false, .proceed false, .proceed false, .elapse 4000, .poll .live 0, .proceed false,
    .proceed false, .proceed false, .elapse 3000, .reap .live 0, .poll .live 0]

/-- The driver leaves its link, waits for it to close, and then to connect again. -/
def leaving : List (Label Unit) :=
  [.proceed false, .elapse 2000, .poll .live 0, .proceed false, .proceed false, .proceed false,
    .proceed false, .proceed false]

theorem run_departed_stalling :
    let start : World Unit Unit Unit :=
      ofSettings (plainSettings .live) (plainSettings .command) stalling ()
    let w := run Consumer.idle (queueing ++ [.call (.teardown .live)]) start
    let v := run Consumer.idle (queueing ++ [.hangUp .live 0]) start
    (w.session? .live (.proceed false) = some false ∧ (w.socket .live).links.length = 1 ∧
      Vanishing Consumer.idle .live (w.socket .live).drivers.length (w.socket .live).links.length
        (w.now + 7000) expiring (act Consumer.idle w (.proceed false))) ∧
    ((v.socket .live).phase 0).open? = some 0 ∧
      ((run Consumer.idle leaving (act Consumer.idle v (.proceed false))).socket .live).isHeld 0 =
        false := by
  intro start w v
  have hdown : w.session? .live (.proceed false) = some false := by decide +kernel
  have hopen : ((v.socket .live).phase 0).open? = some 0 := by decide +kernel
  have hleft : (((act Consumer.idle v (.proceed false)).socket .live).phase 0).open? ≠ some 0 := by
    decide +kernel
  have hover :
      v.now + 2000 ≤ (run Consumer.idle leaving (act Consumer.idle v (.proceed false))).now ∧
        (run Consumer.idle leaving (act Consumer.idle v (.proceed false))).isSettled = true := by
    decide +kernel
  have hw := run_departed Consumer.idle .live (plainSettings .live) (plainSettings .command)
    stalling () (queueing ++ [.call (.teardown .live)]) (.proceed false) expiring
  have hv := run_departed Consumer.idle .live (plainSettings .live) (plainSettings .command)
    stalling () (queueing ++ [.hangUp .live 0]) (.proceed false) leaving
  exact ⟨⟨hdown, by decide +kernel, hw.1 hdown⟩, hopen, hv.2 0 0 hopen hleft (.inr hover)⟩

/-- What a program whose handler sends a text and replaces the link asks for when it is given a
message. -/
def replacing : Consumer Unit (Option Callback) Unit where
  hear _ c := some c
  perform _ item _ :=
    match item with
    | some (.message _) =>
      ⟨(), [], [.send .live "bye" fun _ => none, .teardown .live, .connect .live]⟩
    | _ => ⟨(), [], []⟩

/-- The channel is open, a message is read, and the text that the handler sends is queued. -/
def messaging : List (Label (Option Callback)) :=
  [.call (.connect .live), .proceed false, .poll .live 0, .proceed false, .proceed false,
    .proceed false, .proceed false, .proceed false, .arrive .live 0 (.frame (.text "bye?")),
    .poll .live 0, .proceed false, .proceed false, .proceed false, .proceed false]

/-- The callback in which the channel is torn down and opened again is over, and the text is still
written to the old link: the driver that called the handler goes on until it has to wait. -/
theorem written_replacing :
    let w := run replacing messaging
      (ofSettings (plainSettings .live) (plainSettings .command) stalling ())
    let v := run replacing [.proceed false, .proceed false] w
    let u := act replacing v (.proceed false)
    (w.socket .live).state = .opened ∧ w.session? .live (.proceed false) = some false ∧
      (w.socket .live).links.length = 1 ∧ v.session? .live (.proceed false) = some true ∧
        u.agenda.isEmpty = true ∧
          news replacing (.proceed false) u = [.socket .live (.write 0 "bye" .written)] := by
  intro w v u
  exact ⟨rfl, by decide +kernel, by decide +kernel, by decide +kernel, by decide +kernel, rfl⟩

end TwinLink.World
