import TwinLink.Proofs.Manager.Perform
import TwinLink.Proofs.World.Moments

/-! Runs of a manager. Its client asks for something, what is in progress goes on, drivers,
peers and the clock act. What is to be done has a shape: a callback is heard, a channel
opened and a command sent before anything else, so that behind the first tasks there are
only requests, calls of listeners and what a disconnection has left to do. -/

namespace TwinLink.Manager

open Socket World

variable {κ γ τ ν : Type} (C : Client κ γ τ ν)

/-- What happens next. -/
inductive Turn (κ γ : Type) where
  /-- The client asks for something, while no task is in progress. -/
  | ask (r : Request κ γ)
  /-- What is in progress goes on. -/
  | proceed (outboundFirst : Bool)
  | poll (channel : ChannelKind) (driver : Nat)
  | reap (channel : ChannelKind) (driver : Nat)
  | arrive (channel : ChannelKind) (link : Nat) (item : Inbound)
  | hangUp (channel : ChannelKind) (link : Nat)
  | elapse (milliseconds : Nat)

def Turn.label : Turn κ γ → Label (Item κ γ)
  | ask r => .call (request r)
  | proceed outboundFirst => .proceed outboundFirst
  | poll k i => .poll k i
  | reap k i => .reap k i
  | arrive k link item => .arrive k link item
  | hangUp k link => .hangUp k link
  | elapse ms => .elapse ms

/-- A run of a manager. -/
def run (turns : List (Turn κ γ)) (w : System κ γ τ ν) : System κ γ τ ν :=
  World.run (consumer C) (turns.map Turn.label) w

/-- What a run adds to the trace, each entry with the state in which it came about. -/
def history (turns : List (Turn κ γ)) (w : System κ γ τ ν) :
    List (System κ γ τ ν × Entry (Note ν κ)) :=
  World.history (consumer C) (turns.map Turn.label) w

/-- The tasks that are done in a run. -/
def done (turns : List (Turn κ γ)) (w : System κ γ τ ν) : List (Task (Item κ γ)) :=
  (moments (consumer C) (turns.map Turn.label) w).filterMap fun (v, l) => v.performed l

/-- What may wait behind the task that is next. -/
def isCalm : Task (Item κ γ) → Bool
  | .teardown _ | .work (.request _) | .work (.call ..) | .work .discardLatest => true
  | _ => false

/-- A callback is to be heard. -/
def isHeard : Task (Item κ γ) → Bool
  | .work (.heard ..) => true
  | _ => false

theorem not_heard_of_calm {t : Task (Item κ γ)} (h : isCalm t = true) : isHeard t = false := by
  cases t with
  | work item => cases item <;> simp_all [isCalm, isHeard]
  | _ => rfl

/-- The shape of what is to be done. -/
inductive Shaped : List (Task (Item κ γ)) → Prop where
  | calm {tasks} (h : ∀ t ∈ tasks, isCalm t = true) : Shaped tasks
  /-- Only a change of status is heard while something else is to be done. -/
  | heard (k : ChannelKind) (c : Callback) {tasks} (h : ∀ t ∈ tasks, isCalm t = true)
      (hc : tasks ≠ [] → ∃ b, c = .status b) : Shaped (.work (.heard k c) :: tasks)
  | connects {tasks} (h : ∀ t ∈ tasks, isCalm t = true) :
      Shaped (.connect .live :: .connect .command :: tasks)
  | connect {tasks} (h : ∀ t ∈ tasks, isCalm t = true) : Shaped (.connect .command :: tasks)
  | send {c : Command} {text : String} (he : c.encode = .ok text) {tasks}
      (h : ∀ t ∈ tasks, isCalm t = true) : Shaped (.send .command text (.sent c) :: tasks)
  | sent (c : Command) (result : Except LinkError Unit) {tasks}
      (h : ∀ t ∈ tasks, isCalm t = true) : Shaped (.work (.sent c result) :: tasks)

theorem Shaped.tail {t : Task (Item κ γ)} {tasks : List (Task (Item κ γ))}
    (h : Shaped (t :: tasks)) (ht : t ≠ .connect .live) : ∀ t ∈ tasks, isCalm t = true := by
  cases h with
  | calm h => exact fun t ht => h t (List.mem_cons_of_mem _ ht)
  | connects h => exact absurd rfl ht
  | heard _ _ h _ | connect h | send _ h | sent _ _ h => exact h

/-- Nothing is heard later than next. -/
theorem Shaped.tail_not_heard {t : Task (Item κ γ)} {tasks : List (Task (Item κ γ))}
    (h : Shaped (t :: tasks)) : ∀ t' ∈ tasks, isHeard t' = false := by
  intro t' ht'
  by_cases ht : t = .connect .live
  · subst ht
    cases h with
    | calm h => exact not_heard_of_calm (h t' (List.mem_cons_of_mem _ ht'))
    | connects h =>
      rcases List.mem_cons.mp ht' with rfl | ht'
      · rfl
      · exact not_heard_of_calm (h t' ht')
  · exact not_heard_of_calm (h.tail ht t' ht')

/-- What is read is heard while nothing else is to be done. -/
theorem Shaped.of_heard {k : ChannelKind} {c : Callback} {tasks : List (Task (Item κ γ))}
    (h : Shaped (.work (.heard k c) :: tasks)) (hc : ∀ b, c ≠ .status b) : tasks = [] := by
  cases h with
  | calm h => simp [isCalm] at h
  | heard _ _ h hstatus =>
    by_cases ht : tasks = []
    · exact ht
    · obtain ⟨b, hb⟩ := hstatus ht
      exact absurd hb (hc b)

/-- Only encoded commands are sent, and what becomes of them is told. -/
theorem Shaped.of_send {k : ChannelKind} {text : String} {reply : Except LinkError Unit → Item κ γ}
    {tasks : List (Task (Item κ γ))} (h : Shaped (.send k text reply :: tasks)) :
    ∃ c : Command, k = .command ∧ reply = .sent c ∧ c.encode = .ok text := by
  cases h with
  | calm h => simp [isCalm] at h
  | send he _ => exact ⟨_, rfl, rfl, he⟩

theorem shaped_requests {tasks : List (Task (Item κ γ))} (requests : List (Request κ γ))
    (h : ∀ t ∈ tasks, isCalm t = true) :
    Shaped ((requests.map fun request => .work (.request request)) ++ tasks) := by
  refine .calm fun t ht => ?_
  rcases List.mem_append.mp ht with ht | ht
  · obtain ⟨r, -, rfl⟩ := List.mem_map.mp ht
    rfl
  · exact h t ht

theorem shaped_calls {tasks : List (Task (Item κ γ))} (emission : Option Nat) (r : Roster κ)
    (e : Event) (h : ∀ t ∈ tasks, isCalm t = true) :
    Shaped ((r.entries.map fun l => .work (.call emission l.1 l.2 e)) ++ tasks) := by
  refine .calm fun t ht => ?_
  rcases List.mem_append.mp ht with ht | ht
  · obtain ⟨l, -, rfl⟩ := List.mem_map.mp ht
    rfl
  · exact h t ht

theorem Performed.shaped {C : Client κ γ τ ν} {v : World.View} {s : State κ τ} {item : Item κ γ}
    {o : Outcome (State κ τ) (Item κ γ) (Note ν κ)} (hp : Performed C v s item o)
    {tasks : List (Task (Item κ γ))} (h : ∀ t ∈ tasks, isCalm t = true) :
    Shaped (o.next ++ tasks) := by
  cases hp with
  | changed | received => exact shaped_calls _ _ _ h
  | consulted | called => exact shaped_requests _ h
  | connect => exact .connects h
  | encoded he => exact .send he h
  | _ => exact .calm (by simpa [onHub, conclude, isCalm] using h)

/-- Only sockets make a manager hear something. -/
theorem Performed.not_heard {C : Client κ γ τ ν} {v : World.View} {s : State κ τ} {item : Item κ γ}
    {o : Outcome (State κ τ) (Item κ γ) (Note ν κ)} (hp : Performed C v s item o) :
    ∀ t ∈ o.next, isHeard t = false := by
  intro t ht
  cases hp with
  | changed | received =>
    obtain ⟨l, -, rfl⟩ := List.mem_map.mp ht
    rfl
  | consulted | called =>
    obtain ⟨r, -, rfl⟩ := List.mem_map.mp ht
    rfl
  | connect | disconnect | release | encoded | subscribed | watched =>
    simp only [onHub, List.mem_cons, List.not_mem_nil, or_false] at ht
    rcases ht with rfl | rfl | rfl <;> rfl
  | _ => cases ht

theorem shaped_hearing (k : ChannelKind) {c : Option Callback} {tasks : List (Task (Item κ γ))}
    (h : ∀ t ∈ tasks, isCalm t = true) (hc : tasks ≠ [] → ∀ c' ∈ c, ∃ b, c' = .status b) :
    Shaped (hearing (consumer C) k c ++ tasks) := by
  cases c with
  | none => exact .calm h
  | some c => exact .heard k c h fun ht => hc ht c rfl

theorem callback_teardown {now : Nat} {s : Socket} {c : Callback}
    (h : c ∈ (s.teardown now).callback) : s.announced = true ∧ c = .status false := by
  obtain ⟨ha, hc⟩ := Option.ite_none_right_eq_some.mp h
  exact ⟨ha, (Option.some.inj hc).symm⟩

/-- The driver that runs, if any, has to wait. -/
def Resting (w : System κ γ τ ν) : Prop :=
  ∀ k i, w.running = some (k, i) → ∃ b, (w.socket k).step w.now b i = none

/-- What becomes of a socket when one of its drivers goes on or is ended. -/
inductive Driven (w : System κ γ τ ν) (k : ChannelKind) : Move → Prop where
  | step {i m} (hr : w.running = some (k, i)) (h : Stepped w.now i (w.socket k) m) : Driven w k m
  | discard {i} (h : (w.socket k).isAborted i = true) (hr : Resting w) :
      Driven w k ((w.socket k).discard i)
  | reap {i} (h : (w.socket k).isReapDue w.now i = true) (hr : Resting w) :
      Driven w k ((w.socket k).reap i)

/-- What a turn does to a manager: the task that it does, if any, and what that adds to the
trace. Only `work` changes the state of the manager. -/
inductive Took (C : Client κ γ τ ν) (w w' : System κ γ τ ν) :
    Turn κ γ → Option (Task (Item κ γ)) → List (Entry (Note ν κ)) → Prop where
  /-- It is not concerned; a peer may have changed a link, or a driver gets to run. -/
  | outside {t} (hs : w'.state = w.state) (ha : w'.agenda = w.agenda)
      (hk : ∀ k, Shift (w.socket k) none (.silent (w'.socket k)) ∧
        ∃ links, w'.socket k = { w.socket k with links })
      (hr : w'.running = w.running ∨ Resting w ∧ ∀ k i, w'.running = some (k, i) →
        (w.socket k).isAborted i = false) : Took C w w' t none []
  | ask (r : Request κ γ) (ha : w.agenda = []) (hw : w' = { w with agenda := [request r] }) :
      Took C w w' (.ask r) none []
  | work {t item rest o} (ha : w.agenda = .work item :: rest)
      (hp : Performed C w.view w.state item o)
      (hw : w' = { w.record (o.notes.map .note) with state := o.state, agenda := o.next ++ rest }) :
      Took C w w' t (some (.work item)) (o.notes.map .note)
  | connect {t k rest} (ha : w.agenda = .connect k :: rest)
      (hw : w' = { w with agenda := rest }.settle (consumer C) k (w.socket k).connect) :
      Took C w w' t (some (.connect k)) (Entry.ofMove k (w.socket k).connect)
  | teardown {t k rest} (ha : w.agenda = .teardown k :: rest)
      (hw : w' = { w with agenda := rest }.settle (consumer C) k ((w.socket k).teardown w.now)) :
      Took C w w' t (some (.teardown k)) (Entry.ofMove k ((w.socket k).teardown w.now))
  | sent {t c text rest m} (ha : w.agenda = .send .command text (.sent c) :: rest)
      (he : c.encode = .ok text) (hm : w.command.send text = .ok m)
      (hw : w' = { w with agenda := .work (Item.sent c (.ok ())) :: rest }.settle (consumer C)
        .command m) :
      Took C w w' t (some (.send .command text (.sent c))) (Entry.ofMove .command m)
  | refused {t c text rest e} (ha : w.agenda = .send .command text (.sent c) :: rest)
      (he : c.encode = .ok text) (hm : w.command.send text = .error e)
      (hw : w' = { w with agenda := .work (.sent c (.error e)) :: rest }) :
      Took C w w' t (some (.send .command text (.sent c))) []
  /-- A driver goes on, or is ended. -/
  | drive {t u k m} (ha : w.agenda = []) (hd : Driven w k m)
      (hu : u = w ∨ u = { w with running := none }) (hw : w' = u.settle (consumer C) k m) :
      Took C w w' t none (Entry.ofMove k m)

theorem took {w : System κ γ τ ν} (h : Shaped w.agenda) (t : Turn κ γ) :
    Took C w (World.act (consumer C) w t.label) t (w.performed t.label)
      (news (consumer C) t.label w) := by
  have hacted := act_acted (consumer C) w t.label
  generalize World.act (consumer C) w t.label = w' at hacted ⊢
  generalize news (consumer C) t.label w = es at hacted ⊢
  have hlinks (k : ChannelKind) : Shift (w.socket k) none (.silent (w.socket k)) ∧
      ∃ links, w.socket k = { w.socket k with links } :=
    ⟨.stay, (w.socket k).links, rfl⟩
  -- nobody runs, so nobody has to wait
  have hfree (hr : w.running = none) : Resting w := fun k i h => by cases hr.symm.trans h
  have hwait {k : ChannelKind} {i : Nat} {b : Bool} (hr : w.running = some (k, i))
      (hm : (w.socket k).step w.now b i = none) : Resting w := fun k' j h => by
    cases hr.symm.trans h
    exact ⟨b, hm⟩
  have hdone {task : Task (Item κ γ)} {rest : List (Task (Item κ γ))} (b : Bool)
      (ha : w.agenda = task :: rest) : w.performed (.proceed b) = some task := by
    rw [performed, ha]
    rfl
  have hnone (b : Bool) (ha : w.agenda = []) : w.performed (.proceed b) = none := by
    rw [performed, ha]
    rfl
  cases t with
  | ask r =>
    cases hacted with
    | stay => exact .outside rfl rfl hlinks (.inl rfl)
    | call _ ha => exact .ask r ha rfl
  | poll k i =>
    cases hacted with
    | stay => exact .outside rfl rfl hlinks (.inl rfl)
    | poll _ hr _ hn =>
      refine .outside rfl rfl (fun k => by cases k <;> exact hlinks _) (.inr ⟨hfree hr, ?_⟩)
      rintro k' i' h
      obtain ⟨rfl, rfl⟩ := Prod.mk.inj (Option.some.inj h)
      exact hn
    | cancel ha hr hd => exact .drive ha (.discard hd (hfree hr)) (.inl rfl) rfl
  | reap k i =>
    cases hacted with
    | stay => exact .outside rfl rfl hlinks (.inl rfl)
    | reap ha hr hd => exact .drive ha (.reap hd (hfree hr)) (.inl rfl) rfl
  | arrive k link item =>
    cases hacted with
    | stay => exact .outside rfl rfl hlinks (.inl rfl)
    | arrive =>
      refine .outside (by cases k <;> rfl) (by cases k <;> rfl)
        (fun k' => by
          cases k <;> cases k' <;> first | exact hlinks _ | exact ⟨.arrive link item, _, rfl⟩)
        (.inl (by cases k <;> rfl))
  | hangUp k link =>
    cases hacted with
    | stay => exact .outside rfl rfl hlinks (.inl rfl)
    | hangUp =>
      refine .outside (by cases k <;> rfl) (by cases k <;> rfl)
        (fun k' => by
          cases k <;> cases k' <;> first | exact hlinks _ | exact ⟨.hangUp link, _, rfl⟩)
        (.inl (by cases k <;> rfl))
  | elapse ms =>
    cases hacted with
    | stay => exact .outside rfl rfl hlinks (.inl rfl)
    | elapse => exact .outside rfl rfl (fun k => by cases k <;> exact hlinks _) (.inl rfl)
  | proceed b =>
    simp only [Turn.label] at hacted ⊢
    cases hacted with
    | stay hn =>
      rw [hn]
      exact .outside rfl rfl hlinks (.inl rfl)
    | work _ ha ho =>
      cases ho
      rw [hdone b ha]
      exact .work ha (perform_performed C w.view _ w.state) rfl
    | connect _ ha =>
      rw [hdone b ha]
      exact .connect ha rfl
    | teardown _ ha =>
      rw [hdone b ha]
      exact .teardown ha rfl
    | sent _ ha hm =>
      obtain ⟨c, rfl, rfl, he⟩ := Shaped.of_send (ha ▸ h)
      rw [hdone b ha]
      exact .sent ha he hm rfl
    | refused _ ha hm =>
      obtain ⟨c, rfl, rfl, he⟩ := Shaped.of_send (ha ▸ h)
      rw [hdone b ha]
      exact .refused ha he hm rfl
    | step ha hr hm =>
      rw [hnone b ha]
      exact .drive ha (.step hr (step_stepped hm)) (.inl rfl) rfl
    | stop ha hr hm =>
      rw [hnone b ha]
      exact .outside rfl rfl (fun k => by cases k <;> exact hlinks _)
        (.inr ⟨hwait hr hm, by simp⟩)
    | discard ha hr hm hd =>
      rw [hnone b ha]
      exact .drive ha (.discard hd (hwait hr hm)) (.inr rfl) rfl

theorem Took.shaped {C : Client κ γ τ ν} {w w' : System κ γ τ ν} {t : Turn κ γ}
    {done : Option (Task (Item κ γ))} {es : List (Entry (Note ν κ))} (ht : Took C w w' t done es)
    (h : Shaped w.agenda) : Shaped w'.agenda := by
  cases ht with
  | outside _ ha => rw [ha]; exact h
  | ask r _ hw => rw [hw]; exact .calm (by simp [isCalm, request])
  | work ha hp hw =>
    rw [ha] at h
    rw [hw]
    exact hp.shaped (h.tail (by simp))
  | @connect _ k rest ha hw =>
    rw [ha] at h
    rw [hw, agenda_settle, callback_connect]
    cases h with
    | calm h => simp [isCalm] at h
    | connects h => exact .connect h
    | connect h => exact .calm h
  | teardown ha hw =>
    rw [ha] at h
    rw [hw, agenda_settle]
    exact shaped_hearing C _ (h.tail (by simp)) fun _ c hc => ⟨false, (callback_teardown hc).2⟩
  | sent ha he hm hw =>
    rw [ha] at h
    rw [hw, agenda_settle, send_callback hm]
    exact .sent _ _ (h.tail (by simp))
  | refused ha he hm hw =>
    rw [ha] at h
    rw [hw]
    exact .sent _ _ (h.tail (by simp))
  | @drive _ u k m ha hd hu hw =>
    have hu' : u.agenda = [] := by rcases hu with rfl | rfl <;> exact ha
    rw [hw, agenda_settle, hu']
    exact shaped_hearing C _ (by simp) (by simp)

/-! ### Where a run starts -/

section Start

variable (c : Config) (live command : List (Reply Answer)) (client : τ)

theorem agenda_ofConfig :
    (ofConfig c live command client : System κ γ τ ν).agenda = [] := by
  unfold ofConfig
  split <;> rfl

theorem state_ofConfig :
    (ofConfig c live command client : System κ γ τ ν).state = ⟨.empty, client⟩ := by
  unfold ofConfig
  split <;> rfl

theorem socket_ofConfig (k : ChannelKind) : ∃ settings script,
    (ofConfig c live command client : System κ γ τ ν).socket k = .ofSettings settings script := by
  unfold ofConfig
  split <;> cases k <;> exact ⟨_, _, rfl⟩

theorem shaped_ofConfig :
    Shaped (ofConfig c live command client : System κ γ τ ν).agenda := by
  rw [agenda_ofConfig]
  exact .calm (by simp)

end Start

/-! ### Invariants -/

/-- What is kept by whatever a turn does, given the tasks done before and the history, a run
keeps. -/
theorem run_invariant
    {P : List (Task (Item κ γ)) → List (System κ γ τ ν × Entry (Note ν κ)) → System κ γ τ ν → Prop}
    (step : ∀ tasks past w w' t done es, Shaped w.agenda → Took C w w' t done es →
      (∀ k, ∃ b m, Shifted w w' es k b m) → P tasks past w →
      P (tasks ++ done.toList) (past ++ es.map (w, ·)) w')
    (turns : List (Turn κ γ)) (w : System κ γ τ ν) (hs : Shaped w.agenda) (h : P [] [] w) :
    P (done C turns w) (history C turns w) (run C turns w) := by
  have hrun := moments_invariant (consumer C) (P := fun ms w => Shaped w.agenda ∧
      P (ms.filterMap fun (v, l) => v.performed l)
        (ms.flatMap fun (v, l) => (news (consumer C) l v).map (v, ·)) w)
    (turns.map Turn.label) (fun past w l hl h => ?_) [] w ⟨hs, h⟩
  · exact hrun.2
  · obtain ⟨t, -, rfl⟩ := List.mem_map.mp hl
    have ht := took C h.1 t
    refine ⟨ht.shaped h.1, ?_⟩
    have := step _ _ w _ _ _ _ h.1 ht
      (fun k => ⟨_, (act_acted (consumer C) w t.label).exists_shifted k⟩) h.2
    rw [List.filterMap_append, List.flatMap_append]
    cases hp : w.performed t.label <;> simpa [hp] using this

theorem run_shaped (turns : List (Turn κ γ)) (w : System κ γ τ ν) (h : Shaped w.agenda) :
    Shaped (run C turns w).agenda :=
  run_invariant C (P := fun _ _ w => Shaped w.agenda)
    (fun _ _ _ _ _ _ _ h ht _ _ => ht.shaped h) turns w h h

end TwinLink.Manager
