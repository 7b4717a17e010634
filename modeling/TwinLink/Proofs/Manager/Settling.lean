import TwinLink.Proofs.Manager.Connectivity

/-! A manager whose client asks for nothing in return comes to rest. Every task costs more than
what it gives rise to, as long as an emission goes to one listener at most, so what is asked of the
manager is done after a few tasks. Meanwhile every command that it was handed is either concluded
and counted or about to be. -/

namespace TwinLink.Manager

open Socket World

variable {κ γ τ ν : Type} {C : Client κ γ τ ν}

/-- A client that asks for nothing, whatever it hears. -/
def Silent (C : Client κ γ τ ν) : Prop := ∀ v h item s, (C.perform v h item s).requests = []

def isRegistration : Request κ γ → Bool
  | .subscribe .. | .watch .. => true
  | _ => false

/-- A bound on the tasks that a task comes to, itself included. -/
def cost : Task (Item κ γ) → Nat
  | .work (.request .connect) | .work (.request (.send _)) => 3
  | .work (.request .disconnect) => 8
  | .work (.request .release) => 7
  | .work (.heard ..) => 2
  | .work _ => 1
  | .connect _ => 1
  | .teardown _ => 3
  | .send .. => 2

/-- What tasks cost together. -/
def bill : List (Task (Item κ γ)) → Nat
  | [] => 0
  | t :: tasks => cost t + bill tasks

/-- A channel is about to be opened. -/
def isOpening : Task (Item κ γ) → Bool
  | .connect _ | .work (.request .connect) => true
  | _ => false

/-- The command that a task is to hand over or to conclude. -/
def command? : Task (Item κ γ) → Option Command
  | .work (.request (.send c)) | .work (.sent c _) => some c
  | .send _ _ reply =>
    match reply (.ok ()) with
    | .sent c _ => some c
    | _ => none
  | _ => none

def Entry.concluded? : Entry (Note ν κ) → Option Command
  | .note (.finished c _) => some c
  | _ => none

/-- The commands that have been sent or dropped. -/
def concluded (trace : List (Nat × Entry (Note ν κ))) : List Command :=
  trace.filterMap fun e => Entry.concluded? e.2

/-- A manager with one listener at most for every kind of event, which has been handed the
commands `cs`. -/
structure Attending (cs : List Command) (w : System κ γ τ ν) : Prop where
  shaped : Shaped w.agenda
  synced : Synced w
  snapshots : w.state.hub.snapshots.entries.length ≤ 1
  listeners : ∀ k, (w.state.hub.listeners k).entries.length ≤ 1
  registered : ∀ r, request r ∈ w.agenda → isRegistration r = false
  handed : concluded w.trace ++ w.agenda.filterMap command? = cs
  counted : w.state.hub.tally.sent + w.state.hub.tally.dropped = (concluded w.trace).length

@[simp] theorem bill_nil : bill ([] : List (Task (Item κ γ))) = 0 := rfl

@[simp] theorem bill_cons (t : Task (Item κ γ)) (tasks : List (Task (Item κ γ))) :
    bill (t :: tasks) = cost t + bill tasks := rfl

@[simp] theorem bill_append (p q : List (Task (Item κ γ))) : bill (p ++ q) = bill p + bill q := by
  induction p with
  | nil => simp
  | cons t p ih => simp [ih, Nat.add_assoc]

theorem bill_hearing (k : ChannelKind) (c : Option Callback) :
    bill (hearing (consumer C) k c) ≤ 2 := by
  cases c
  · exact Nat.zero_le 2
  · exact Nat.le_refl 2

theorem bill_calls (emission : Option Nat) (r : Roster κ) (e : Event) :
    bill (r.entries.map fun l => (.work (.call emission l.1 l.2 e) : Task (Item κ γ))) =
      r.entries.length := by
  induction r.entries with
  | nil => rfl
  | cons l entries ih =>
    rw [List.map_cons, bill_cons, ih, List.length_cons]
    exact Nat.add_comm 1 _

theorem command?_hearing (k : ChannelKind) (c : Option Callback) :
    (hearing (consumer C) k c).filterMap command? = [] := by
  cases c <;> rfl

theorem concluded_append (trace : List (Nat × Entry (Note ν κ))) (now : Nat)
    (es : List (Entry (Note ν κ))) : concluded (trace ++ es.map (now, ·)) =
      concluded trace ++ es.filterMap Entry.concluded? := by
  rw [concluded, List.filterMap_append, List.filterMap_map]
  rfl

theorem concluded_ofMove (k : ChannelKind) (m : Move) :
    (Entry.ofMove (ε := Note ν κ) k m).filterMap Entry.concluded? = [] := by
  cases hc : m.callback <;> simp [Entry.ofMove, hc, Entry.concluded?]

section Step

variable {w w' : System κ γ τ ν} {t : Turn κ γ} {done : Option (Task (Item κ γ))}
  {es : List (Entry (Note ν κ))} {cs : List Command}

theorem Silent.next (hC : Silent C) (v : View) (item : γ) (notes : List (Note ν κ))
    (s : State κ τ) : (consult C v item notes s).next = [] := by
  rw [consult, hC]
  rfl

/-- An item costs more than what comes of it. -/
theorem Performed.bill_lt {v : View} {s : State κ τ} {item : Item κ γ}
    {o : Outcome (State κ τ) (Item κ γ) (Note ν κ)} (hC : Silent C) (hp : Performed C v s item o)
    (hs : s.hub.snapshots.entries.length ≤ 1) (hl : ∀ k, (s.hub.listeners k).entries.length ≤ 1)
    (hr : ∀ r, item = .request r → isRegistration r = false) :
    bill o.next < cost (.work item) := by
  cases hp with
  | @changed k b =>
    rw [emit, onHub, bill_calls]
    exact Nat.lt_succ_of_le (hl k)
  | received =>
    rw [emit, onHub, bill_calls]
    exact Nat.lt_succ_of_le hs
  | consulted | called =>
    rw [hC.next]
    exact Nat.one_pos
  | subscribed | watched => cases hr _ rfl
  | _ => simp [onHub, conclude, cost]

/-- An item concludes a command or leaves it to what comes of it. -/
theorem Performed.handed {v : View} {s : State κ τ} {item : Item κ γ}
    {o : Outcome (State κ τ) (Item κ γ) (Note ν κ)} (hC : Silent C) (hp : Performed C v s item o) :
    (o.notes.map Entry.note).filterMap Entry.concluded? ++ o.next.filterMap command? =
        (command? (.work item)).toList ∧
      o.state.hub.tally.sent + o.state.hub.tally.dropped = s.hub.tally.sent + s.hub.tally.dropped +
        ((o.notes.map Entry.note).filterMap Entry.concluded?).length := by
  cases hp with
  | consulted | called =>
    rw [hC.next]
    simp [consult, Entry.concluded?, command?]
  | @changed k b => cases k <;> simp [emit, onHub, Entry.concluded?, command?, Hub.setConnected]
  | received => simp [emit, onHub, Entry.concluded?, command?]
  | @unencoded c e => exact ⟨rfl, Tally.total_count (.error e) s.hub.tally⟩
  | sent c result => cases result <;> exact ⟨rfl, Tally.total_count _ s.hub.tally⟩
  | watched k => cases k <;> simp [onHub, Entry.concluded?, command?, Hub.watch]
  | _ => simp [onHub, Entry.concluded?, command?, Hub.subscribe, Hub.unsubscribe]

/-- No listener is added but for a registration. -/
theorem Performed.rosters {v : View} {s : State κ τ} {item : Item κ γ}
    {o : Outcome (State κ τ) (Item κ γ) (Note ν κ)} (hp : Performed C v s item o)
    (hr : ∀ r, item = .request r → isRegistration r = false) :
    o.state.hub.snapshots.entries.length ≤ s.hub.snapshots.entries.length ∧
      ∀ k, (o.state.hub.listeners k).entries.length ≤ (s.hub.listeners k).entries.length := by
  cases hp with
  | subscribed | watched => cases hr _ rfl
  | unsubscribed id =>
    refine ⟨List.length_filter_le .., fun k => ?_⟩
    cases k <;> exact List.length_filter_le ..
  | @changed k' =>
    refine ⟨by cases k' <;> exact Nat.le_refl _, fun k => ?_⟩
    cases k <;> cases k' <;> exact Nat.le_refl _
  | _ => exact ⟨Nat.le_refl _, fun k => by cases k <;> exact Nat.le_refl _⟩

/-- Nothing is asked for but in return for a registration. -/
theorem Performed.unasked {v : View} {s : State κ τ} {item : Item κ γ}
    {o : Outcome (State κ τ) (Item κ γ) (Note ν κ)} (hC : Silent C) (hp : Performed C v s item o)
    (hr : ∀ r, item = .request r → isRegistration r = false) (r : Request κ γ) :
    request r ∉ o.next := by
  cases hp with
  | consulted | called =>
    rw [hC.next]
    exact List.not_mem_nil
  | subscribed | watched => cases hr _ rfl
  | _ => simp [emit, onHub, conclude, request]

theorem Performed.unopened {v : View} {s : State κ τ} {item : Item κ γ}
    {o : Outcome (State κ τ) (Item κ γ) (Note ν κ)} (hC : Silent C) (hp : Performed C v s item o)
    (hi : isOpening (.work item) = false) : ∀ t ∈ o.next, isOpening t = false := by
  cases hp with
  | consulted | called =>
    rw [hC.next]
    exact List.forall_mem_nil _
  | connect => cases hi
  | changed | received =>
    intro t ht
    obtain ⟨l, -, rfl⟩ := List.mem_map.mp ht
    rfl
  | _ => simp [onHub, conclude, isOpening]

theorem not_mem_hearing (r : Request κ γ) (k : ChannelKind) (c : Option Callback) :
    request r ∉ hearing (consumer C) k c := by
  cases c <;> simp [hearing, request, consumer]

theorem unopened_hearing (k : ChannelKind) (c : Option Callback) :
    ∀ t ∈ hearing (consumer C) k c, isOpening t = false := by
  cases c <;> simp [hearing, consumer, isOpening]

/-- What is done next on account of a task is less than the task, asks for nothing and is about the
same command, unless that is concluded. -/
structure Yields (task : Task (Item κ γ)) (es : List (Entry (Note ν κ)))
    (next : List (Task (Item κ γ))) : Prop where
  cheaper : bill next < cost task
  unasked : ∀ r, request r ∉ next
  unopened : isOpening task = false → ∀ t ∈ next, isOpening t = false
  handed : es.filterMap Entry.concluded? ++ next.filterMap command? = (command? task).toList

theorem Attending.not_registration (h : Attending cs w) {item : Item κ γ}
    {rest : List (Task (Item κ γ))} (ha : w.agenda = .work item :: rest) (r : Request κ γ)
    (hr : item = .request r) : isRegistration r = false :=
  h.registered r (by rw [ha, hr]; exact List.mem_cons_self)

theorem Took.yields (hC : Silent C) (h : Attending cs w) {task : Task (Item κ γ)}
    (ht : Took C w w' t (some task) es) :
    ∃ next rest, w.agenda = task :: rest ∧ w'.agenda = next ++ rest ∧ Yields task es next := by
  cases ht with
  | @work _ item rest o ha hp hw =>
    have hr := h.not_registration ha
    exact ⟨o.next, rest, ha, by rw [hw], hp.bill_lt hC h.snapshots h.listeners hr,
      hp.unasked hC hr, hp.unopened hC, (hp.handed hC).1⟩
  | @connect _ k rest ha hw =>
    refine ⟨[], rest, ha, by rw [hw, agenda_settle, callback_connect]; rfl, Nat.one_pos,
      fun _ => List.not_mem_nil, fun _ => List.forall_mem_nil _, ?_⟩
    rw [concluded_ofMove]
    rfl
  | @teardown _ k rest ha hw =>
    refine ⟨_, rest, ha, by rw [hw, agenda_settle], Nat.lt_succ_of_le (bill_hearing (C := C) k _),
      fun r => not_mem_hearing r k _, fun _ => unopened_hearing k _, ?_⟩
    rw [concluded_ofMove, command?_hearing]
    rfl
  | @sent _ c text rest m ha _ hm hw =>
    refine ⟨[.work (.sent c (.ok ()))], rest, ha,
      by rw [hw, agenda_settle, send_callback hm]; rfl, Nat.lt_succ_self 1, by simp [request],
      by simp [isOpening], ?_⟩
    rw [concluded_ofMove]
    rfl
  | @refused _ c text rest e ha _ hm hw =>
    exact ⟨[.work (.sent c (.error e))], rest, ha, by rw [hw]; rfl, Nat.lt_succ_self 1,
      by simp [request], by simp [isOpening], rfl⟩

theorem Took.bill_lt (hC : Silent C) (h : Attending cs w) {task : Task (Item κ γ)}
    (ht : Took C w w' t (some task) es) : bill w'.agenda < bill w.agenda := by
  obtain ⟨next, rest, ha, hagenda, hy⟩ := ht.yields hC h
  rw [ha, hagenda, bill_append, bill_cons]
  exact Nat.add_lt_add_right hy.cheaper _

/-- The state of the manager changes with what is performed only. -/
theorem Took.performed (ht : Took C w w' t done es) :
    (w'.state = w.state ∧ es.filterMap Entry.concluded? = []) ∨
      ∃ item rest o, w.agenda = .work item :: rest ∧ Performed C w.view w.state item o ∧
        w'.state = o.state ∧ es = o.notes.map .note := by
  cases ht with
  | outside hs => exact .inl ⟨hs, rfl⟩
  | ask _ _ hw => exact .inl ⟨by rw [hw], rfl⟩
  | @work _ item rest o ha hp hw => exact .inr ⟨item, rest, o, ha, hp, by rw [hw], rfl⟩
  | connect _ hw | teardown _ hw | sent _ _ _ hw =>
    exact .inl ⟨by rw [hw, state_settle], concluded_ofMove _ _⟩
  | refused _ _ _ hw => exact .inl ⟨by rw [hw], rfl⟩
  | drive _ _ hu hw =>
    exact .inl ⟨by rw [hw, state_settle]; rcases hu with rfl | rfl <;> rfl, concluded_ofMove _ _⟩

/-- What is to be done and what has been concluded, when nothing is asked for. -/
theorem Took.outstanding (hC : Silent C) (h : Attending cs w) (ht : Took C w w' t done es)
    (hn : ∀ r, t ≠ .ask r) :
    es.filterMap Entry.concluded? ++ w'.agenda.filterMap command? =
        w.agenda.filterMap command? ∧
      ∀ r, request r ∈ w'.agenda → request r ∈ w.agenda := by
  cases done with
  | some task =>
    obtain ⟨next, rest, ha, hagenda, hy⟩ := ht.yields hC h
    rw [ha, hagenda]
    refine ⟨?_, fun r hr => ?_⟩
    · rw [List.filterMap_append, ← List.append_assoc, hy.handed]
      cases ho : command? task <;> simp [ho]
    · exact List.mem_cons_of_mem _ ((List.mem_append.mp hr).resolve_left (hy.unasked r))
  | none =>
    cases ht with
    | outside _ ha =>
      rw [ha]
      exact ⟨rfl, fun _ hr => hr⟩
    | ask r => exact absurd rfl (hn r)
    | @drive _ u k m ha _ hu hw =>
      have hu' : u.agenda = [] := by rcases hu with rfl | rfl <;> exact ha
      rw [hw, agenda_settle, hu', List.append_nil, concluded_ofMove, command?_hearing, ha]
      exact ⟨rfl, fun r hr => absurd hr (not_mem_hearing r k _)⟩

theorem Took.attending (hC : Silent C) (h : Attending cs w) (ht : Took C w w' t done es)
    (hn : ∀ r, t ≠ .ask r) (htrace : w'.trace = w.trace ++ es.map (w.now, ·)) :
    Attending cs w' := by
  have hconcluded := congrArg concluded htrace
  rw [concluded_append] at hconcluded
  obtain ⟨hhanded, hasked⟩ := ht.outstanding hC h hn
  have hstate : w'.state.hub.snapshots.entries.length ≤ w.state.hub.snapshots.entries.length ∧
      (∀ k, (w'.state.hub.listeners k).entries.length ≤ (w.state.hub.listeners k).entries.length) ∧
      w'.state.hub.tally.sent + w'.state.hub.tally.dropped =
        w.state.hub.tally.sent + w.state.hub.tally.dropped +
          (es.filterMap Entry.concluded?).length := by
    rcases ht.performed with ⟨hs, he⟩ | ⟨item, rest, o, ha, hp, hs, rfl⟩
    · rw [hs, he]
      exact ⟨Nat.le_refl _, fun _ => Nat.le_refl _, rfl⟩
    · obtain ⟨hsnapshots, hlisteners⟩ := hp.rosters (h.not_registration ha)
      rw [hs]
      exact ⟨hsnapshots, hlisteners, (hp.handed hC).2⟩
  obtain ⟨hsnapshots, hlisteners, htally⟩ := hstate
  exact
    { shaped := ht.shaped h.shaped
      synced := ht.synced h.synced h.shaped
      snapshots := Nat.le_trans hsnapshots h.snapshots
      listeners := fun k => Nat.le_trans (hlisteners k) (h.listeners k)
      registered := fun r hr => h.registered r (hasked r hr)
      handed := by rw [hconcluded, List.append_assoc, hhanded, h.handed]
      counted := by rw [htally, h.counted, hconcluded, List.length_append] }

end Step

/-! ### Until nothing is left to do -/

/-- A socket whose session has been ended for good. -/
structure Torn (s : Socket) : Prop where
  state : s.state = .closed
  driver : s.driver = none
  sender : s.sender = none
  announced : s.announced = false

/-- Each channel has been torn down or is about to be. -/
structure Parting (w : System κ γ τ ν) : Prop where
  unopened : ∀ t ∈ w.agenda, isOpening t = false
  torn : ∀ k, Torn (w.socket k) ∨ .teardown k ∈ w.agenda ∨ request .disconnect ∈ w.agenda

theorem torn_teardown (now : Nat) (s : Socket) : Torn (s.teardown now).socket where
  state := rfl
  driver := rfl
  sender := rfl
  announced := rfl

section Run

variable {w w' : System κ γ τ ν} {cs : List Command} {t : Turn κ γ}
  {es : List (Entry (Note ν κ))} {r : Request κ γ} {fuel : Nat}

/-- Nothing but an opening undoes a teardown. -/
theorem Took.torn {task : Task (Item κ γ)} (ht : Took C w w' t (some task) es)
    (ho : isOpening task = false) (k : ChannelKind) :
    (Torn (w.socket k) → Torn (w'.socket k)) ∧ (task = .teardown k → Torn (w'.socket k)) := by
  have hkept (h : w'.socket k = w.socket k) (hne : task ≠ .teardown k) :
      (Torn (w.socket k) → Torn (w'.socket k)) ∧ (task = .teardown k → Torn (w'.socket k)) :=
    ⟨by rw [h]; exact id, fun he => absurd he hne⟩
  cases ht with
  | work ha hp hw => exact hkept (by rw [hw]; exact socket_congr rfl rfl k) (by simp)
  | refused ha _ _ hw => exact hkept (by rw [hw]; exact socket_congr rfl rfl k) (by simp)
  | connect => cases ho
  | @teardown _ k' rest ha hw =>
    by_cases hk : k = k'
    · subst hk
      rw [hw, socket_settle, if_pos rfl]
      exact ⟨fun _ => torn_teardown _ _, fun _ => torn_teardown _ _⟩
    · refine hkept ?_ (by simpa using Ne.symm hk)
      rw [hw, socket_settle, if_neg hk]
      exact socket_congr rfl rfl k
  | @sent _ c text rest m ha _ hm hw =>
    by_cases hk : k = .command
    · subst hk
      refine ⟨fun htorn => ?_, by simp⟩
      -- a socket that has been torn down accepts no text
      obtain ⟨link, hsender, -⟩ := send_eq_ok.mp hm
      cases htorn.sender.symm.trans hsender
    · refine hkept ?_ (by simp)
      rw [hw, socket_settle, if_neg hk]
      exact socket_congr rfl rfl k

theorem Took.disconnecting (ht : Took C w w' t (some (request .disconnect)) es) (k : ChannelKind) :
    .teardown k ∈ w'.agenda := by
  cases ht with
  | work ha hp hw =>
    cases hp
    rw [hw]
    cases k <;> simp [onHub]

theorem Took.parting (hC : Silent C) (ha : Attending cs w) (h : Parting w)
    {task : Task (Item κ γ)} (ht : Took C w w' t (some task) es) : Parting w' := by
  obtain ⟨next, rest, hw, hw', hy⟩ := ht.yields hC ha
  have hopen : isOpening task = false := h.unopened task (by rw [hw]; exact List.mem_cons_self)
  refine ⟨?_, fun k => ?_⟩
  · rw [hw']
    exact List.forall_mem_append.mpr ⟨hy.unopened hopen, fun t hmem =>
      h.unopened t (by rw [hw]; exact List.mem_cons_of_mem _ hmem)⟩
  · obtain ⟨hkept, htorn⟩ := ht.torn hopen k
    have hrest {t : Task (Item κ γ)} (hmem : t ∈ rest) : t ∈ w'.agenda := by
      rw [hw']
      exact List.mem_append_right _ hmem
    have hbefore := h.torn k
    rw [hw, List.mem_cons, List.mem_cons] at hbefore
    rcases hbefore with hs | (heq | hmem) | heq | hmem
    · exact .inl (hkept hs)
    · exact .inl (htorn heq.symm)
    · exact .inr (.inl (hrest hmem))
    · subst heq
      exact .inr (.inl (ht.disconnecting k))
    · exact .inr (.inr (hrest hmem))

/-- A task that is in progress is done. -/
theorem took_task {task : Task (Item κ γ)} {rest : List (Task (Item κ γ))} (hs : Shaped w.agenda)
    (ha : w.agenda = task :: rest) : ∃ es, Took C w (w.proceed (consumer C) false)
      (.proceed false) (some task) es ∧
        (w.proceed (consumer C) false).trace = w.trace ++ es.map (w.now, ·) := by
  have ht := took C hs (.proceed false)
  rw [show w.performed (Turn.proceed false : Turn κ γ).label = some task by
    rw [Turn.label, performed, ha]; rfl] at ht
  exact ⟨_, ht, trace_act (consumer C) w (.proceed false)⟩

/-- All that is to be done is done within the budget, and what every task keeps holds then. -/
theorem finish_keeps (hC : Silent C) {P : System κ γ τ ν → Prop}
    (hP : ∀ w w' task es, Attending cs w → Took C w w' (.proceed false) (some task) es → P w → P w')
    (h : Attending cs w) (hp : P w) (hb : bill w.agenda ≤ fuel) :
    Attending cs (finish (consumer C) fuel w) ∧ P (finish (consumer C) fuel w) ∧
      (finish (consumer C) fuel w).agenda = [] := by
  induction fuel generalizing w with
  | zero =>
    refine ⟨h, hp, ?_⟩
    cases ha : w.agenda with
    | nil => exact ha
    | cons task rest =>
      obtain ⟨es, ht, -⟩ := took_task (C := C) h.shaped ha
      have := ht.bill_lt hC h
      omega
  | succ fuel ih =>
    cases ha : w.agenda with
    | nil =>
      rw [finish, ha]
      exact ⟨h, hp, ha⟩
    | cons task rest =>
      obtain ⟨es, ht, htrace⟩ := took_task (C := C) h.shaped ha
      rw [finish, if_neg (by simp [ha])]
      have hlt := ht.bill_lt hC h
      exact ih (ht.attending hC h (by simp) htrace) (hP _ _ _ _ h ht hp) (by omega)

theorem finish_attending (hC : Silent C) (h : Attending cs w) (hb : bill w.agenda ≤ fuel) :
    Attending cs (finish (consumer C) fuel w) ∧ (finish (consumer C) fuel w).agenda = [] := by
  obtain ⟨hw, -, hnil⟩ := finish_keeps hC (P := fun _ => True)
    (fun _ _ _ _ _ _ => id) h trivial hb
  exact ⟨hw, hnil⟩

/-- The command that a request hands over. -/
def handing (r : Request κ γ) : List Command := (command? (request r)).toList

theorem Attending.ask (h : Attending cs w) (ha : w.agenda = []) (hr : isRegistration r = false) :
    Attending (cs ++ handing r) { w with agenda := [request r] } where
  shaped := .calm (by simp [isCalm, request])
  synced k := by
    have hsynced := h.synced k
    rw [ha] at hsynced
    cases k <;> exact hsynced
  snapshots := h.snapshots
  listeners := h.listeners
  registered r' hmem := by
    obtain rfl : r' = r := by simpa [request] using hmem
    exact hr
  handed := by
    have hhanded := h.handed
    rw [ha, List.filterMap_nil, List.append_nil] at hhanded
    rw [← hhanded, handing]
    cases ho : command? (request r : Task (Item κ γ)) <;> simp [ho]
  counted := h.counted

theorem bill_request_le (r : Request κ γ) : bill [request r] ≤ 8 := by
  cases r <;> simp [bill, cost, request]

/-- What is asked for while nothing is in progress is done at once. -/
theorem ask_attending (hC : Silent C) (h : Attending cs w) (ha : w.agenda = [])
    (hr : isRegistration r = false) (hf : 8 ≤ fuel) :
    Attending (cs ++ handing r) (w.ask (consumer C) fuel (request r)) ∧
      (w.ask (consumer C) fuel (request r)).agenda = [] := by
  rw [World.ask, act, if_pos (by rw [ha]; rfl)]
  exact finish_attending hC (h.ask ha hr) (Nat.le_trans (bill_request_le r) hf)

/-- A disconnection leaves both channels closed, and held to be so. -/
theorem ask_disconnect (hC : Silent C) (h : Attending cs w) (ha : w.agenda = []) (hf : 8 ≤ fuel)
    (k : ChannelKind) : Torn ((w.ask (consumer C) fuel (request .disconnect)).socket k) ∧
      (w.ask (consumer C) fuel (request .disconnect)).state.hub.isConnected k = false := by
  rw [World.ask, act, if_pos (by rw [ha]; rfl)]
  have hparting : Parting ({ w with agenda := [request .disconnect] } : System κ γ τ ν) :=
    ⟨by simp [request, isOpening], fun _ => .inr (.inr List.mem_cons_self)⟩
  obtain ⟨hw, hp, hnil⟩ := finish_keeps hC (fun _ _ _ _ ha ht hp => ht.parting hC ha hp)
    (h.ask (r := .disconnect) ha rfl) hparting (Nat.le_trans (bill_request_le .disconnect) hf)
  have htorn := hp.torn k
  rw [hnil] at htorn
  have htorn := htorn.resolve_right (by simp)
  refine ⟨htorn, ?_⟩
  have hsynced := hw.synced k
  rw [hnil, htorn.announced] at hsynced
  exact hsynced.symm

/-- What is no call of the client is a turn of something else. -/
theorem exists_turn {l : Label (Item κ γ)} (hl : l.isCall = false) :
    ∃ t : Turn κ γ, t.label = l ∧ ∀ r, t ≠ .ask r := by
  cases l with
  | call => cases hl
  | proceed b => exact ⟨.proceed b, rfl, by simp⟩
  | poll k i => exact ⟨.poll k i, rfl, by simp⟩
  | reap k i => exact ⟨.reap k i, rfl, by simp⟩
  | arrive k link item => exact ⟨.arrive k link item, rfl, by simp⟩
  | hangUp k link => exact ⟨.hangUp k link, rfl, by simp⟩
  | elapse ms => exact ⟨.elapse ms, rfl, by simp⟩

theorem Took.bill_le (hC : Silent C) (h : Attending cs w) {done : Option (Task (Item κ γ))}
    (ht : Took C w w' t done es) (hn : ∀ r, t ≠ .ask r) (hb : bill w.agenda ≤ 2) :
    bill w'.agenda ≤ 2 := by
  cases done with
  | some task => exact Nat.le_trans (Nat.le_of_lt (ht.bill_lt hC h)) hb
  | none =>
    cases ht with
    | outside _ ha => rwa [ha]
    | ask r => exact absurd rfl (hn r)
    | @drive _ u k m ha _ hu hw =>
      have hu' : u.agenda = [] := by rcases hu with rfl | rfl <;> exact ha
      rw [hw, agenda_settle, hu', List.append_nil]
      exact bill_hearing k _

/-- Whatever goes on by itself, little is to be done about it. -/
theorem run_attending (hC : Silent C) {labels : List (Label (Item κ γ))}
    (hl : ∀ l ∈ labels, l.isCall = false) (h : Attending cs w) (hb : bill w.agenda ≤ 2) :
    Attending cs (World.run (consumer C) labels w) ∧
      bill (World.run (consumer C) labels w).agenda ≤ 2 := by
  induction labels generalizing w with
  | nil => exact ⟨h, hb⟩
  | cons l labels ih =>
    obtain ⟨t, rfl, hn⟩ := exists_turn (hl l List.mem_cons_self)
    have ht := took C h.shaped t
    exact ih (fun l hmem => hl l (List.mem_cons_of_mem _ hmem))
      (ht.attending hC h hn (trace_act (consumer C) w t.label)) (ht.bill_le hC h hn hb)

end Run

end TwinLink.Manager
