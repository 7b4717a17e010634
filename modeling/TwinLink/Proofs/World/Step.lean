import TwinLink.Proofs.Socket.Shift
import TwinLink.World

/-! Steps of a system of two sockets, and what a run leaves behind. A label does one of
fifteen things. On each socket it is a shift, and it adds to the trace what that shift has
seen. A run is read off its moments, the states in which its labels act. -/

namespace TwinLink.World

open Socket

variable {σ ι ε : Type} {C : Consumer σ ι ε} {w : World σ ι ε}

/-- The item in which a consumer hears of a callback. -/
def hearing (C : Consumer σ ι ε) (k : ChannelKind) (c : Option Callback) : List (Task ι) :=
  (c.map fun c => Task.work (C.hear k c)).toList

/-- What a move leaves in the trace. -/
def Entry.ofMove (k : ChannelKind) (m : Move) : List (Entry ε) :=
  m.seen.map (.socket k) ++ (m.callback.map (.callback k)).toList

/-- The task that a label does. -/
def performed (w : World σ ι ε) : Label ι → Option (Task ι)
  | .proceed _ => w.agenda.head?
  | _ => none

/-- Whether a label begins or ends a session of a channel. -/
def session? (k : ChannelKind) (w : World σ ι ε) (l : Label ι) : Option Bool :=
  match w.performed l with
  | some (.connect k') => if k' = k ∧ (w.socket k).state = .closed then some true else none
  | some (.teardown k') => if k' = k then some false else none
  | _ => none

/-- What a label can do, and what it adds to the trace. -/
inductive Acted (C : Consumer σ ι ε) (w : World σ ι ε) :
    Label ι → World σ ι ε → List (Entry ε) → Prop where
  | stay {l : Label ι} (h : w.performed l = none) : Acted C w l w []
  | call (t : Task ι) (h : w.agenda = []) : Acted C w (.call t) { w with agenda := [t] } []
  | work {item rest} (b : Bool) (h : w.agenda = .work item :: rest) {o : Outcome σ ι ε}
      (ho : C.perform w.view item w.state = o) :
      Acted C w (.proceed b)
        { w.record (o.notes.map .note) with state := o.state, agenda := o.next ++ rest }
        (o.notes.map .note)
  | connect {k rest} (b : Bool) (h : w.agenda = .connect k :: rest) :
      Acted C w (.proceed b) ({ w with agenda := rest }.settle C k (w.socket k).connect)
        (Entry.ofMove k (w.socket k).connect)
  | teardown {k rest} (b : Bool) (h : w.agenda = .teardown k :: rest) :
      Acted C w (.proceed b) ({ w with agenda := rest }.settle C k ((w.socket k).teardown w.now))
        (Entry.ofMove k ((w.socket k).teardown w.now))
  | sent {k text reply rest m} (b : Bool) (h : w.agenda = .send k text reply :: rest)
      (hm : (w.socket k).send text = .ok m) :
      Acted C w (.proceed b)
        ({ w with agenda := .work (reply (.ok ())) :: rest }.settle C k m) (Entry.ofMove k m)
  | refused {k text reply rest e} (b : Bool) (h : w.agenda = .send k text reply :: rest)
      (hm : (w.socket k).send text = .error e) :
      Acted C w (.proceed b) { w with agenda := .work (reply (.error e)) :: rest } []
  | step {k i b m} (h : w.agenda = []) (hr : w.running = some (k, i))
      (hm : (w.socket k).step w.now b i = some m) :
      Acted C w (.proceed b) (w.settle C k m) (Entry.ofMove k m)
  | stop {k i b} (h : w.agenda = []) (hr : w.running = some (k, i))
      (hm : (w.socket k).step w.now b i = none) :
      Acted C w (.proceed b) { w with running := none } []
  | discard {k i b} (h : w.agenda = []) (hr : w.running = some (k, i))
      (hm : (w.socket k).step w.now b i = none) (ha : (w.socket k).isAborted i = true) :
      Acted C w (.proceed b) ({ w with running := none }.settle C k ((w.socket k).discard i))
        (Entry.ofMove k ((w.socket k).discard i))
  | poll {k i} (h : w.agenda = []) (hr : w.running = none)
      (hf : ((w.socket k).phase i).isFinished = false) (ha : (w.socket k).isAborted i = false) :
      Acted C w (.poll k i) { w with running := some (k, i) } []
  | cancel {k i} (h : w.agenda = []) (hr : w.running = none)
      (ha : (w.socket k).isAborted i = true) :
      Acted C w (.poll k i) (w.settle C k ((w.socket k).discard i))
        (Entry.ofMove k ((w.socket k).discard i))
  | reap {k i} (h : w.agenda = []) (hr : w.running = none)
      (hd : (w.socket k).isReapDue w.now i = true) :
      Acted C w (.reap k i) (w.settle C k ((w.socket k).reap i))
        (Entry.ofMove k ((w.socket k).reap i))
  | arrive (k : ChannelKind) (link : Nat) (item : Inbound) :
      Acted C w (.arrive k link item) (w.setSocket k ((w.socket k).arrive link item)) []
  | hangUp (k : ChannelKind) (link : Nat) :
      Acted C w (.hangUp k link) (w.setSocket k ((w.socket k).hangUp link)) []
  | elapse {ms : Nat} (h : w.agenda = []) (hr : w.running = none) :
      Acted C w (.elapse ms) { w with now := w.now + ms } []

theorem isIdle_iff : w.isIdle = true ↔ w.agenda = [] ∧ w.running = none := by
  simp [isIdle]

theorem send_callback {s : Socket} {text : String} {m : Move} (h : s.send text = .ok m) :
    m.callback = none := by
  obtain ⟨link, -, -, -, rfl⟩ := send_eq_ok.mp h
  rfl

theorem settle_of_none {k : ChannelKind} {m : Move} (h : m.callback = none) :
    w.settle C k m = (w.setSocket k m.socket).record (m.seen.map (.socket k)) := by
  simp only [settle, h]

theorem perform_acted {t : Task ι} {rest : List (Task ι)} (b : Bool) (h : w.agenda = t :: rest) :
    ∃ es, Acted C w (.proceed b) (perform C t { w with agenda := rest }) es := by
  cases t with
  | work item => exact ⟨_, .work b h rfl⟩
  | connect k => cases k <;> exact ⟨_, .connect b h⟩
  | teardown k => cases k <;> exact ⟨_, .teardown b h⟩
  | send k text reply =>
    have hk : ({ w with agenda := rest } : World σ ι ε).socket k = w.socket k := by cases k <;> rfl
    simp only [perform, hk]
    split
    next m hm =>
      have hs := Acted.sent (C := C) b h hm
      rw [settle_of_none (send_callback hm)] at hs ⊢
      cases k <;> exact ⟨_, hs⟩
    next e hm => exact ⟨_, .refused b h hm⟩

theorem proceed_acted (C : Consumer σ ι ε) (w : World σ ι ε) (b : Bool) :
    ∃ es, Acted C w (.proceed b) (w.proceed C b) es := by
  unfold proceed
  split
  next t rest h => exact perform_acted b h
  next h =>
    split
    next k i hr =>
      simp only [drive]
      split
      next m hm => exact ⟨_, .step h hr hm⟩
      next hm =>
        split
        next ha =>
          rw [Bool.and_eq_true] at ha
          exact ⟨_, .discard h hr hm ha.1⟩
        next => exact ⟨_, .stop h hr hm⟩
    next => exact ⟨_, .stay (by rw [performed, h]; rfl)⟩

theorem poll_acted (C : Consumer σ ι ε) (w : World σ ι ε) (k : ChannelKind) (i : Nat) :
    ∃ es, Acted C w (.poll k i) (w.poll C k i) es := by
  simp only [poll]
  split
  next => exact ⟨_, .stay rfl⟩
  next hc =>
    simp only [Bool.or_eq_true, Bool.not_eq_true', not_or, Bool.not_eq_false, Bool.not_eq_true]
      at hc
    obtain ⟨hagenda, hrunning⟩ := isIdle_iff.mp hc.1
    split
    next ha => exact ⟨_, .cancel hagenda hrunning ha⟩
    next ha => exact ⟨_, .poll hagenda hrunning hc.2 (by simpa using ha)⟩

theorem exists_acted (C : Consumer σ ι ε) (w : World σ ι ε) (l : Label ι) :
    ∃ es, Acted C w l (act C w l) es := by
  cases l with
  | call t =>
    simp only [act]
    split
    next h => exact ⟨_, .call t (List.isEmpty_iff.mp h)⟩
    next => exact ⟨_, .stay rfl⟩
  | proceed b => exact proceed_acted C w b
  | poll k i => exact poll_acted C w k i
  | reap k i =>
    simp only [act, reap]
    split
    next h =>
      rw [Bool.and_eq_true] at h
      obtain ⟨hagenda, hrunning⟩ := isIdle_iff.mp h.1
      exact ⟨_, .reap hagenda hrunning h.2⟩
    next => exact ⟨_, .stay rfl⟩
  | arrive k link item => exact ⟨_, .arrive k link item⟩
  | hangUp k link => exact ⟨_, .hangUp k link⟩
  | elapse ms =>
    simp only [act, elapse]
    split
    next h =>
      rw [Bool.and_eq_true, isSettled, Bool.and_eq_true, Bool.and_eq_true] at h
      obtain ⟨hagenda, hrunning⟩ := isIdle_iff.mp h.1.1.1
      exact ⟨_, .elapse hagenda hrunning⟩
    next => exact ⟨_, .stay rfl⟩

/-! ### Sockets and traces -/

section Settle

variable (C : Consumer σ ι ε) (k : ChannelKind) (m : Move) (w : World σ ι ε)

@[simp] theorem agenda_settle : (w.settle C k m).agenda = hearing C k m.callback ++ w.agenda := by
  unfold settle
  cases hc : m.callback <;> cases k <;> rfl

@[simp] theorem running_settle : (w.settle C k m).running = w.running := by
  unfold settle
  cases hc : m.callback <;> cases k <;> rfl

@[simp] theorem state_settle : (w.settle C k m).state = w.state := by
  unfold settle
  cases hc : m.callback <;> cases k <;> rfl

@[simp] theorem now_settle : (w.settle C k m).now = w.now := by
  unfold settle
  cases hc : m.callback <;> cases k <;> rfl

@[simp] theorem socket_settle_self : (w.settle C k m).socket k = m.socket := by
  unfold settle
  cases hc : m.callback <;> cases k <;> rfl

@[simp] theorem socket_settle_other : (w.settle C k m).socket k.other = w.socket k.other := by
  unfold settle
  cases hc : m.callback <;> cases k <;> rfl

theorem socket_settle (k' : ChannelKind) :
    (w.settle C k m).socket k' = if k' = k then m.socket else w.socket k' := by
  unfold settle
  cases hc : m.callback <;> cases k <;> cases k' <;> rfl

theorem trace_settle :
    (w.settle C k m).trace = w.trace ++ (Entry.ofMove k m).map (w.now, ·) := by
  unfold settle
  cases hc : m.callback <;> cases k <;> simp [Entry.ofMove, hc, record, setSocket]

end Settle

/-- What a label adds to the trace. -/
def news (C : Consumer σ ι ε) (l : Label ι) (w : World σ ι ε) : List (Entry ε) :=
  ((act C w l).trace.drop w.trace.length).map Prod.snd

/-- A label only adds to the trace. -/
theorem Acted.trace {w' : World σ ι ε} {l : Label ι} {es : List (Entry ε)}
    (h : Acted C w l w' es) : w'.trace = w.trace ++ es.map (w.now, ·) := by
  cases h with
  | work _ _ => rfl
  | connect | teardown | sent | step | discard | cancel | reap => exact trace_settle C _ _ _
  | arrive k link item => cases k <;> simp [setSocket]
  | hangUp k link => cases k <;> simp [setSocket]
  | _ => simp

theorem act_acted (C : Consumer σ ι ε) (w : World σ ι ε) (l : Label ι) :
    Acted C w l (act C w l) (news C l w) := by
  obtain ⟨es, h⟩ := exists_acted C w l
  have hn : news C l w = es := by
    rw [news, h.trace, List.drop_left, List.map_map]
    exact List.map_id es
  rw [hn]
  exact h

theorem trace_act (C : Consumer σ ι ε) (w : World σ ι ε) (l : Label ι) :
    (act C w l).trace = w.trace ++ (news C l w).map (w.now, ·) :=
  (act_acted C w l).trace

/-- What an entry of a trace says about the socket of a channel. -/
def Entry.happening? (k : ChannelKind) : Entry ε → Option Happening
  | socket k' h => if k' = k then some h else none
  | _ => none

theorem filterMap_ofMove_self (k : ChannelKind) (m : Move) :
    (Entry.ofMove (ε := ε) k m).filterMap (Entry.happening? k) = m.seen := by
  cases hc : m.callback <;>
    simp [Entry.ofMove, hc, List.filterMap_append, List.filterMap_map, Function.comp_def,
      Entry.happening?]

theorem filterMap_ofMove_other (k : ChannelKind) (m : Move) :
    (Entry.ofMove (ε := ε) k m).filterMap (Entry.happening? k.other) = [] := by
  have hne : k ≠ k.other := k.other_ne.symm
  cases hc : m.callback <;>
    simp [Entry.ofMove, hc, List.filterMap_append, List.filterMap_map, Function.comp_def,
      Entry.happening?, hne]

/-- The socket of a channel makes the move `m`, which the entries `es` tell of. -/
structure Shifted (w w' : World σ ι ε) (es : List (Entry ε)) (k : ChannelKind) (b : Option Bool)
    (m : Move) : Prop where
  shift : Shift (w.socket k) b m
  socket : w'.socket k = m.socket
  seen : es.filterMap (Entry.happening? k) = m.seen

section Shifted

variable {w' : World σ ι ε} {es : List (Entry ε)} {l : Label ι} {k k' : ChannelKind} {m : Move}

/-- Where only the consumer is concerned the sockets stay as they are. -/
theorem shifted_stay (hs : w'.socket k = w.socket k)
    (he : es.filterMap (Entry.happening? k) = []) :
    Shifted w w' es k none (.silent (w.socket k)) where
  shift := .stay
  socket := hs
  seen := he

theorem eq_other (hk : k ≠ k') : k = k'.other := by
  cases k <;> cases k' <;> first | rfl | exact absurd rfl hk

/-- An operation on one socket leaves the other as it is. -/
theorem shifted_settle {u : World σ ι ε} (hu : ∀ k, u.socket k = w.socket k)
    (hs : Shift (w.socket k') (w.session? k' l) m) (ho : w.session? k'.other l = none)
    (k : ChannelKind) :
    ∃ m', Shifted w (u.settle C k' m) (Entry.ofMove k' m) k (w.session? k l) m' := by
  by_cases hk : k = k'
  · subst hk
    exact ⟨m, hs, socket_settle_self C k m u, filterMap_ofMove_self k m⟩
  · obtain rfl := eq_other hk
    rw [ho]
    exact ⟨_, shifted_stay ((socket_settle_other C k' m u).trans (hu _))
      (filterMap_ofMove_other k' m)⟩

/-- So does what a peer does. -/
theorem shifted_peer {s : Socket} (hs : Shift (w.socket k') none (.silent s)) (k : ChannelKind) :
    ∃ m, Shifted w (w.setSocket k' s) [] k none m := by
  by_cases hk : k = k'
  · subst hk
    exact ⟨_, hs, socket_setSocket_self w k s, rfl⟩
  · obtain rfl := eq_other hk
    exact ⟨_, shifted_stay (socket_setSocket_other w k' s) rfl⟩

end Shifted

theorem session?_eq_none {l : Label ι} (hc : ∀ k, w.performed l ≠ some (.connect k))
    (hd : ∀ k, w.performed l ≠ some (.teardown k)) (k : ChannelKind) : w.session? k l = none := by
  unfold session?
  split
  next k' h => exact absurd h (hc k')
  next k' h => exact absurd h (hd k')
  next => rfl

theorem socket_congr {u : World σ ι ε} (hl : u.live = w.live) (hc : u.command = w.command)
    (k : ChannelKind) : u.socket k = w.socket k := by
  cases k
  · exact hl
  · exact hc

/-- Every label does something to the socket of a channel that can happen to it. -/
theorem Acted.exists_shifted {w' : World σ ι ε} {l : Label ι} {es : List (Entry ε)}
    (h : Acted C w l w' es) (k : ChannelKind) : ∃ m, Shifted w w' es k (w.session? k l) m := by
  have hnone (hc : ∀ k, w.performed l ≠ some (.connect k))
      (hd : ∀ k, w.performed l ≠ some (.teardown k)) : ∀ k, w.session? k l = none :=
    session?_eq_none hc hd
  cases h with
  | @connect k' rest b hp =>
    have hother : w.session? k'.other (.proceed b) = none := by
      simp [session?, performed, hp, k'.other_ne.symm]
    refine shifted_settle (fun k => by cases k <;> rfl) ?_ hother k
    by_cases hc : (w.socket k').state = .closed
    · simpa [session?, performed, hp, hc] using Shift.connect hc
    · rw [connect_of_live hc]
      simpa [session?, performed, hp, hc] using Shift.stay
  | @teardown k' rest b hp =>
    have hother : w.session? k'.other (.proceed b) = none := by
      simp [session?, performed, hp, k'.other_ne.symm]
    refine shifted_settle (fun k => by cases k <;> rfl) ?_ hother k
    simpa [session?, performed, hp] using Shift.teardown w.now
  | sent b hp hm =>
    have hn := hnone (by simp [performed, hp]) (by simp [performed, hp])
    exact shifted_settle (fun k => by cases k <;> rfl) (by rw [hn]; exact send_shift hm) (hn _) k
  | step hp hr hm =>
    have hn := hnone (by simp [performed, hp]) (by simp [performed, hp])
    exact shifted_settle (fun _ => rfl) (by rw [hn]; exact .step (step_stepped hm)) (hn _) k
  | discard hp hr hm ha =>
    have hn := hnone (by simp [performed, hp]) (by simp [performed, hp])
    exact shifted_settle (fun k => by cases k <;> rfl) (by rw [hn]; exact .discard ha) (hn _) k
  | cancel hp hr ha =>
    have hn := hnone (by simp [performed]) (by simp [performed])
    exact shifted_settle (fun _ => rfl) (by rw [hn]; exact .discard ha) (hn _) k
  | reap hp hr hd =>
    have hn := hnone (by simp [performed]) (by simp [performed])
    exact shifted_settle (fun _ => rfl) (by rw [hn]; exact .reap hd) (hn _) k
  | arrive k' link item =>
    rw [hnone (by simp [performed]) (by simp [performed])]
    exact shifted_peer (.arrive link item) k
  | hangUp k' link =>
    rw [hnone (by simp [performed]) (by simp [performed])]
    exact shifted_peer (.hangUp link) k
  | work b hp ho =>
    rw [hnone (by simp [performed, hp]) (by simp [performed, hp])]
    exact ⟨_, shifted_stay (socket_congr rfl rfl k) (by simp [Function.comp_def, Entry.happening?])⟩
  | stay hp =>
    rw [hnone (by simp [hp]) (by simp [hp])]
    exact ⟨_, shifted_stay rfl rfl⟩
  | refused b hp hm =>
    rw [hnone (by simp [performed, hp]) (by simp [performed, hp])]
    exact ⟨_, shifted_stay (socket_congr rfl rfl k) rfl⟩
  | call t hp =>
    rw [hnone (by simp [performed]) (by simp [performed])]
    exact ⟨_, shifted_stay (socket_congr rfl rfl k) rfl⟩
  | stop hp hr hm =>
    rw [hnone (by simp [performed, hp]) (by simp [performed, hp])]
    exact ⟨_, shifted_stay (socket_congr rfl rfl k) rfl⟩
  | poll hp hr hf ha =>
    rw [hnone (by simp [performed]) (by simp [performed])]
    exact ⟨_, shifted_stay (socket_congr rfl rfl k) rfl⟩
  | elapse hp hr =>
    rw [hnone (by simp [performed]) (by simp [performed])]
    exact ⟨_, shifted_stay (socket_congr rfl rfl k) rfl⟩

end TwinLink.World
