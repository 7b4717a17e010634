import TwinLink.Manager.Basic

/-! What a manager does with an item, and what of that concerns its listeners. Most items
concern none of them; the others begin an emission, call a listener, or register or remove
one. -/

namespace TwinLink.Manager

variable {κ γ τ ν : Type} {C : Client κ γ τ ν} {v : World.View} {s : State κ τ}

/-- What can come of an item. -/
inductive Performed (C : Client κ γ τ ν) (v : World.View) (s : State κ τ) :
    Item κ γ → World.Outcome (State κ τ) (Item κ γ) (Note ν κ) → Prop where
  | changed {k b} (h : s.hub.isConnected k ≠ b) :
      Performed C v s (.heard k (.status b))
        (emit s (s.hub.setConnected k b)
          [.info (some k) "connectivity changed" [("connected", .flag b)]]
          (s.hub.listeners k) (.status ⟨k, b⟩))
  | known {k b} (h : s.hub.isConnected k = b) :
      Performed C v s (.heard k (.status b)) (onHub s s.hub [] [])
  | ignored {c} (h : ∀ b, c ≠ .status b) :
      Performed C v s (.heard .command c) (onHub s s.hub [] [])
  | received {text snapshot} (hd : Snapshot.decode text = .ok snapshot)
      (hf : s.hub.liveConnected = true) :
      Performed C v s (.heard .live (.message text))
        (emit s { s.hub with latest := some snapshot, sequence := s.hub.sequence + 1 } []
          s.hub.snapshots (.snapshot ⟨snapshot, s.hub.sequence + 1⟩))
  | late {text snapshot} (hd : Snapshot.decode text = .ok snapshot)
      (hf : s.hub.liveConnected = false) :
      Performed C v s (.heard .live (.message text)) (onHub s s.hub [] [])
  | failed {c e preview} (h : Feed.meaning c = .failure e preview) :
      Performed C v s (.heard .live c)
        (onHub s { s.hub with decodeFailures := s.hub.decodeFailures + 1 }
          [.log (Feed.failureLog e preview)] [])
  | consulted (item : γ) : Performed C v s (.request (.own item)) (consult C v item [] s)
  | called (emission : Option Nat) (id : Nat) (listener : κ) (e : Event) :
      Performed C v s (.call emission id listener e)
        (consult C v (C.hear listener e) [.called emission id listener e] s)
  | connect :
      Performed C v s (.request .connect)
        (onHub s s.hub [.connecting, .log (.info none "connecting" [])]
          [.connect .live, .connect .command])
  | disconnect :
      Performed C v s (.request .disconnect)
        (onHub s s.hub [.disconnecting]
          [.teardown .live, .teardown .command, .work .discardLatest])
  | release :
      Performed C v s (.request .release)
        (onHub s s.hub [] [.teardown .live, .teardown .command])
  | encoded {c : Command} {text} (h : c.encode = .ok text) :
      Performed C v s (.request (.send c)) (onHub s s.hub [] [.send .command text (.sent c)])
  | unencoded {c : Command} {e} (h : c.encode = .error e) :
      Performed C v s (.request (.send c)) (conclude s c (.error e))
  | subscribed (listener : κ) (reply : Nat → γ) :
      Performed C v s (.request (.subscribe listener reply))
        (onHub s (s.hub.subscribe listener) [.registered s.hub.registrations none listener]
          [.work (.request (.own (reply s.hub.registrations)))])
  | watched (k : ChannelKind) (listener : κ) (reply : Nat → γ) :
      Performed C v s (.request (.watch k listener reply))
        (onHub s (s.hub.watch k listener) [.registered s.hub.registrations (some k) listener]
          [.work (.call none s.hub.registrations listener (.status ⟨k, s.hub.isConnected k⟩)),
            .work (.request (.own (reply s.hub.registrations)))])
  | unsubscribed (id : Nat) :
      Performed C v s (.request (.unsubscribe id))
        (onHub s (s.hub.unsubscribe id) [.removed id] [])
  | discarded :
      Performed C v s .discardLatest
        (onHub s { s.hub with latest := none }
          [.disconnected, .log (.info none "disconnected" [])] [])
  | sent (c : Command) (result : Except LinkError Unit) :
      Performed C v s (.sent c result) (conclude s c result)

theorem changeStatus_performed (k : ChannelKind) (b : Bool) :
    Performed C v s (.heard k (.status b)) (changeStatus s k b) := by
  unfold changeStatus
  split
  next h => exact .known h
  next h => exact .changed h

theorem hear_performed (k : ChannelKind) (c : Socket.Callback) :
    Performed C v s (.heard k c) (hear s k c) := by
  cases k with
  | command =>
    cases c with
    | status b => exact changeStatus_performed .command b
    | message text => exact .ignored (by simp)
    | undecodable e => exact .ignored (by simp)
  | live =>
    cases c with
    | status b => exact changeStatus_performed .live b
    | undecodable e => exact .failed rfl
    | message text =>
      simp only [hear, Feed.meaning]
      cases hd : Snapshot.decode text with
      | error fault => exact .failed (by simp [Feed.meaning, hd])
      | ok snapshot =>
        simp only [receive]
        split
        next hf => exact .received hd hf
        next hf => exact .late hd (by simpa using hf)

theorem perform_performed (C : Client κ γ τ ν) (v : World.View) (item : Item κ γ)
    (s : State κ τ) : Performed C v s item (perform C v item s) := by
  cases item with
  | heard k c => exact hear_performed k c
  | call emission id listener e => exact .called emission id listener e
  | discardLatest => exact .discarded
  | sent c result => exact .sent c result
  | request r =>
    cases r with
    | connect => exact .connect
    | disconnect => exact .disconnect
    | release => exact .release
    | subscribe listener reply => exact .subscribed listener reply
    | watch k listener reply => exact .watched k listener reply
    | unsubscribe id => exact .unsubscribed id
    | own item => exact .consulted item
    | send c =>
      simp only [perform, answer]
      cases he : c.encode with
      | ok text => exact .encoded he
      | error e => exact .unencoded he

/-! ### Listeners -/

/-- A note that tells nothing about listeners. -/
def Note.isPlain : Note ν κ → Bool
  | emitted .. | called .. | registered .. | removed _ => false
  | _ => true

def Item.isCall : Item κ γ → Bool
  | call .. => true
  | _ => false

/-- A task that is not the call of a listener. -/
def isPlain : Task (Item κ γ) → Bool
  | .work item => !item.isCall
  | _ => true

/-- What an item means for the listeners of a hub. -/
inductive Effect (item : Item κ γ) (h : Hub κ) :
    Hub κ → List (Note ν κ) → List (Task (Item κ γ)) → Prop where
  | plain {h' notes next} (hi : item.isCall = false) (hn : ∀ n ∈ notes, n.isPlain = true)
      (ht : ∀ t ∈ next, isPlain t = true) (hr : h'.snapshots = h.snapshots)
      (hl : ∀ k, h'.listeners k = h.listeners k) (hg : h'.registrations = h.registrations)
      (he : h'.emissions = h.emissions) (hs : h'.sequence = h.sequence) :
      Effect item h h' notes next
  | snapshot (hi : item.isCall = false) (x : Snapshot) :
      Effect item h
        { h with
          latest := some x, sequence := h.sequence + 1, emissions := h.emissions + 1 }
        [.emitted h.emissions (.snapshot ⟨x, h.sequence + 1⟩) h.snapshots.ids]
        (h.snapshots.entries.map fun l =>
          .work (.call (some h.emissions) l.1 l.2 (.snapshot ⟨x, h.sequence + 1⟩)))
  | status (hi : item.isCall = false) (k : ChannelKind) (b : Bool) (log : Log) :
      Effect item h { h.setConnected k b with emissions := h.emissions + 1 }
        [.log log, .emitted h.emissions (.status ⟨k, b⟩) (h.listeners k).ids]
        ((h.listeners k).entries.map fun l =>
          .work (.call (some h.emissions) l.1 l.2 (.status ⟨k, b⟩)))
  | call {emission id listener e} (hi : item = .call emission id listener e) {notes next}
      (hn : ∀ n ∈ notes, n.isPlain = true) (ht : ∀ t ∈ next, isPlain t = true) :
      Effect item h h (.called emission id listener e :: notes) next
  | subscribe (hi : item.isCall = false) (listener : κ) {next} (ht : ∀ t ∈ next, isPlain t = true) :
      Effect item h (h.subscribe listener) [.registered h.registrations none listener] next
  | watch (hi : item.isCall = false) (k : ChannelKind) (listener : κ) {next}
      (ht : ∀ t ∈ next, isPlain t = true) :
      Effect item h (h.watch k listener) [.registered h.registrations (some k) listener]
        (.work (.call none h.registrations listener (.status ⟨k, h.isConnected k⟩)) :: next)
  | remove (hi : item.isCall = false) (id : Nat) :
      Effect item h (h.unsubscribe id) [.removed id] []

theorem emissions_setConnected (h : Hub κ) (k : ChannelKind) (b : Bool) :
    (h.setConnected k b).emissions = h.emissions := by
  cases k <;> rfl

theorem plain_requests (requests : List (Request κ γ)) :
    ∀ t ∈ requests.map fun request => (Task.work (.request request) : Task (Item κ γ)),
      isPlain t = true := by
  simp [isPlain, Item.isCall]

theorem Performed.effect {item : Item κ γ}
    {o : World.Outcome (State κ τ) (Item κ γ) (Note ν κ)} (h : Performed C v s item o) :
    Effect item s.hub o.state.hub o.notes o.next := by
  cases h with
  | @changed k b hc =>
    simp only [emit, onHub, emissions_setConnected, List.map_cons, List.map_nil, List.cons_append,
      List.nil_append]
    exact .status rfl k b _
  | @received text x hd hf => exact .snapshot rfl x
  | called emission id listener e =>
    exact .call rfl (by simp [Note.isPlain]) (plain_requests _)
  | subscribed listener reply =>
    exact .subscribe rfl listener (by simp [onHub, isPlain, Item.isCall])
  | watched k listener reply => exact .watch rfl k listener (by simp [isPlain, Item.isCall])
  | unsubscribed id => exact .remove rfl id
  | consulted item =>
    exact .plain rfl (by simp [consult, Note.isPlain]) (plain_requests _) rfl (fun _ => rfl) rfl rfl
      rfl
  | unencoded | sent =>
    refine .plain rfl ?_ (by simp [conclude, onHub]) rfl (fun k => by cases k <;> rfl) rfl rfl rfl
    simp [conclude, onHub, Note.isPlain, or_imp, forall_and]
  | _ =>
    exact .plain rfl (by simp [onHub, Note.isPlain]) (by simp [onHub, isPlain, Item.isCall]) rfl
      (fun k => by cases k <;> rfl) rfl rfl rfl

end TwinLink.Manager
