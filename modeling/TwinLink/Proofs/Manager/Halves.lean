import TwinLink.Proofs.Manager.Run
import TwinLink.Proofs.Socket.Muted

/-! One side of a manager: a channel with what the manager keeps for it. As long as the program
asks for nothing when it is called, what is done to a side depends on nothing but the side and
on what is asked. So each side can be followed alone. -/

namespace TwinLink

def Event.channel : Event → ChannelKind
  | snapshot _ => .live
  | status e => e.channel

namespace Manager

open Socket World

variable {κ γ τ ν : Type}

/-- Listeners, and items of the client, ask for nothing. -/
def Client.Quiet (C : Client κ γ τ ν) : Prop :=
  ∀ v h item s, (C.perform v h item s).requests = []

/-- What can be read about a channel. -/
structure Reading where
  state : Machine.State
  connected : Bool
  latest : Option Snapshot
  sequence : Nat
  decodeFailures : Nat
  tally : Tally
  reconnects : Nat

/-- What can be seen of a channel: on the network, by its listeners and by the senders of
commands. -/
inductive Sight (κ : Type) where
  | happening (h : Happening)
  | emitted (e : Event) (ids : List Nat)
  | called (id : Nat) (listener : κ) (e : Event)
  | finished (c : Command) (result : Except LinkError Unit)

/-- What a manager keeps for one channel, and what has been seen of that. -/
structure Half (κ : Type) where
  socket : Socket
  connected : Bool
  listeners : Roster κ
  snapshots : Roster κ
  registrations : Nat
  latest : Option Snapshot
  sequence : Nat
  decodeFailures : Nat
  tally : Tally
  seen : List (Nat × Reading × Sight κ)

namespace Half

def reading (h : Half κ) : Reading :=
  ⟨h.socket.state, h.connected, h.latest, h.sequence, h.decodeFailures, h.tally,
    h.socket.reconnects⟩

/-- Something is seen, with what can be read before it takes effect. -/
def see (now : Nat) (xs : List (Sight κ)) (h : Half κ) : Half κ :=
  { h with seen := h.seen ++ xs.map fun x => (now, h.reading, x) }

/-- An emission begins, something is changed, and the listeners are called. -/
def emit (now : Nat) (e : Event) (r : Roster κ) (change : Half κ → Half κ) (h : Half κ) : Half κ :=
  (change (h.see now [.emitted e r.ids])).see now (r.entries.map fun l => .called l.1 l.2 e)

section Effects

variable (k : ChannelKind) (now : Nat)

def hear (c : Callback) (h : Half κ) : Half κ :=
  match k, c with
  | k, .status b =>
    if h.connected = b then h
    else h.emit now (.status ⟨k, b⟩) h.listeners ({ · with connected := b })
  | .command, _ => h
  | .live, c =>
    match Feed.meaning c with
    | .status _ => h
    | .snapshot s =>
      if h.connected then
        h.emit now (.snapshot ⟨s, h.sequence + 1⟩) h.snapshots
          ({ · with latest := some s, sequence := h.sequence + 1 })
      else h
    | .failure _ _ => { h with decodeFailures := h.decodeFailures + 1 }

/-- What has happened on the socket is seen, the reading of content apart. -/
def move (m : Move) (h : Half κ) : Half κ :=
  { h.see now ((m.seen.filter (!·.isHearing)).map .happening) with socket := m.socket }

/-- The socket makes a move, of which it may tell. -/
def settle (m : Move) (h : Half κ) : Half κ :=
  match m.callback with
  | none => h.move now m
  | some c => (h.move now m).hear k now c

def conclude (c : Command) (result : Except LinkError Unit) (h : Half κ) : Half κ :=
  match k with
  | .live => h
  | .command => { h.see now [.finished c result] with tally := h.tally.count result }

def send (c : Command) (text : String) (h : Half κ) : Half κ :=
  match k with
  | .live => h
  | .command =>
    match h.socket.send text with
    | .ok m => (h.settle .command now m).conclude .command now c (.ok ())
    | .error e => h.conclude .command now c (.error e)

def ask (r : Request κ γ) (h : Half κ) : Half κ :=
  match r with
  | .connect => h.settle k now h.socket.connect
  | .disconnect => { h.settle k now (h.socket.teardown now) with latest := none }
  | .release => h.settle k now (h.socket.teardown now)
  | .send c =>
    match c.encode with
    | .ok text => h.send k now c text
    | .error e => h.conclude k now c (.error e)
  | .subscribe listener _ =>
    match k with
    | .live =>
      { h with
        snapshots := h.snapshots.insert h.registrations listener
        registrations := h.registrations + 1 }
    | .command => { h with registrations := h.registrations + 1 }
  | .watch k' listener _ =>
    if k' = k then
      ({ h with
        listeners := h.listeners.insert h.registrations listener
        registrations := h.registrations + 1 } : Half κ).see now
          [.called h.registrations listener (.status ⟨k, h.connected⟩)]
    else { h with registrations := h.registrations + 1 }
  | .unsubscribe id =>
    { h with listeners := h.listeners.remove id, snapshots := h.snapshots.remove id }
  | .own _ => h

def item (i : Item κ γ) (h : Half κ) : Half κ :=
  match i with
  | .heard k' c => if k' = k then h.hear k now c else h
  | .request r => h.ask k now r
  | .call _ id l e => if e.channel = k then h.see now [.called id l e] else h
  | .discardLatest => { h with latest := none }
  | .sent c result => h.conclude k now c result

/-- What a task does to one side, with all that follows from it. -/
def task (h : Half κ) (t : Task (Item κ γ)) : Half κ :=
  match t with
  | .work i => h.item k now i
  | .connect k' => if k' = k then h.settle k now h.socket.connect else h
  | .teardown k' => if k' = k then h.settle k now (h.socket.teardown now) else h
  | .send _ text reply =>
    match reply (.ok ()) with
    | .sent c _ => h.send k now c text
    | _ => h

end Effects

/-- The side of a channel. -/
def of (k : ChannelKind) (s : Socket) (h : Hub κ) (seen : List (Nat × Reading × Sight κ)) :
    Half κ :=
  match k with
  | .live =>
    ⟨s, h.liveConnected, h.liveStatus, h.snapshots, h.registrations, h.latest, h.sequence,
      h.decodeFailures, .zero, seen⟩
  | .command =>
    ⟨s.muted, h.commandConnected, h.commandStatus, .empty, h.registrations, none, 0, 0, h.tally,
      seen⟩

end Half

/-- What a note says about a channel. -/
def Note.sight? (k : ChannelKind) : Note ν κ → Option (Sight κ)
  | emitted _ e ids => if e.channel = k then some (.emitted e ids) else none
  | called _ id l e => if e.channel = k then some (.called id l e) else none
  | finished c result => if k = .command then some (.finished c result) else none
  | _ => none

/-- What an entry of a trace says about a channel. -/
def sight? (k : ChannelKind) : Entry (Note ν κ) → Option (Sight κ)
  | .socket k' h => if k' = k ∧ h.isHearing = false then some (.happening h) else none
  | .callback _ _ => none
  | .note n => n.sight? k

section Item

variable {C : Client κ γ τ ν} {v : View} {s : State κ τ} {item : Item κ γ} {k : ChannelKind}
  {o : Outcome (State κ τ) (Item κ γ) (Note ν κ)} {now : Nat} {h : Half κ}

theorem see_see (xs ys : List (Sight κ)) : (h.see now xs).see now ys = h.see now (xs ++ ys) := by
  simp [Half.see, Half.reading]

theorem see_nil (h : Half κ) : h.see now [] = h := by
  simp [Half.see]

/-- The listeners of a roster are called, one after another. -/
theorem foldl_calls (r : Roster κ) (n : Option Nat) (e : Event) (h : Half κ) :
    (r.entries.map fun l => (Task.work (.call n l.1 l.2 e) : Task (Item κ γ))).foldl
        (Half.task k now) h =
      if e.channel = k then h.see now (r.entries.map fun l => .called l.1 l.2 e) else h := by
  obtain ⟨entries⟩ := r
  induction entries generalizing h with
  | nil => simp [see_nil]
  | cons l entries ih =>
    rw [List.map_cons, List.foldl_cons, ih]
    split
    next he => simp [Half.task, Half.item, he, see_see]
    next he => simp [Half.task, Half.item, he]

theorem foldl_own (hq : C.Quiet) (item : γ) (h : Half κ) (v : View) (hub : Hub κ) (client : τ) :
    ((C.perform v hub item client).requests.map fun r =>
      (Task.work (.request r) : Task (Item κ γ))).foldl (Half.task k now) h = h := by
  rw [hq]
  rfl

theorem Performed.half (hp : Performed C v s item o) (hq : C.Quiet) (socket : Socket)
    (seen : List (Nat × Reading × Sight κ)) :
    o.next.foldl (Half.task k now)
        (.of k socket o.state.hub (seen ++ (o.notes.filterMap (Note.sight? k)).map fun x =>
          (now, (Half.of k socket s.hub []).reading, x))) =
      (Half.of k socket s.hub seen).item k now item := by
  have hsilent {ns : List ν} :
      (ns.map (Note.own : ν → Note ν κ)).filterMap (Note.sight? k) = [] := by
    simp [Note.sight?, Function.comp_def]
  cases hp with
  | consulted item =>
    simp only [consult, foldl_own hq, List.nil_append, hsilent, List.map_nil, List.append_nil]
    rfl
  | called n id l e =>
    simp only [consult, foldl_own hq, List.cons_append, List.nil_append, List.filterMap_cons,
      hsilent, Note.sight?]
    cases k <;> cases hc : e.channel <;> simp [Half.of, Half.item, Half.see, Half.reading, hc]
  | @changed k' b hc =>
    simp only [emit, onHub, foldl_calls]
    cases k <;> cases k' <;>
      simp_all [Half.of, Half.item, Half.hear, Half.emit, Half.see, Half.reading, Note.sight?,
        Event.channel, Hub.setConnected, Hub.isConnected, Hub.listeners, List.filterMap_cons,
        Log.info]
  | @known k' b hc =>
    cases k <;> cases k' <;>
      simp_all [onHub, Half.of, Half.item, Half.hear, Hub.isConnected]
  | @ignored c hc =>
    cases k with
    | live => simp [onHub, Half.item]
    | command =>
      cases c with
      | status b => exact absurd rfl (hc b)
      | _ => simp [onHub, Half.item, Half.hear]
  | received hd hf =>
    simp only [emit, onHub, foldl_calls]
    cases k <;>
      simp_all [Half.of, Half.item, Half.hear, Half.emit, Half.see, Half.reading, Note.sight?,
        Event.channel, Feed.meaning]
  | late hd hf =>
    cases k <;>
      simp_all [onHub, Half.of, Half.item, Half.hear, Feed.meaning]
  | @failed c e preview hm =>
    cases c with
    | status b => cases hm
    | _ =>
      cases k <;>
        simp_all [onHub, Half.of, Half.item, Half.hear, Note.sight?, List.filterMap_cons]
  | connect | disconnect | release | discarded =>
    cases k <;>
      simp [onHub, Half.of, Half.item, Half.ask, Half.task, Note.sight?, List.filterMap_cons]
  | encoded he =>
    cases k <;> simp [onHub, Half.of, Half.item, Half.ask, Half.task, he]
  | @unencoded c e he =>
    cases k <;>
      simp [conclude, onHub, Half.of, Half.item, Half.ask, Half.conclude, Half.see, Half.reading,
        he, Note.sight?, List.filterMap_cons, Tally.log]
  | sent c result =>
    cases k <;> cases result <;>
      simp [conclude, onHub, Half.of, Half.item, Half.conclude, Half.see, Half.reading, Note.sight?,
        List.filterMap_cons, Tally.log]
  | subscribed l reply =>
    cases k <;>
      simp [onHub, Half.of, Half.item, Half.ask, Half.task, Hub.subscribe, Note.sight?,
        List.filterMap_cons]
  | watched k' l reply =>
    cases k <;> cases k' <;>
      simp [onHub, Half.of, Half.item, Half.ask, Half.task, Hub.watch, Half.see, Half.reading,
        Hub.isConnected, Event.channel, Note.sight?, List.filterMap_cons]
  | unsubscribed id =>
    cases k <;>
      simp [onHub, Half.of, Half.item, Half.ask, Hub.unsubscribe, Roster.remove, Roster.empty,
        Note.sight?, List.filterMap_cons]

end Item

/-! ### Moves of the sockets -/

section Move

variable {C : Client κ γ τ ν} {k : ChannelKind} {now : Nat} {s : Socket} {hub : Hub κ}
  {seen : List (Nat × Reading × Sight κ)}

/-- A move as it is told of a channel. -/
def hush (k : ChannelKind) (m : Move) : Move :=
  match k with
  | .live => m
  | .command => m.muted

theorem sights_ofMove (m : Move) :
    (Entry.ofMove (ε := Note ν κ) k m).filterMap (sight? k) =
      (m.seen.filter (!·.isHearing)).map .happening := by
  have hseen (xs : List Happening) :
      (xs.map (Entry.socket (ε := Note ν κ) k)).filterMap (sight? k) =
        (xs.filter (!·.isHearing)).map .happening := by
    induction xs with
    | nil => rfl
    | cons x xs ih => cases hx : x.isHearing <;> simp [sight?, hx, ih]
  rw [Entry.ofMove, List.filterMap_append, hseen]
  cases m.callback <;> simp [sight?]

theorem sights_ofMove_other {k' : ChannelKind} (hk : k' ≠ k) (m : Move) :
    (Entry.ofMove (ε := Note ν κ) k' m).filterMap (sight? k) = [] := by
  rw [Entry.ofMove, List.filterMap_append]
  cases m.callback <;> simp [sight?, hk]

theorem foldl_hearing (m : Move) :
    (hearing (consumer C) k m.callback).foldl (Half.task k now)
        (.of k m.socket hub (seen ++ ((Entry.ofMove (ε := Note ν κ) k m).filterMap (sight? k)).map
          fun x => (now, (Half.of k s hub []).reading, x))) =
      (Half.of k s hub seen).settle k now (hush k m) := by
  rw [sights_ofMove]
  cases k <;> cases hc : m.callback <;>
    simp [hearing, consumer, Half.task, Half.item, Half.settle, Half.move, hush, Half.of,
      Half.see, Half.reading, hc, Move.muted, Move.relink, muted]

theorem foldl_hearing_other {k' : ChannelKind} (hk : k' ≠ k) (c : Option Callback) (h : Half κ) :
    (hearing (consumer C) k' c).foldl (Half.task k now) h = h := by
  cases c <;> simp [hearing, consumer, Half.task, Half.item, hk]

theorem connect_of : (Half.of k s hub seen).socket.connect = hush k s.connect := by
  cases k with
  | live => rfl
  | command => exact connect_relink _ s

theorem teardown_of : (Half.of k s hub seen).socket.teardown now = hush k (s.teardown now) := by
  cases k with
  | live => rfl
  | command => exact outward_muted.teardown now s

theorem send_of (text : String) :
    (Half.of k s hub seen).socket.send text = (s.send text).map (hush k) := by
  cases k with
  | live => cases hs : s.send text <;> simp [Half.of, hs, hush, Except.map]
  | command => exact outward_muted.send text s

theorem discard_of (i : Nat) : (Half.of k s hub seen).socket.discard i = hush k (s.discard i) := by
  cases k with
  | live => rfl
  | command => exact discard_muted i s

theorem reap_of (i : Nat) : (Half.of k s hub seen).socket.reap i = hush k (s.reap i) := by
  cases k <;> rfl

theorem step_of {b : Bool} {i : Nat} {m : Move} (hm : s.step now b i = some m)
    (hh : k = .command → ∀ h ∈ m.seen, h.isHearing = false) :
    (Half.of k s hub seen).socket.step now b i = some (hush k m) := by
  cases k with
  | live => exact hm
  | command => exact step_muted hm (hh rfl)

end Move

/-! ### Peers -/

section Peer

variable {k : ChannelKind} {now : Nat} {g : Nat → Link → Link} {h : Half κ}

/-- Something is done to the links of the side. -/
def Half.relink (g : Nat → Link → Link) (h : Half κ) : Half κ :=
  { h with socket := h.socket.relink g }

theorem hear_relink (c : Callback) : (h.relink g).hear k now c = (h.hear k now c).relink g := by
  have hconnected : (h.relink g).connected = h.connected := rfl
  cases c with
  | status b =>
    simp only [Half.hear, hconnected]
    split <;> rfl
  | _ =>
    cases k with
    | command => rfl
    | live =>
      simp only [Half.hear, hconnected]
      split
      · rfl
      · split <;> rfl
      · rfl

theorem settle_relink (m : Move) :
    (h.relink g).settle k now (m.relink g) = (h.settle k now m).relink g := by
  have hmove : (h.relink g).move now (m.relink g) = (h.move now m).relink g := rfl
  unfold Half.settle
  rw [show (m.relink g).callback = m.callback from rfl, hmove]
  cases m.callback with
  | none => rfl
  | some c => exact hear_relink c

theorem conclude_relink (c : Command) (result : Except LinkError Unit) :
    (h.relink g).conclude k now c result = (h.conclude k now c result).relink g := by
  cases k <;> rfl

theorem send_relink (hg : Outward g) (c : Command) (text : String) :
    (h.relink g).send k now c text = (h.send k now c text).relink g := by
  cases k with
  | live => rfl
  | command =>
    simp only [Half.send, show (h.relink g).socket = h.socket.relink g from rfl, hg.send]
    cases h.socket.send text with
    | error e => exact conclude_relink c _
    | ok m =>
      simp only [Except.map]
      rw [settle_relink, conclude_relink]

theorem ask_relink (hg : Outward g) (r : Request κ γ) :
    (h.relink g).ask k now r = (h.ask k now r).relink g := by
  have hsocket : (h.relink g).socket = h.socket.relink g := rfl
  cases r with
  | connect => simp only [Half.ask, hsocket, connect_relink, settle_relink]
  | disconnect =>
    simp only [Half.ask, hsocket, hg.teardown, settle_relink]
    rfl
  | release => simp only [Half.ask, hsocket, hg.teardown, settle_relink]
  | send c =>
    simp only [Half.ask]
    split
    · exact send_relink hg c _
    · exact conclude_relink c _
  | subscribe listener reply => cases k <;> rfl
  | watch k' listener reply =>
    simp only [Half.ask]
    split <;> rfl
  | unsubscribe id => rfl
  | own i => rfl

/-- What a peer does and what is done to a side may change places. -/
theorem task_relink (hg : Outward g) (t : Task (Item κ γ)) :
    (h.relink g).task k now t = (h.task k now t).relink g := by
  have hsocket : (h.relink g).socket = h.socket.relink g := rfl
  cases t with
  | connect k' =>
    simp only [Half.task, hsocket, connect_relink, settle_relink]
    split <;> rfl
  | teardown k' =>
    simp only [Half.task, hsocket, hg.teardown, settle_relink]
    split <;> rfl
  | send k' text reply =>
    simp only [Half.task]
    split
    · exact send_relink hg _ _
    · rfl
  | work i =>
    cases i with
    | heard k' c =>
      simp only [Half.task, Half.item, hear_relink]
      split <;> rfl
    | request r => exact ask_relink hg r
    | call n id l e =>
      simp only [Half.task, Half.item]
      split <;> rfl
    | discardLatest => rfl
    | sent c result => exact conclude_relink c result

theorem foldl_relink (hg : Outward g) (tasks : List (Task (Item κ γ))) (h : Half κ) :
    tasks.foldl (Half.task k now) (h.relink g) = (tasks.foldl (Half.task k now) h).relink g := by
  induction tasks generalizing h with
  | nil => rfl
  | cons t tasks ih => rw [List.foldl_cons, List.foldl_cons, task_relink hg, ih]

end Peer

/-! ### What has been seen stays seen -/

section Seen

variable {k : ChannelKind} {now : Nat} {h : Half κ}

theorem prefix_see (xs : List (Sight κ)) : h.seen <+: (h.see now xs).seen := List.prefix_append ..

theorem prefix_emit (e : Event) (r : Roster κ) {change : Half κ → Half κ}
    (hc : ∀ h, (change h).seen = h.seen) : h.seen <+: (h.emit now e r change).seen := by
  refine List.IsPrefix.trans ?_ (prefix_see _)
  rw [hc]
  exact prefix_see _

theorem prefix_hear (c : Callback) : h.seen <+: (h.hear k now c).seen := by
  unfold Half.hear
  split
  · split
    · exact List.prefix_rfl
    · exact prefix_emit _ _ fun _ => rfl
  · exact List.prefix_rfl
  · split
    · exact List.prefix_rfl
    · split
      · exact prefix_emit _ _ fun _ => rfl
      · exact List.prefix_rfl
    · exact List.prefix_rfl

theorem prefix_settle (m : Move) : h.seen <+: (h.settle k now m).seen := by
  have hmove : h.seen <+: (h.move now m).seen := prefix_see _
  unfold Half.settle
  split
  · exact hmove
  · exact hmove.trans (prefix_hear _)

theorem prefix_conclude (c : Command) (result : Except LinkError Unit) :
    h.seen <+: (h.conclude k now c result).seen := by
  cases k
  · exact List.prefix_rfl
  · exact prefix_see _

theorem prefix_send (c : Command) (text : String) : h.seen <+: (h.send k now c text).seen := by
  unfold Half.send
  split
  · exact List.prefix_rfl
  · split
    · exact (prefix_settle _).trans (prefix_conclude _ _)
    · exact prefix_conclude _ _

theorem prefix_ask (r : Request κ γ) : h.seen <+: (h.ask k now r).seen := by
  cases r with
  | connect | disconnect | release => exact prefix_settle _
  | send c =>
    simp only [Half.ask]
    split
    · exact prefix_send _ _
    · exact prefix_conclude _ _
  | subscribe => cases k <;> exact List.prefix_rfl
  | watch =>
    simp only [Half.ask]
    split
    · exact prefix_see _
    · exact List.prefix_rfl
  | unsubscribe | own => exact List.prefix_rfl

theorem prefix_item (i : Item κ γ) : h.seen <+: (h.item k now i).seen := by
  cases i with
  | request r => exact prefix_ask r
  | sent c result => exact prefix_conclude c result
  | discardLatest => exact List.prefix_rfl
  | heard k' c =>
    simp only [Half.item]
    split
    · exact prefix_hear c
    · exact List.prefix_rfl
  | call n id l e =>
    simp only [Half.item]
    split
    · exact prefix_see _
    · exact List.prefix_rfl

theorem prefix_task (t : Task (Item κ γ)) : h.seen <+: (h.task k now t).seen := by
  cases t with
  | work i => exact prefix_item i
  | connect k' | teardown k' =>
    simp only [Half.task]
    split
    · exact prefix_settle _
    · exact List.prefix_rfl
  | send k' text reply =>
    simp only [Half.task]
    split
    · exact prefix_send _ _
    · exact List.prefix_rfl

theorem prefix_foldl (tasks : List (Task (Item κ γ))) (h : Half κ) :
    h.seen <+: (tasks.foldl (Half.task k now) h).seen := by
  induction tasks generalizing h with
  | nil => exact List.prefix_rfl
  | cons t tasks ih => exact (prefix_task t).trans (ih _)

end Seen

end Manager

end TwinLink
