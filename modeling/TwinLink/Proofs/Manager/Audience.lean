import TwinLink.Proofs.Manager.Run

/-! The listeners of a manager. An emission calls the listeners that are registered when it
begins, each of them once and in the order of their registration, however many emissions
begin and whoever is registered or removed before it is over. A listener of snapshots is
called with every one that is emitted between its registration and its removal. The number
of a call is that of a registration, and the listener that is called is the one registered. -/

namespace TwinLink

/-- The listeners that an event concerns: those of snapshots or of the status of a channel. -/
def Event.topic : Event → Option ChannelKind
  | snapshot _ => none
  | status e => some e.channel

namespace Hub

variable {κ : Type}

def roster (h : Hub κ) : Option ChannelKind → Roster κ
  | none => h.snapshots
  | some k => h.listeners k

theorem roster_congr {h h' : Hub κ} (hs : h'.snapshots = h.snapshots)
    (hl : ∀ k, h'.listeners k = h.listeners k) (topic : Option ChannelKind) :
    h'.roster topic = h.roster topic := by
  cases topic with
  | none => exact hs
  | some k => exact hl k

theorem roster_unsubscribe (h : Hub κ) (id : Nat) (topic : Option ChannelKind) :
    (h.unsubscribe id).roster topic = (h.roster topic).remove id := by
  rcases topic with _ | k
  · rfl
  · cases k <;> rfl

end Hub

namespace Manager

open Socket World

variable {κ γ τ ν : Type} {C : Client κ γ τ ν}

/-- A call of a listener: the emission, the registration and the event. -/
abbrev Call := Option Nat × Nat × Event

/-- The calls that wait. -/
def calls (tasks : List (Task (Item κ γ))) : List Call :=
  tasks.filterMap fun
    | .work (.call emission id _ e) => some (emission, id, e)
    | _ => none

def called (ns : List (Note ν κ)) : List Call :=
  ns.filterMap fun
    | .called emission id _ e => some (emission, id, e)
    | _ => none

/-- The emissions, each with its number and with those whom it concerns. -/
def emitted (ns : List (Note ν κ)) : List (Nat × Event × List Nat) :=
  ns.filterMap fun
    | .emitted n e ids => some (n, e, ids)
    | _ => none

/-- The listeners that an emission calls, and with what. -/
def callsOf (n : Nat) (cs : List Call) : List (Nat × Event) :=
  cs.filterMap fun (m, id, e) => if m = some n then some (id, e) else none

/-- What a note does to the registrations for a topic. -/
def Note.enroll (topic : Option ChannelKind) (ids : List Nat) : Note ν κ → List Nat
  | registered id t _ => if t = topic then ids ++ [id] else ids
  | removed id => ids.filter (· ≠ id)
  | _ => ids

/-- The registrations for a topic that have not been removed, in order. -/
def enrolled (topic : Option ChannelKind) (ns : List (Note ν κ)) : List Nat :=
  ns.foldl (Note.enroll topic) []

/-- An emission begins with those who are registered for it. -/
def Addressed (before : List (Note ν κ)) (n : Note ν κ) : Prop :=
  ∀ number e ids, n = .emitted number e ids → ids = enrolled e.topic before

/-- What the notes of a run tell about a hub and about the calls that wait. -/
structure Audience (ns : List (Note ν κ)) (h : Hub κ) (waiting : List Call) : Prop where
  roster : ∀ topic, (h.roster topic).ids = enrolled topic ns
  known : ∀ topic, ∀ id ∈ (h.roster topic).ids, id < h.registrations
  nodup : ∀ topic, (h.roster topic).ids.Nodup
  numbers : (emitted ns).map Prod.fst = List.range h.emissions
  addressed : Each Addressed ns
  /-- Who is concerned has been called or will be, once and in order. -/
  complete : ∀ n e ids, (n, e, ids) ∈ emitted ns →
    callsOf n (called ns ++ waiting) = ids.map (·, e)
  sound : ∀ n, h.emissions ≤ n → callsOf n (called ns ++ waiting) = []

section Append

variable (ns m : List (Note ν κ))

theorem called_append : called (ns ++ m) = called ns ++ called m := List.filterMap_append

theorem emitted_append : emitted (ns ++ m) = emitted ns ++ emitted m := List.filterMap_append

theorem callsOf_append (n : Nat) (p q : List Call) :
    callsOf n (p ++ q) = callsOf n p ++ callsOf n q := List.filterMap_append

theorem enrolled_append (topic : Option ChannelKind) :
    enrolled topic (ns ++ m) = m.foldl (Note.enroll topic) (enrolled topic ns) :=
  List.foldl_append

end Append

section Plain

variable {m : List (Note ν κ)}

theorem called_of_plain (h : ∀ n ∈ m, n.isPlain = true) : called m = [] := by
  rw [called, List.filterMap_eq_nil_iff]
  intro n hn
  have := h n hn
  cases n <;> simp_all [Note.isPlain]

theorem emitted_of_plain (h : ∀ n ∈ m, n.isPlain = true) : emitted m = [] := by
  rw [emitted, List.filterMap_eq_nil_iff]
  intro n hn
  have := h n hn
  cases n <;> simp_all [Note.isPlain]

theorem enroll_of_plain {n : Note ν κ} (h : n.isPlain = true) (topic : Option ChannelKind)
    (ids : List Nat) : n.enroll topic ids = ids := by
  cases n <;> simp_all [Note.isPlain, Note.enroll]

theorem foldl_enroll_of_plain (h : ∀ n ∈ m, n.isPlain = true) (topic : Option ChannelKind)
    (ids : List Nat) : m.foldl (Note.enroll topic) ids = ids := by
  induction m with
  | nil => rfl
  | cons n m ih =>
    rw [List.foldl_cons, enroll_of_plain (h n List.mem_cons_self)]
    exact ih fun x hx => h x (List.mem_cons_of_mem n hx)

theorem calls_of_plain {tasks : List (Task (Item κ γ))} (h : ∀ t ∈ tasks, isPlain t = true) :
    calls tasks = [] := by
  rw [calls, List.filterMap_eq_nil_iff]
  intro t ht
  have := h t ht
  cases t with
  | work item => cases item <;> simp_all [isPlain, Item.isCall]
  | _ => rfl

end Plain

/-! ### What an item does -/

section Step

variable {ns m : List (Note ν κ)} {hub hub' : Hub κ} {waiting : List Call}

/-- Where no emission begins and no call is lost or added, only the registrations matter. -/
theorem Audience.frame {waiting' : List Call} (h : Audience ns hub waiting)
    (hemitted : Manager.emitted m = [])
    (hcalled : Manager.called m ++ waiting' = waiting) (he : hub'.emissions = hub.emissions)
    (hr : ∀ topic, (hub'.roster topic).ids = m.foldl (Note.enroll topic) (hub.roster topic).ids)
    (hk : ∀ topic, ∀ id ∈ (hub'.roster topic).ids, id < hub'.registrations)
    (hn : ∀ topic, (hub'.roster topic).ids.Nodup) : Audience (ns ++ m) hub' waiting' := by
  have hnone : Manager.emitted (ns ++ m) = Manager.emitted ns := by
    rw [emitted_append, hemitted, List.append_nil]
  have hsame : Manager.called (ns ++ m) ++ waiting' = Manager.called ns ++ waiting := by
    rw [called_append, List.append_assoc, hcalled]
  refine
    { roster := fun topic => by rw [hr, h.roster, enrolled_append]
      known := hk
      nodup := hn
      numbers := by rw [hnone, he]; exact h.numbers
      addressed := each_append_of_forall h.addressed ?_
      complete := fun n e ids hmem => ?_
      sound := fun n hle => ?_ }
  · rintro n hmem before number e ids rfl
    have hnew : (number, e, ids) ∈ Manager.emitted m := List.mem_filterMap.mpr ⟨_, hmem, rfl⟩
    rw [hemitted] at hnew
    cases hnew
  · rw [hnone] at hmem
    rw [hsame]
    exact h.complete n e ids hmem
  · rw [he] at hle
    rw [hsame]
    exact h.sound n hle

theorem Audience.plain (h : Audience ns hub waiting) (hm : ∀ n ∈ m, n.isPlain = true)
    (hr : ∀ topic, hub'.roster topic = hub.roster topic)
    (hg : hub'.registrations = hub.registrations) (he : hub'.emissions = hub.emissions) :
    Audience (ns ++ m) hub' waiting := by
  refine h.frame (emitted_of_plain hm) ?_ he (fun topic => ?_) (fun topic => ?_) fun topic => ?_
  · rw [called_of_plain hm, List.nil_append]
  · rw [hr, foldl_enroll_of_plain hm]
  · rw [hr, hg]
    exact h.known topic
  · rw [hr]
    exact h.nodup topic

/-- What a registration is told on its own belongs to no emission. -/
theorem Audience.greet (h : Audience ns hub waiting) (id : Nat) (e : Event) :
    Audience ns hub ((none, id, e) :: waiting) := by
  have hc (n : Nat) : callsOf n (Manager.called ns ++ (none, id, e) :: waiting) =
      callsOf n (Manager.called ns ++ waiting) := by
    rw [callsOf_append, callsOf_append]
    rfl
  exact
    { h with
      complete := fun n e ids hmem => by rw [hc]; exact h.complete n e ids hmem
      sound := fun n hn => by rw [hc]; exact h.sound n hn }

/-- A call that waits is made. -/
theorem Audience.call {emission : Option Nat} {id : Nat} {e : Event}
    (h : Audience ns hub ((emission, id, e) :: waiting)) (listener : κ) :
    Audience (ns ++ [.called emission id listener e]) hub waiting :=
  h.frame rfl rfl rfl (fun _ => rfl) h.known h.nodup

theorem callsOf_emission (n k : Nat) (e : Event) (ids : List Nat) :
    callsOf k (ids.map fun id => (some n, id, e)) = if n = k then ids.map (·, e) else [] := by
  induction ids with
  | nil => simp [callsOf]
  | cons id ids ih =>
    simp only [callsOf, List.map_cons, List.filterMap_cons, Option.some.injEq] at ih ⊢
    by_cases hk : n = k <;> simp_all

/-- An emission begins: those who are registered for it are to be called first. -/
theorem Audience.emit (h : Audience ns hub waiting) (e : Event)
    (hr : ∀ topic, hub'.roster topic = hub.roster topic)
    (hg : hub'.registrations = hub.registrations) (he : hub'.emissions = hub.emissions + 1) :
    Audience (ns ++ [.emitted hub.emissions e (hub.roster e.topic).ids]) hub'
      ((hub.roster e.topic).ids.map (fun id => (some hub.emissions, id, e)) ++ waiting) := by
  generalize hids : (hub.roster e.topic).ids = ids
  have hemitted : Manager.emitted (ns ++ [.emitted hub.emissions e ids]) =
      Manager.emitted ns ++ [(hub.emissions, e, ids)] := emitted_append _ _
  have hcalled : Manager.called (ns ++ [.emitted hub.emissions e ids]) = Manager.called ns := by
    rw [called_append]
    exact List.append_nil _
  -- only the new emission has calls that it did not have
  have hcalls (n : Nat) : callsOf n (Manager.called ns ++
      (ids.map (fun id => (some hub.emissions, id, e)) ++ waiting)) =
        callsOf n (Manager.called ns) ++
          ((if hub.emissions = n then ids.map (·, e) else []) ++ callsOf n waiting) := by
    rw [callsOf_append, callsOf_append, callsOf_emission]
  have hold (n : Nat) (hn : hub.emissions ≠ n) : callsOf n (Manager.called ns ++
      (ids.map (fun id => (some hub.emissions, id, e)) ++ waiting)) =
        callsOf n (Manager.called ns ++ waiting) := by
    rw [hcalls, if_neg hn, List.nil_append, callsOf_append]
  refine
    { roster := fun topic => by rw [hr, enrolled_append]; exact h.roster topic
      known := fun topic => by rw [hr, hg]; exact h.known topic
      nodup := fun topic => by rw [hr]; exact h.nodup topic
      numbers := ?_
      addressed := each_append_one h.addressed ?_
      complete := ?_
      sound := fun n hn => ?_ }
  · rw [hemitted, List.map_append, h.numbers, he, List.range_succ]
    rfl
  · rintro number e' ids' ⟨⟩
    rw [← hids]
    exact h.roster e.topic
  · intro n e' ids' hmem
    rw [hemitted] at hmem
    rw [hcalled]
    rcases List.mem_append.mp hmem with hmem | hmem
    · have hlt : n ∈ List.range hub.emissions := h.numbers ▸ List.mem_map_of_mem hmem
      have hn : hub.emissions ≠ n := by
        have := List.mem_range.mp hlt
        omega
      rw [hold n hn]
      exact h.complete n e' ids' hmem
    · cases List.mem_singleton.mp hmem
      have hnone := h.sound hub.emissions (Nat.le_refl _)
      rw [callsOf_append, List.append_eq_nil_iff] at hnone
      rw [hcalls, if_pos rfl, hnone.1, hnone.2, List.append_nil, List.nil_append]
  · rw [he] at hn
    rw [hcalled, hold n (by omega)]
    exact h.sound n (by omega)

/-- A listener is registered behind those who are. -/
theorem Audience.register (h : Audience ns hub waiting) (topic : Option ChannelKind)
    (listener : κ)
    (hr : ∀ t, (hub'.roster t).ids =
      if topic = t then (hub.roster t).ids ++ [hub.registrations] else (hub.roster t).ids)
    (hg : hub'.registrations = hub.registrations + 1) (he : hub'.emissions = hub.emissions) :
    Audience (ns ++ [.registered hub.registrations topic listener]) hub' waiting := by
  refine h.frame rfl rfl he hr (fun t id hid => ?_) fun t => ?_
  · rw [hr] at hid
    rw [hg]
    have hknown := h.known t id
    split at hid
    · rcases List.mem_append.mp hid with hid | hid
      · have := hknown hid
        omega
      · have := List.mem_singleton.mp hid
        omega
    · have := hknown hid
      omega
  · rw [hr]
    split
    · refine List.nodup_append.mpr ⟨h.nodup t, by simp, fun a ha b hb => ?_⟩
      have hlt := h.known t a ha
      have := List.mem_singleton.mp hb
      omega
    · exact h.nodup t

theorem Audience.unsubscribe (h : Audience ns hub waiting) (id : Nat) :
    Audience (ns ++ [.removed id]) (hub.unsubscribe id) waiting := by
  have hids (topic : Option ChannelKind) : ((hub.unsubscribe id).roster topic).ids =
      (hub.roster topic).ids.filter (· ≠ id) := by
    rw [hub.roster_unsubscribe, Roster.ids_remove]
  refine h.frame rfl rfl rfl hids (fun topic i hi => ?_) fun topic => ?_
  · rw [hids] at hi
    exact h.known topic i (List.mem_filter.mp hi).1
  · rw [hids]
    exact (h.nodup topic).filter _

theorem calls_append (p q : List (Task (Item κ γ))) : calls (p ++ q) = calls p ++ calls q :=
  List.filterMap_append

theorem calls_cons_of_not_call {item : Item κ γ} (h : item.isCall = false)
    (tasks : List (Task (Item κ γ))) : calls (.work item :: tasks) = calls tasks := by
  cases item <;> simp_all [calls, Item.isCall]

theorem calls_emission (n : Nat) (r : Roster κ) (e : Event) :
    calls (r.entries.map fun l => (Task.work (.call (some n) l.1 l.2 e) : Task (Item κ γ))) =
      r.ids.map fun id => (some n, id, e) := by
  rw [calls, List.filterMap_map, Roster.ids, List.map_map, ← List.filterMap_eq_map]
  rfl

/-- What waits once a listener of a status is registered: it is told the status first. -/
theorem calls_greeting {next : List (Task (Item κ γ))} (h : ∀ t ∈ next, isPlain t = true) (id : Nat)
    (listener : κ) (e : Event) :
    calls (.work (.call none id listener e) :: next) = [(none, id, e)] := by
  have hcons : calls (.work (.call none id listener e) :: next) = (none, id, e) :: calls next := rfl
  rw [hcons, calls_of_plain h]

/-- What an item means for the listeners, those who are concerned are called for. -/
theorem Effect.audience {item : Item κ γ} {next rest : List (Task (Item κ γ))}
    (he : Effect item hub hub' m next) (ha : Audience ns hub (calls (.work item :: rest))) :
    Audience (ns ++ m) hub' (calls (next ++ rest)) := by
  rw [calls_append]
  cases he with
  | plain hi hn hnext hr hl hg hem hs =>
    rw [calls_cons_of_not_call hi] at ha
    rw [calls_of_plain hnext, List.nil_append]
    exact ha.plain hn (Hub.roster_congr hr hl) hg hem
  | snapshot hi x =>
    rw [calls_cons_of_not_call hi] at ha
    rw [calls_emission]
    have hroster (topic : Option ChannelKind) : ({ hub with
        latest := some x, sequence := hub.sequence + 1, emissions := hub.emissions + 1 } :
          Hub κ).roster topic = hub.roster topic :=
      Hub.roster_congr rfl (fun k => by cases k <;> rfl) topic
    exact ha.emit (.snapshot ⟨x, hub.sequence + 1⟩) hroster rfl rfl
  | status hi k b log =>
    rw [calls_cons_of_not_call hi] at ha
    rw [calls_emission]
    have hroster (topic : Option ChannelKind) : ({ hub.setConnected k b with
        emissions := hub.emissions + 1 } : Hub κ).roster topic = hub.roster topic :=
      Hub.roster_congr (by cases k <;> rfl) (fun k' => by cases k <;> cases k' <;> rfl) topic
    have hg : (hub.setConnected k b).registrations = hub.registrations := by cases k <;> rfl
    have hlog := ha.plain (m := [Note.log log]) (by simp [Note.isPlain]) (fun _ => rfl) rfl rfl
    have hemit := hlog.emit (.status ⟨k, b⟩) hroster hg rfl
    rwa [List.append_assoc] at hemit
  | call hi hn hnext =>
    subst hi
    rw [calls_of_plain hnext, List.nil_append, List.append_cons]
    exact (ha.call _).plain hn (fun _ => rfl) rfl rfl
  | subscribe hi listener hnext =>
    rw [calls_cons_of_not_call hi] at ha
    rw [calls_of_plain hnext, List.nil_append]
    refine ha.register none listener (fun t => ?_) rfl rfl
    rcases t with _ | k
    · exact Roster.ids_insert _ _ _
    · cases k <;> rfl
  | watch hi k listener hnext =>
    rw [calls_cons_of_not_call hi] at ha
    rw [calls_greeting hnext]
    refine (ha.register (some k) listener (fun t => ?_) (by cases k <;> rfl)
      (by cases k <;> rfl)).greet _ _
    rcases t with _ | t
    · cases k <;> rfl
    · cases k <;> cases t <;> first | exact Roster.ids_insert _ _ _ | rfl
  | remove hi id =>
    rw [calls_cons_of_not_call hi] at ha
    exact ha.unsubscribe id

/-- Nobody is registered at first. -/
theorem audience_empty : Audience ([] : List (Note ν κ)) (Hub.empty : Hub κ) [] := by
  have hempty (topic : Option ChannelKind) : ((Hub.empty : Hub κ).roster topic).ids = [] := by
    rcases topic with _ | k
    · rfl
    · cases k <;> rfl
  exact
    { roster := fun topic => by rw [hempty]; rfl
      known := fun topic => by rw [hempty]; simp
      nodup := fun topic => by rw [hempty]; simp
      numbers := rfl
      addressed := each_nil _
      complete := by simp [Manager.emitted]
      sound := fun n _ => rfl }

end Step

/-! ### Who is called -/

/-- The registrations, each with its listener. -/
def registrants (ns : List (Note ν κ)) : List (Nat × κ) :=
  ns.filterMap fun
    | .registered id _ listener => some (id, listener)
    | _ => none

/-- The listeners that wait to be called, and by which registration. -/
def callees (tasks : List (Task (Item κ γ))) : List (Nat × κ) :=
  tasks.filterMap fun
    | .work (.call _ id listener _) => some (id, listener)
    | _ => none

/-- Who is called is registered under the number of the call. -/
def Voiced (before : List (Note ν κ)) (n : Note ν κ) : Prop :=
  ∀ emission id listener e, n = .called emission id listener e →
    (id, listener) ∈ registrants before

/-- What the notes of a run tell about the listeners themselves. -/
structure Voices (ns : List (Note ν κ)) (h : Hub κ) (tasks : List (Task (Item κ γ))) : Prop where
  /-- No number stands for two listeners. -/
  numbers : (registrants ns).map Prod.fst = List.range h.registrations
  voiced : Each Voiced ns
  rosters : ∀ topic, ∀ x ∈ (h.roster topic).entries, x ∈ registrants ns
  waiting : ∀ x ∈ callees tasks, x ∈ registrants ns

section Voices

variable {ns m : List (Note ν κ)} {hub hub' : Hub κ} {tasks tasks' : List (Task (Item κ γ))}

theorem registrants_append : registrants (ns ++ m) = registrants ns ++ registrants m :=
  List.filterMap_append

theorem callees_append : callees (tasks ++ tasks') = callees tasks ++ callees tasks' :=
  List.filterMap_append

theorem registrants_of_plain (h : ∀ n ∈ m, n.isPlain = true) : registrants m = [] := by
  rw [registrants, List.filterMap_eq_nil_iff]
  intro n hn
  have := h n hn
  cases n <;> simp_all [Note.isPlain]

theorem callees_of_plain (h : ∀ t ∈ tasks, isPlain t = true) : callees tasks = [] := by
  rw [callees, List.filterMap_eq_nil_iff]
  intro t ht
  have := h t ht
  cases t with
  | work item => cases item <;> simp_all [isPlain, Item.isCall]
  | _ => rfl

theorem callees_emission (n : Nat) (r : Roster κ) (e : Event) :
    callees (r.entries.map fun l => (Task.work (.call (some n) l.1 l.2 e) : Task (Item κ γ))) =
      r.entries := by
  rw [callees, List.filterMap_map]
  exact List.filterMap_some

/-- Where nobody is registered, a listener is called that has waited for it. -/
theorem Voices.frame (h : Voices ns hub tasks) (hm : registrants m = [])
    (hg : hub'.registrations = hub.registrations)
    (hr : ∀ topic, ∀ x ∈ (hub'.roster topic).entries, x ∈ (hub.roster topic).entries)
    (hw : ∀ x ∈ callees tasks', x ∈ registrants ns)
    (hc : ∀ emission id listener e, .called emission id listener e ∈ m →
      (id, listener) ∈ callees tasks) : Voices (ns ++ m) hub' tasks' := by
  have hsame : registrants (ns ++ m) = registrants ns := by
    rw [registrants_append, hm, List.append_nil]
  refine ⟨by rw [hsame, hg]; exact h.numbers, each_append h.voiced ?_, fun topic x hx => ?_, ?_⟩
  · rintro before n after rfl emission id listener e rfl
    rw [registrants_append]
    exact List.mem_append_left _ (h.waiting _ (hc emission id listener e (by simp)))
  · rw [hsame]
    exact h.rosters topic x (hr topic x hx)
  · rw [hsame]
    exact hw

/-- A listener is registered. -/
theorem Voices.register (h : Voices ns hub tasks) (topic : Option ChannelKind) (listener : κ)
    (hg : hub'.registrations = hub.registrations + 1)
    (hr : ∀ t, ∀ x ∈ (hub'.roster t).entries,
      x ∈ (hub.roster t).entries ∨ x = (hub.registrations, listener))
    (hw : ∀ x ∈ callees tasks', x ∈ registrants ns ∨ x = (hub.registrations, listener)) :
    Voices (ns ++ [.registered hub.registrations topic listener]) hub' tasks' := by
  have hnew : registrants (ns ++ [.registered hub.registrations topic listener]) =
      registrants ns ++ [(hub.registrations, listener)] := registrants_append
  refine ⟨?_, each_append_one h.voiced nofun, fun t x hx => ?_, fun x hx => ?_⟩
  · rw [hnew, List.map_append, h.numbers, hg, List.range_succ]
    rfl
  · rw [hnew, List.mem_append, List.mem_singleton]
    exact (hr t x hx).imp_left (h.rosters t x)
  · rw [hnew, List.mem_append, List.mem_singleton]
    exact hw x hx

/-- What an item means for the listeners, those who are called for are registered. -/
theorem Effect.voices {item : Item κ γ} {next rest : List (Task (Item κ γ))}
    (he : Effect item hub hub' m next) (h : Voices ns hub (.work item :: rest)) :
    Voices (ns ++ m) hub' (next ++ rest) := by
  have hrest (x) (hx : x ∈ callees rest) : x ∈ registrants ns := by
    refine h.waiting x ?_
    rw [← List.singleton_append, callees_append]
    exact List.mem_append_right _ hx
  have hemission (n : Nat) (topic : Option ChannelKind) (e : Event) :
      ∀ x ∈ callees (((hub.roster topic).entries.map fun l =>
        (Task.work (.call (some n) l.1 l.2 e) : Task (Item κ γ))) ++ rest), x ∈ registrants ns := by
    intro x hx
    rw [callees_append, callees_emission, List.mem_append] at hx
    exact hx.elim (h.rosters topic x) (hrest x)
  cases he with
  | plain hi hn hnext hr hl hg hem hs =>
    refine h.frame (registrants_of_plain hn) hg (fun topic x hx => ?_) ?_ ?_
    · rwa [Hub.roster_congr hr hl] at hx
    · rw [callees_append, callees_of_plain hnext]
      exact hrest
    · intro emission id listener e hmem
      cases hn _ hmem
  | snapshot hi x =>
    refine h.frame rfl rfl (fun topic y hy => ?_) (hemission _ none _) (by simp)
    rcases topic with _ | k
    · exact hy
    · cases k <;> exact hy
  | status hi k b log =>
    refine h.frame rfl (by cases k <;> rfl) (fun topic y hy => ?_) (hemission _ (some k) _)
      (by simp)
    rcases topic with _ | t
    · cases k <;> exact hy
    · cases k <;> cases t <;> exact hy
  | @call emission id listener e hi notes _ hn hnext =>
    subst hi
    have hnone := registrants_of_plain hn
    refine h.frame hnone rfl (fun _ _ hx => hx) ?_ ?_
    · rw [callees_append, callees_of_plain hnext]
      exact hrest
    · intro emission' id' listener' e' hmem
      rcases List.mem_cons.mp hmem with hmem | hmem
      · cases hmem
        exact List.mem_cons_self
      · cases hn _ hmem
  | subscribe hi listener hnext =>
    refine h.register none listener rfl (fun t x hx => ?_) ?_
    · rcases t with _ | k
      · simpa [Hub.subscribe, Hub.roster, Roster.insert] using hx
      · cases k <;> exact .inl hx
    · rw [callees_append, callees_of_plain hnext]
      exact fun x hx => .inl (hrest x hx)
  | @watch hi k listener next hnext =>
    refine h.register (some k) listener (by cases k <;> rfl) (fun t x hx => ?_) fun x hx => ?_
    · rcases t with _ | t
      · cases k <;> exact .inl hx
      · cases k <;> cases t <;> first
          | exact .inl hx
          | simpa [Hub.watch, Hub.roster, Hub.listeners, Roster.insert] using hx
    · have hnew : callees (.work (.call none hub.registrations listener
          (.status ⟨k, hub.isConnected k⟩)) :: next) = (hub.registrations, listener) ::
            callees next := rfl
      rw [callees_append, hnew, callees_of_plain hnext] at hx
      exact (List.mem_cons.mp hx).symm.imp_left (hrest x)
  | remove hi id =>
    refine h.frame rfl rfl (fun topic x hx => ?_) hrest (by simp)
    rw [Hub.roster_unsubscribe] at hx
    exact (List.mem_filter.mp hx).1

theorem voices_empty : Voices ([] : List (Note ν κ)) (Hub.empty : Hub κ)
    ([] : List (Task (Item κ γ))) where
  numbers := rfl
  voiced := each_nil _
  rosters topic x hx := by
    rcases topic with _ | k
    · cases hx
    · cases k <;> cases hx
  waiting x hx := by cases hx

end Voices

end Manager

end TwinLink
