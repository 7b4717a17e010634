import Mathlib.Data.List.Nodup
import TwinLink.Proofs.Manager.Snapshots
import TwinLink.Proofs.World.Reports

/-! Changes of status and those who hear of them. A channel that opens or closes is told of once
it is known to the manager, so what is emitted alternates, and the last change emitted is what
the channel is held to be. Main statement: a listener of a status is called once when it is
registered, with what the channel is held to be then, and once for every change that is emitted
while it is registered. -/

namespace TwinLink.Manager

open Socket World

variable {κ γ τ ν : Type} {C : Client κ γ τ ν}

/-- The changes of status of a channel that are emitted. -/
def transitions (k : ChannelKind) (ns : List (Note ν κ)) : List Bool :=
  ns.filterMap fun
    | .emitted _ (.status e) _ => if e.channel = k then some e.connected else none
    | _ => none

/-- The registrations, and what they are for. -/
def registrations (ns : List (Note ν κ)) : List (Nat × Option ChannelKind) :=
  ns.filterMap fun
    | .registered id topic _ => some (id, topic)
    | _ => none

/-- The calls of a listener: the emission, if the call belongs to one, and the event. -/
def callsTo (id : Nat) (cs : List Call) : List (Option Nat × Event) :=
  cs.filterMap fun (n, i, e) => if i = id then some (n, e) else none

/-- The calls that are due to a listener when something is noted: the status of the channel that
it is registered for, and any event that it is registered for. -/
def Note.owes (id : Nat) (before : List (Note ν κ)) : Note ν κ → List (Option Nat × Event)
  | registered i (some k) _ =>
    if i = id then [(none, .status ⟨k, upshot (transitions k before)⟩)] else []
  | emitted n e _ => if id ∈ enrolled e.topic before then [(some n, e)] else []
  | _ => []

/-- The calls that are due to a listener by what comes after `before`, in that order. -/
def owedAfter (id : Nat) : List (Note ν κ) → List (Note ν κ) → List (Option Nat × Event)
  | _, [] => []
  | before, n :: ns => n.owes id before ++ owedAfter id (before ++ [n]) ns

def owed (id : Nat) (ns : List (Note ν κ)) : List (Option Nat × Event) := owedAfter id [] ns

/-- A listener of a status is called as soon as it is registered, before its registration is
answered. -/
def Greeted (ns : List (Note ν κ)) (tasks : List (Task (Item κ γ))) : Prop :=
  ∀ before id k listener after, ns = before ++ .registered id (some k) listener :: after →
    (∃ later,
      after = .called none id listener (.status ⟨k, upshot (transitions k before)⟩) :: later) ∨
      after = [] ∧ ∃ reply rest,
        tasks = .work (.call none id listener (.status ⟨k, upshot (transitions k before)⟩)) ::
          .work (.request (.own reply)) :: rest

/-- What the notes of a run tell about the changes of status that listeners are called with. -/
structure Informed (ns : List (Note ν κ)) (h : Hub κ) (tasks : List (Task (Item κ γ))) : Prop where
  alternate : ∀ k, Alternates (transitions k ns)
  current : ∀ k, h.isConnected k = upshot (transitions k ns)
  /-- Emissions and registrations have numbers of their own. -/
  emissions : (emitted ns).map Prod.fst = List.range h.emissions
  registrations : (registrations ns).map Prod.fst = List.range h.registrations
  greeted : Greeted ns tasks
  /-- Whatever is due has been called or will be, once, and nothing else. -/
  calls : ∀ id, (callsTo id (called ns ++ calls tasks)).Perm (owed id ns)
  /-- Nothing is due that is not about the channel. -/
  topic : ∀ id k, (id, some k) ∈ Manager.registrations ns → ∀ x ∈ owed id ns, x.2.topic = some k

section Append

variable (id : Nat) (ns m : List (Note ν κ))

theorem transitions_append (k : ChannelKind) :
    transitions k (ns ++ m) = transitions k ns ++ transitions k m := List.filterMap_append

theorem registrations_append : registrations (ns ++ m) = registrations ns ++ registrations m :=
  List.filterMap_append

theorem callsTo_append (p q : List Call) : callsTo id (p ++ q) = callsTo id p ++ callsTo id q :=
  List.filterMap_append

theorem owedAfter_append (before : List (Note ν κ)) :
    owedAfter id before (ns ++ m) = owedAfter id before ns ++ owedAfter id (before ++ ns) m := by
  induction ns generalizing before with
  | nil => simp [owedAfter]
  | cons n ns ih => simp [owedAfter, ih]

theorem owed_append : owed id (ns ++ m) = owed id ns ++ owedAfter id ns m :=
  owedAfter_append id ns m []

theorem owedAfter_one (n : Note ν κ) : owedAfter id ns [n] = n.owes id ns := List.append_nil _

theorem callsTo_emission (n : Nat) (e : Event) {ids : List Nat} (h : ids.Nodup) :
    callsTo id (ids.map fun i => (some n, i, e)) = if id ∈ ids then [(some n, e)] else [] := by
  induction ids with
  | nil => rfl
  | cons i ids ih =>
    obtain ⟨hi, hn⟩ := List.nodup_cons.mp h
    have hih := ih hn
    simp only [callsTo, List.map_cons, List.filterMap_cons] at hih ⊢
    by_cases hid : i = id
    · subst hid
      simp [hih, hi]
    · simp [hih, hid, Ne.symm hid]

end Append

section Plain

variable {m : List (Note ν κ)}

theorem owes_of_plain {n : Note ν κ} (h : n.isPlain = true) (id : Nat) (before : List (Note ν κ)) :
    n.owes id before = [] := by
  cases n <;> simp_all [Note.isPlain, Note.owes]

theorem owedAfter_of_plain (h : ∀ n ∈ m, n.isPlain = true) (id : Nat) (before : List (Note ν κ)) :
    owedAfter id before m = [] := by
  induction m generalizing before with
  | nil => rfl
  | cons n m ih =>
    rw [owedAfter, owes_of_plain (h n List.mem_cons_self)]
    exact ih (fun x hx => h x (List.mem_cons_of_mem n hx)) _

theorem registrations_of_plain (h : ∀ n ∈ m, n.isPlain = true) : registrations m = [] := by
  rw [registrations, List.filterMap_eq_nil_iff]
  intro n hn
  have := h n hn
  cases n <;> simp_all [Note.isPlain]

end Plain

/-! ### What an item does -/

section Step

variable {ns m : List (Note ν κ)} {hub hub' : Hub κ} {item : Item κ γ}
  {next rest : List (Task (Item κ γ))}

/-- A change of status is emitted where it is one. -/
theorem Performed.transitions {v : View} {s : State κ τ}
    {o : Outcome (State κ τ) (Item κ γ) (Note ν κ)} (hp : Performed C v s item o)
    (k : ChannelKind) :
    (transitions k o.notes = [] ∧ o.state.hub.isConnected k = s.hub.isConnected k) ∨
      ∃ b, s.hub.isConnected k ≠ b ∧ transitions k o.notes = [b] ∧
        o.state.hub.isConnected k = b := by
  cases hp with
  | @changed k' b hc =>
    by_cases hk : k' = k
    · subst hk
      right
      refine ⟨b, hc, by simp [emit, onHub, Manager.transitions], ?_⟩
      cases k' <;> rfl
    · left
      refine ⟨by simp [emit, onHub, Manager.transitions, hk], ?_⟩
      cases k' <;> cases k <;> first | rfl | exact absurd rfl hk
  | consulted | called => exact .inl ⟨by simp [consult, Manager.transitions], rfl⟩
  | unencoded | sent =>
    refine .inl ⟨by simp [conclude, onHub, Manager.transitions], ?_⟩
    cases k <;> rfl
  | watched k' => exact .inl ⟨rfl, by cases k' <;> cases k <;> rfl⟩
  | _ => exact .inl ⟨rfl, by cases k <;> rfl⟩

/-- A registration gets the next number. -/
theorem Effect.registrations (he : Effect item hub hub' m next) :
    (registrations m = [] ∧ hub'.registrations = hub.registrations) ∨
      ∃ topic, registrations m = [(hub.registrations, topic)] ∧
        hub'.registrations = hub.registrations + 1 := by
  cases he with
  | plain _ hn _ _ _ hg => exact .inl ⟨registrations_of_plain hn, hg⟩
  | call _ hn =>
    have hnone := registrations_of_plain hn
    exact .inl ⟨hnone, rfl⟩
  | subscribe => exact .inr ⟨none, rfl, rfl⟩
  | watch _ k => exact .inr ⟨some k, rfl, by cases k <;> rfl⟩
  | status _ k => exact .inl ⟨rfl, by cases k <;> rfl⟩
  | _ => exact .inl ⟨rfl, rfl⟩

/-- What an item means for one listener: what is due to it and what it waits for stay the same,
or one call becomes due, which it waits for before any other. -/
inductive Owing (id : Nat) (hub : Hub κ) (ns m : List (Note ν κ)) (waiting waiting' : List Call) :
    Prop where
  | same (ho : owedAfter id ns m = [])
      (hc : callsTo id (called m ++ waiting') = callsTo id waiting)
      (hm : ∀ n e ids, .emitted n e ids ∈ m → id ∉ ids) : Owing id hub ns m waiting waiting'
  | greeted (k : ChannelKind) (listener : κ) (hid : id = hub.registrations)
      (hm : m = [.registered id (some k) listener])
      (ho : owedAfter id ns m = [(none, .status ⟨k, hub.isConnected k⟩)])
      (hc : callsTo id (called m ++ waiting') =
        (none, .status ⟨k, hub.isConnected k⟩) :: callsTo id waiting) :
      Owing id hub ns m waiting waiting'
  | emitted (e : Event) {ids : List Nat} {logs : List Log} (hid : id ∈ ids)
      (hm : m = logs.map .log ++ [.emitted hub.emissions e ids])
      (ho : owedAfter id ns m = [(some hub.emissions, e)])
      (hc : callsTo id (called m ++ waiting') = (some hub.emissions, e) :: callsTo id waiting) :
      Owing id hub ns m waiting waiting'

/-- An emission is due to those who are registered for it. -/
theorem owing_emission {waiting : List Call} (ha : Audience ns hub waiting) (logs : List Log)
    (e : Event) (id : Nat) :
    Owing id hub ns (logs.map .log ++ [.emitted hub.emissions e (hub.roster e.topic).ids]) waiting
      ((hub.roster e.topic).ids.map (fun i => (some hub.emissions, i, e)) ++ waiting) := by
  have hlogs : ∀ n ∈ logs.map (Note.log : Log → Note ν κ), n.isPlain = true := by
    simp [Note.isPlain]
  have henrolled (topic : Option ChannelKind) :
      enrolled topic (ns ++ logs.map .log) = (hub.roster topic).ids := by
    rw [enrolled_append, foldl_enroll_of_plain hlogs, ha.roster]
  have hcalled : called (logs.map .log ++
      [(.emitted hub.emissions e (hub.roster e.topic).ids : Note ν κ)]) = [] := by
    rw [called_append, called_of_plain hlogs]
    rfl
  have howed : owedAfter id ns (logs.map .log ++
      [.emitted hub.emissions e (hub.roster e.topic).ids]) =
        if id ∈ (hub.roster e.topic).ids then [(some hub.emissions, e)] else [] := by
    rw [owedAfter_append, owedAfter_of_plain hlogs, owedAfter_one, Note.owes, henrolled]
    rfl
  have hcalls : callsTo id (called (logs.map .log ++
      [(.emitted hub.emissions e (hub.roster e.topic).ids : Note ν κ)]) ++
        ((hub.roster e.topic).ids.map (fun i => (some hub.emissions, i, e)) ++ waiting)) =
      (if id ∈ (hub.roster e.topic).ids then [(some hub.emissions, e)] else []) ++
        callsTo id waiting := by
    rw [hcalled, List.nil_append, callsTo_append, callsTo_emission id _ _ (ha.nodup e.topic)]
  by_cases hid : id ∈ (hub.roster e.topic).ids
  · rw [if_pos hid] at howed hcalls
    exact .emitted e hid rfl howed hcalls
  · rw [if_neg hid] at howed hcalls
    refine .same howed hcalls fun n e' ids hmem => ?_
    simp only [List.mem_append, List.mem_map, reduceCtorEq, and_false, exists_false, false_or,
      List.mem_singleton, Note.emitted.injEq] at hmem
    rw [hmem.2.2]
    exact hid

theorem Effect.owing (he : Effect item hub hub' m next)
    (ha : Audience ns hub (calls (.work item :: rest)))
    (hc : ∀ k, hub.isConnected k = upshot (transitions k ns)) (id : Nat) :
    Owing id hub ns m (calls (.work item :: rest)) (calls (next ++ rest)) := by
  rw [calls_append]
  cases he with
  | plain hi hn hnext =>
    rw [calls_cons_of_not_call hi, calls_of_plain hnext]
    refine .same (owedAfter_of_plain hn id ns) (by rw [called_of_plain hn]; rfl)
      fun n e ids hmem => ?_
    have := hn _ hmem
    cases this
  | snapshot hi x =>
    rw [calls_cons_of_not_call hi] at ha ⊢
    rw [calls_emission]
    exact owing_emission ha [] (.snapshot ⟨x, hub.sequence + 1⟩) id
  | status hi k b log =>
    rw [calls_cons_of_not_call hi] at ha ⊢
    rw [calls_emission]
    exact owing_emission ha [log] (.status ⟨k, b⟩) id
  | @call emission i listener e hi notes _ hn hnext =>
    subst hi
    rw [calls_of_plain hnext]
    refine .same ?_ ?_ fun n e ids hmem => ?_
    · rw [owedAfter, owedAfter_of_plain hn]
      rfl
    · have hcalled : called (.called emission i listener e :: notes) =
          (emission, i, e) :: called notes := rfl
      rw [hcalled, called_of_plain hn]
      rfl
    · rcases List.mem_cons.mp hmem with hmem | hmem
      · cases hmem
      · cases hn _ hmem
  | subscribe hi listener hnext =>
    rw [calls_cons_of_not_call hi, calls_of_plain hnext]
    exact .same rfl rfl (by simp)
  | watch hi k listener hnext =>
    rw [calls_cons_of_not_call hi, calls_greeting hnext]
    by_cases hid : id = hub.registrations
    · subst hid
      refine .greeted k listener rfl rfl ?_ ?_
      · rw [owedAfter_one, Note.owes, if_pos rfl, hc]
      · simp [called, callsTo]
    · refine .same ?_ ?_ (by simp)
      · rw [owedAfter_one, Note.owes, if_neg (Ne.symm hid)]
      · simp [called, callsTo, Ne.symm hid]
  | remove hi i =>
    rw [calls_cons_of_not_call hi]
    exact .same rfl rfl (by simp)

/-- A registration for a status is noted alone, and its listener is to be called next. -/
theorem Performed.registered {v : View} {s : State κ τ}
    {o : Outcome (State κ τ) (Item κ γ) (Note ν κ)} (hp : Performed C v s item o)
    {before after : List (Note ν κ)} {id : Nat} {k : ChannelKind} {listener : κ}
    (h : o.notes = before ++ .registered id (some k) listener :: after) :
    before = [] ∧ after = [] ∧ ∃ reply,
      o.next = [.work (.call none id listener (.status ⟨k, s.hub.isConnected k⟩)),
        .work (.request (.own reply))] := by
  have hmem : .registered id (some k) listener ∈ o.notes := by simp [h]
  cases hp with
  | watched k' listener reply =>
    cases before with
    | nil =>
      obtain ⟨hone, hnil⟩ := List.cons.inj h
      cases hone
      exact ⟨rfl, hnil.symm, _, rfl⟩
    | cons => simp [onHub] at h
  | _ => simp [emit, onHub, consult, conclude] at hmem

theorem Greeted.work {v : View} {s : State κ τ} {o : Outcome (State κ τ) (Item κ γ) (Note ν κ)}
    (h : Greeted ns (.work item :: rest))
    (hc : ∀ k, s.hub.isConnected k = upshot (transitions k ns)) (hp : Performed C v s item o) :
    Greeted (ns ++ o.notes) (o.next ++ rest) := by
  intro before id k listener after hsplit
  rcases List.append_eq_append_iff.mp hsplit with ⟨m, rfl, hm⟩ | ⟨m, rfl, hm⟩
  · -- it is registered now
    obtain ⟨rfl, rfl, reply, hnext⟩ := hp.registered hm
    rw [List.append_nil, ← hc, hnext]
    exact .inr ⟨rfl, reply, rest, rfl⟩
  · cases m with
    | nil =>
      rw [List.append_nil] at hc
      have hm : o.notes = [] ++ .registered id (some k) listener :: after := hm.symm
      obtain ⟨-, rfl, reply, hnext⟩ := hp.registered hm
      rw [← hc, hnext]
      exact .inr ⟨rfl, reply, rest, rfl⟩
    | cons n m =>
      obtain ⟨rfl, rfl⟩ := List.cons.inj hm
      rcases h before id k listener m rfl with ⟨later, rfl⟩ | ⟨rfl, reply, rest', htasks⟩
      · exact .inl ⟨later ++ o.notes, rfl⟩
      · -- the listener is called
        obtain ⟨hitem, -⟩ := List.cons.inj htasks
        cases hitem
        cases hp
        exact .inl ⟨_, rfl⟩

theorem mem_registrations_of_enrolled {topic : Option ChannelKind} {id : Nat}
    (h : id ∈ enrolled topic ns) : (id, topic) ∈ registrations ns := by
  induction ns using List.reverseRecOn with
  | nil => cases h
  | append_singleton ns n ih =>
    rw [enrolled_append] at h
    rw [registrations_append, List.mem_append]
    cases n with
    | registered i t l =>
      simp only [List.foldl_cons, List.foldl_nil, Note.enroll] at h
      split at h
      next ht =>
        rcases List.mem_append.mp h with h | h
        · exact .inl (ih h)
        · rw [List.mem_singleton.mp h, ← ht]
          exact .inr List.mem_cons_self
      next => exact .inl (ih h)
    | removed i => exact .inl (ih (List.mem_filter.mp h).1)
    | _ => exact .inl (ih h)

/-- What is due to a listener is what it is registered for. -/
theorem mem_registrations_of_owed {id : Nat} {x : Option Nat × Event} (h : x ∈ owed id ns) :
    (id, x.2.topic) ∈ registrations ns := by
  induction ns using List.reverseRecOn with
  | nil => cases h
  | append_singleton ns n ih =>
    rw [owed_append, owedAfter_one] at h
    rw [registrations_append, List.mem_append]
    rcases List.mem_append.mp h with h | h
    · exact .inl (ih h)
    · cases n with
      | registered i t l =>
        cases t with
        | none => cases h
        | some k =>
          obtain ⟨rfl, hx⟩ := List.mem_ite_nil_right.mp h
          rw [List.mem_singleton.mp hx]
          exact .inr List.mem_cons_self
      | emitted n e ids =>
        obtain ⟨henrolled, hx⟩ := List.mem_ite_nil_right.mp h
        rw [List.mem_singleton.mp hx]
        exact .inl (mem_registrations_of_enrolled henrolled)
      | _ => cases h

/-- A listener is registered for one thing. -/
theorem topic_unique (h : ((registrations ns).map Prod.fst).Nodup) {id : Nat}
    {s t : Option ChannelKind} (hs : (id, s) ∈ registrations ns) (ht : (id, t) ∈ registrations ns) :
    s = t :=
  congrArg Prod.snd (List.inj_on_of_nodup_map h hs ht rfl)

/-- An item keeps all this. -/
theorem Informed.work {v : View} {s : State κ τ} {o : Outcome (State κ τ) (Item κ γ) (Note ν κ)}
    (h : Informed ns s.hub (.work item :: rest))
    (ha : Audience ns s.hub (Manager.calls (.work item :: rest))) (hp : Performed C v s item o) :
    Informed (ns ++ o.notes) o.state.hub (o.next ++ rest) := by
  have hregistrations : (Manager.registrations (ns ++ o.notes)).map Prod.fst =
      List.range o.state.hub.registrations := by
    rw [registrations_append, List.map_append, h.registrations]
    rcases hp.effect.registrations with ⟨hnone, hr⟩ | ⟨topic, hone, hr⟩
    · rw [hnone, hr, List.map_nil, List.append_nil]
    · rw [hone, hr, List.range_succ]
      rfl
  refine
    { alternate := fun k => ?_
      current := fun k => ?_
      emissions := (hp.effect.audience ha).numbers
      registrations := hregistrations
      greeted := h.greeted.work h.current hp
      calls := fun id => ?_
      topic := fun id k hid x hx =>
        topic_unique (hregistrations ▸ List.nodup_range) (mem_registrations_of_owed hx) hid }
  · rw [transitions_append]
    rcases hp.transitions k with ⟨hnone, -⟩ | ⟨b, hne, hone, -⟩
    · rw [hnone, List.append_nil]
      exact h.alternate k
    · rw [hone, alternates_append, ← h.current]
      exact ⟨h.alternate k, hne⟩
  · rw [transitions_append]
    rcases hp.transitions k with ⟨hnone, hsame⟩ | ⟨b, -, hone, hb⟩
    · rw [hnone, List.append_nil, hsame]
      exact h.current k
    · rw [hone, upshot_append, hb]
  · have hold := h.calls id
    rw [called_append, List.append_assoc, callsTo_append, owed_append]
    rw [callsTo_append] at hold
    -- a call that becomes due is to be made before those that wait
    have hnew {x : Option Nat × Event} : (callsTo id (called ns) ++
        x :: callsTo id (Manager.calls (.work item :: rest))).Perm (owed id ns ++ [x]) :=
      List.perm_middle.trans ((hold.cons x).trans (List.perm_append_singleton x _).symm)
    cases hp.effect.owing ha h.current id with
    | same ho hc =>
      rw [ho, hc, List.append_nil]
      exact hold
    | greeted _ _ _ _ ho hc =>
      rw [ho, hc]
      exact hnew
    | emitted _ _ _ ho hc =>
      rw [ho, hc]
      exact hnew

end Step

section Took

variable {w w' : System κ γ τ ν} {t : Turn κ γ} {done : Option (Task (Item κ γ))}
  {es : List (Entry (Note ν κ))} {past : List (System κ γ τ ν × Entry (Note ν κ))}

/-- What waits is left alone where no item is done. -/
theorem Greeted.idle {ns : List (Note ν κ)} (h : Greeted ns w.agenda)
    (ht : Took C w w' t done es) (hn : ∀ item, done ≠ some (.work item)) :
    Greeted ns w'.agenda := by
  intro before id k listener after hsplit
  rcases h before id k listener after hsplit with hlater | ⟨hnil, reply, rest, htasks⟩
  · exact .inl hlater
  · refine .inr ⟨hnil, reply, rest, ?_⟩
    cases ht with
    | outside _ ha => rw [ha, htasks]
    | work _ => exact absurd rfl (hn _)
    | ask _ ha | drive ha =>
      rw [ha] at htasks
      cases htasks
    | connect ha | teardown ha | sent ha | refused ha =>
      rw [ha] at htasks
      cases htasks

/-- A turn keeps all this. -/
theorem Informed.took (h : Informed (notes past) w.state.hub w.agenda)
    (ha : Audience (notes past) w.state.hub (Manager.calls w.agenda))
    (ht : Took C w w' t done es) :
    Informed (notes (past ++ es.map (w, ·))) w'.state.hub w'.agenda := by
  rcases ht.item with ⟨item, rest, o, hagenda, hp, hs, hagenda', hn⟩ | ⟨hs, hc, hn, hd⟩
  · rw [hagenda] at h ha
    rw [notes_append, hn, hs, hagenda']
    exact h.work ha hp
  · rw [notes_append, hn, List.append_nil, hs]
    exact
      { h with
        greeted := h.greeted.idle ht hd
        calls := fun id => by rw [hc]; exact h.calls id }

theorem Audience.took (h : Audience (notes past) w.state.hub (calls w.agenda))
    (ht : Took C w w' t done es) :
    Audience (notes (past ++ es.map (w, ·))) w'.state.hub (calls w'.agenda) := by
  rcases ht.item with ⟨item, rest, o, hagenda, hp, hs, hagenda', hn⟩ | ⟨hs, hc, hn, -⟩
  · rw [hagenda] at h
    rw [notes_append, hn, hs, hagenda']
    exact hp.effect.audience h
  · rw [notes_append, hn, List.append_nil, hs, hc]
    exact h

end Took

theorem informed_empty : Informed ([] : List (Note ν κ)) (Hub.empty : Hub κ)
    ([] : List (Task (Item κ γ))) where
  alternate _ := List.isChain_singleton _
  current k := by cases k <;> rfl
  emissions := rfl
  registrations := rfl
  greeted before id k listener after h := by simp at h
  calls _ := List.Perm.refl _
  topic id k h := by cases h

/-- Whatever happens in a run, and whatever listeners ask for while they are called, every
listener of a status is told what the channel is held to be when it is registered, and every
change that is emitted while it is. Who is called is the listener that was registered. -/
theorem run_informed (C : Client κ γ τ ν) (c : Config) (live command : List (Reply Answer))
    (client : τ) (turns : List (Turn κ γ)) :
    let w : System κ γ τ ν := ofConfig c live command client
    Informed (notes (history C turns w)) (run C turns w).state.hub (run C turns w).agenda ∧
      Voices (notes (history C turns w)) (run C turns w).state.hub (run C turns w).agenda := by
  intro w
  refine ⟨?_, run_voices C c live command client turns⟩
  have ha : w.agenda = [] := agenda_ofConfig c live command client
  have hs : w.state = ⟨.empty, client⟩ := state_ofConfig c live command client
  refine (run_invariant C (P := fun _ past w =>
    Audience (notes past) w.state.hub (calls w.agenda) ∧
      Informed (notes past) w.state.hub w.agenda)
    (fun _ past w w' t done es _ ht _ h => ⟨h.1.took ht, h.2.took h.1 ht⟩) turns w
    (shaped_ofConfig c live command client) ?_).2
  rw [ha, hs]
  exact ⟨audience_empty, informed_empty⟩

end TwinLink.Manager
