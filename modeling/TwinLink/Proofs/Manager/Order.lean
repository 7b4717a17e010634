import TwinLink.Proofs.Manager.Disconnect
import TwinLink.Proofs.Manager.Transitions

/-! In which order changes of status arrive. A change that comes about while an earlier one is
still being handed out is handed out at once, to listeners that wait for the earlier one too;
those are called with both, the later change first. Main statement: a listener is called with
what is due to it in order, hears values that alternate and ends with what the channel is held
to be, exactly if no emission to it has begun while it waited for a call. -/

namespace TwinLink.Manager

open Socket World

variable {κ γ τ ν : Type} {C : Client κ γ τ ν}

/-- The values that calls of a listener of a status carry. -/
def values (l : List (Option Nat × Event)) : List Bool :=
  l.filterMap fun
    | (_, .status e) => some e.connected
    | _ => none

/-- What a listener of a status may expect. -/
structure Heard (id : Nat) (ns : List (Note ν κ)) (h : Hub κ) (tasks : List (Task (Item κ γ))) :
    Prop where
  ordered : callsTo id (called ns ++ calls tasks) = owed id ns
  alternate : (values (callsTo id (called ns))).IsChain (· ≠ ·)
  current : tasks = [] → ∀ k, id ∈ enrolled (some k) ns →
    (values (callsTo id (called ns))).getLast? = some (h.isConnected k)

/-- No emission to a listener begins while it waits for a call. -/
def NeverOvertaken (id : Nat) (past : List (System κ γ τ ν × Entry (Note ν κ))) : Prop :=
  ∀ v n e ids, (v, .note (.emitted n e ids)) ∈ past → id ∈ ids → callsTo id (calls v.agenda) = []

/-! ### What is due -/

section Due

variable {ns : List (Note ν κ)} {id : Nat} {k : ChannelKind}

theorem values_append (p q : List (Option Nat × Event)) :
    values (p ++ q) = values p ++ values q := List.filterMap_append

theorem alternates_of_append {p q : List Bool} (h : Alternates (p ++ q)) : Alternates p := by
  rw [Alternates, ← List.cons_append] at h
  exact h.left_of_append

/-- What is due to a listener alternates, and while it is registered it is due last what is
emitted last. -/
structure Alternating (id : Nat) (ns : List (Note ν κ)) : Prop where
  chain : (values (owed id ns)).IsChain (· ≠ ·)
  last : ∀ k, id ∈ enrolled (some k) ns →
    (values (owed id ns)).getLast? = some (upshot (transitions k ns))

/-- Nothing becomes due, and nothing is emitted that the listener is registered for. -/
theorem Alternating.quiet (h : Alternating id ns) {n : Note ν κ} (ho : values (n.owes id ns) = [])
    (he : ∀ k, id ∈ enrolled (some k) (ns ++ [n]) →
      id ∈ enrolled (some k) ns ∧ transitions k [n] = []) : Alternating id (ns ++ [n]) := by
  have hsame : values (owed id (ns ++ [n])) = values (owed id ns) := by
    rw [owed_append, owedAfter_one, values_append, ho, List.append_nil]
  refine ⟨hsame ▸ h.chain, fun k hk => ?_⟩
  obtain ⟨hid, hnone⟩ := he k hk
  rw [hsame, transitions_append, hnone, List.append_nil]
  exact h.last k hid

/-- It is registered: the first that is due is what has been emitted last. -/
theorem alternating_register {listener : κ}
    (hr : ((registrations (ns ++ [.registered id (some k) listener])).map Prod.fst).Nodup) :
    Alternating id (ns ++ [.registered id (some k) listener]) := by
  have hmem : (id, some k) ∈ registrations (ns ++ [.registered id (some k) listener]) := by
    rw [registrations_append]
    exact List.mem_append_right _ List.mem_cons_self
  have hnew (topic : Option ChannelKind) : (id, topic) ∉ registrations ns := by
    rw [registrations_append, List.map_append, List.nodup_append] at hr
    intro h
    exact hr.2.2 id (List.mem_map_of_mem h) id List.mem_cons_self rfl
  have hnone : owed id ns = [] := List.eq_nil_iff_forall_not_mem.mpr fun x hx =>
    hnew _ (mem_registrations_of_owed hx)
  have hvalues : values (owed id (ns ++ [.registered id (some k) listener])) =
      [upshot (transitions k ns)] := by
    rw [owed_append, owedAfter_one, hnone, Note.owes, if_pos rfl]
    rfl
  refine ⟨hvalues ▸ List.isChain_singleton _, fun k' hk => ?_⟩
  obtain rfl : k' = k :=
    Option.some.inj (topic_unique hr (mem_registrations_of_enrolled hk) hmem)
  rw [hvalues, transitions_append]
  exact congrArg some (congrArg upshot (List.append_nil _).symm)

/-- A change is emitted that it is registered for. -/
theorem Alternating.emit (h : Alternating id ns) {n : Nat} {b : Bool} {ids : List Nat}
    (hr : ((registrations ns).map Prod.fst).Nodup) (hk : id ∈ enrolled (some k) ns)
    (hb : upshot (transitions k ns) ≠ b) :
    Alternating id (ns ++ [.emitted n (.status ⟨k, b⟩) ids]) := by
  have hvalues : values (owed id (ns ++ [.emitted n (.status ⟨k, b⟩) ids])) =
      values (owed id ns) ++ [b] := by
    rw [owed_append, owedAfter_one, values_append, Note.owes,
      if_pos (show id ∈ enrolled (Event.status ⟨k, b⟩).topic ns from hk)]
    rfl
  constructor
  · rw [hvalues, List.isChain_append, h.last k hk]
    refine ⟨h.chain, List.isChain_singleton _, ?_⟩
    simpa using hb
  · intro k' hk'
    rw [enrolled_append] at hk'
    obtain rfl : k' = k := Option.some.inj
      (topic_unique hr (mem_registrations_of_enrolled hk') (mem_registrations_of_enrolled hk))
    have hone : transitions k' [(.emitted n (.status ⟨k', b⟩) ids : Note ν κ)] = [b] := by
      simp [transitions]
    rw [hvalues, transitions_append, hone, upshot_append, List.getLast?_concat]

theorem owed_alternates (ha : ∀ k, Alternates (transitions k ns))
    (hr : ((registrations ns).map Prod.fst).Nodup) : Alternating id ns := by
  induction ns using List.reverseRecOn with
  | nil => exact ⟨List.isChain_nil, fun k h => by cases h⟩
  | append_singleton ns n ih =>
    have hr' : ((registrations ns).map Prod.fst).Nodup := by
      rw [registrations_append, List.map_append] at hr
      exact (List.nodup_append.mp hr).1
    have ha' (k : ChannelKind) : Alternates (transitions k ns) := by
      have := ha k
      rw [transitions_append] at this
      exact alternates_of_append this
    have hold := ih ha' hr'
    cases n with
    | registered i topic listener =>
      cases topic with
      | none => exact hold.quiet rfl fun k hk => ⟨by rwa [enrolled_append] at hk, rfl⟩
      | some k =>
        by_cases hi : i = id
        · subst hi
          exact alternating_register hr
        · refine hold.quiet (by rw [Note.owes, if_neg hi]; rfl) fun k' hk => ⟨?_, rfl⟩
          rw [enrolled_append] at hk
          simp only [List.foldl_cons, List.foldl_nil, Note.enroll] at hk
          split at hk
          next =>
            rcases List.mem_append.mp hk with hk | hk
            · exact hk
            · exact absurd (List.mem_singleton.mp hk).symm hi
          next => exact hk
    | emitted n e ids =>
      cases e with
      | snapshot e =>
        refine hold.quiet ?_ fun k hk => ⟨by rwa [enrolled_append] at hk, rfl⟩
        rw [Note.owes]
        split <;> rfl
      | status e =>
        obtain ⟨k, b⟩ := e
        have hone (k' : ChannelKind) : transitions k'
            [(.emitted n (.status ⟨k, b⟩) ids : Note ν κ)] = if k = k' then [b] else [] := by
          by_cases hk : k = k' <;> simp [transitions, hk]
        by_cases hid : id ∈ enrolled (some k) ns
        · refine hold.emit hr' hid ?_
          have := ha k
          rw [transitions_append, hone, if_pos rfl, alternates_append] at this
          exact this.2
        · refine hold.quiet ?_ fun k' hk' => ?_
          · rw [Note.owes, if_neg (show id ∉ enrolled (Event.status ⟨k, b⟩).topic ns from hid)]
            rfl
          · rw [enrolled_append] at hk'
            have hne : k ≠ k' := fun hk => hid (hk ▸ hk')
            exact ⟨hk', by rw [hone, if_neg hne]⟩
    | removed i =>
      refine hold.quiet rfl fun k hk => ⟨?_, rfl⟩
      rw [enrolled_append] at hk
      exact (List.mem_filter.mp hk).1
    | _ => exact hold.quiet rfl fun k hk => ⟨by rwa [enrolled_append] at hk, rfl⟩

end Due

/-! ### What is called -/

section Step

variable {w w' : System κ γ τ ν} {t : Turn κ γ} {done : Option (Task (Item κ γ))}
  {es : List (Entry (Note ν κ))} {past : List (System κ γ τ ν × Entry (Note ν κ))} {id : Nat}

theorem mem_notes {n : Note ν κ} : n ∈ notes past ↔ ∃ v, (v, .note n) ∈ past := by
  rw [notes, List.mem_filterMap]
  constructor
  · rintro ⟨⟨v, e⟩, hmem, he⟩
    split at he
    next heq =>
      cases heq
      cases he
      exact ⟨_, hmem⟩
    next => cases he
  · rintro ⟨v, hmem⟩
    exact ⟨_, hmem, rfl⟩

theorem neverOvertaken_append :
    NeverOvertaken id (past ++ es.map (w, ·)) ↔ NeverOvertaken id past ∧
      ∀ n e ids, .emitted n e ids ∈ notes (es.map (w, ·)) → id ∈ ids →
        callsTo id (calls w.agenda) = [] := by
  constructor
  · intro h
    refine ⟨fun v n e ids hmem => h v n e ids (List.mem_append_left _ hmem),
      fun n e ids hmem => ?_⟩
    obtain ⟨v, hv⟩ := mem_notes.mp hmem
    obtain ⟨x, -, hpair⟩ := List.mem_map.mp hv
    obtain rfl : w = v := congrArg Prod.fst hpair
    exact h w n e ids (List.mem_append_right _ hv)
  · rintro ⟨hold, hnew⟩ v n e ids hmem hid
    rcases List.mem_append.mp hmem with hmem | hmem
    · exact hold v n e ids hmem hid
    · have hnote := mem_notes.mpr ⟨v, hmem⟩
      obtain ⟨x, -, hpair⟩ := List.mem_map.mp hmem
      obtain rfl : w = v := congrArg Prod.fst hpair
      exact hnew n e ids hnote hid

/-- A call of an emission that is to come does not wait. -/
theorem Audience.not_mem_callsTo {ns : List (Note ν κ)} {hub : Hub κ} {waiting : List Call}
    (h : Audience ns hub waiting) (e : Event) :
    (some hub.emissions, e) ∉ callsTo id waiting := by
  intro hmem
  obtain ⟨⟨n, i, e'⟩, hcall, hx⟩ := List.mem_filterMap.mp hmem
  obtain ⟨-, hpair⟩ := Option.ite_none_right_eq_some.mp hx
  cases hpair
  have hnone := h.sound hub.emissions (Nat.le_refl _)
  rw [callsOf, List.filterMap_eq_nil_iff] at hnone
  have := hnone _ (List.mem_append_right _ hcall)
  simp at this

/-- A call that is put before those that wait is in its place if none does. -/
theorem append_cons_eq_iff {α : Type} {p q due : List α} {x : α} (hx : x ∉ q) :
    p ++ x :: q = due ++ [x] ↔ p ++ q = due ∧ q = [] := by
  constructor
  · intro h
    have hq : q = [] := by
      cases hl : q.getLast? with
      | none => exact List.getLast?_eq_none_iff.mp hl
      | some y =>
        have := congrArg List.getLast? h
        rw [List.getLast?_append, List.getLast?_cons, hl] at this
        obtain rfl : y = x := by simpa using this
        exact absurd (List.mem_of_getLast? hl) hx
    subst hq
    exact ⟨by rw [List.append_nil]; exact List.append_cancel_right h, rfl⟩
  · rintro ⟨rfl, rfl⟩
    rw [List.append_nil]

/-- A listener is called with what is due to it in order as long as it is not overtaken. -/
def Undisturbed (id : Nat) (past : List (System κ γ τ ν × Entry (Note ν κ)))
    (w : System κ γ τ ν) : Prop :=
  callsTo id (called (notes past) ++ calls w.agenda) = owed id (notes past) ↔ NeverOvertaken id past

/-- Nothing is due to a listener before it is registered, and it waits for nothing. -/
theorem Informed.of_unregistered {ns : List (Note ν κ)} {hub : Hub κ}
    {tasks : List (Task (Item κ γ))} (h : Informed ns hub tasks) :
    owed hub.registrations ns = [] ∧
      callsTo hub.registrations (called ns ++ Manager.calls tasks) = [] := by
  have hnone : owed hub.registrations ns = [] := by
    refine List.eq_nil_iff_forall_not_mem.mpr fun x hx => ?_
    have hmem := List.mem_map_of_mem (f := Prod.fst) (mem_registrations_of_owed hx)
    rw [h.registrations, List.mem_range] at hmem
    exact Nat.lt_irrefl _ hmem
  exact ⟨hnone, (hnone ▸ h.calls hub.registrations).eq_nil⟩

theorem Undisturbed.took (h : Undisturbed id past w)
    (hi : Informed (notes past) w.state.hub w.agenda)
    (ha : Audience (notes past) w.state.hub (calls w.agenda)) (ht : Took C w w' t done es) :
    Undisturbed id (past ++ es.map (w, ·)) w' := by
  unfold Undisturbed at h ⊢
  rw [neverOvertaken_append, ← h, notes_append]
  rcases ht.item with ⟨item, rest, o, hagenda, hp, -, hagenda', hn⟩ | ⟨-, hc, hn, -⟩
  · rw [hagenda] at ha hi ⊢
    rw [hn, hagenda', called_append, List.append_assoc, owed_append,
      callsTo_append id _ (called o.notes ++ _), callsTo_append id _ (calls (.work item :: rest))]
    cases hp.effect.owing ha hi.current id with
    | same ho hc hm =>
      rw [ho, hc, List.append_nil]
      exact (and_iff_left fun n e ids hmem hid => absurd hid (hm n e ids hmem)).symm
    | greeted k listener hid hm ho hc =>
      -- a new listener is not overtaken by its first call
      subst hid
      obtain ⟨hnone, hcalls⟩ := hi.of_unregistered
      rw [callsTo_append, List.append_eq_nil_iff] at hcalls
      rw [ho, hc, hnone, hcalls.1, hcalls.2, hm]
      simp
    | @emitted e ids logs hid hm ho hc =>
      rw [ho, hc, append_cons_eq_iff (ha.not_mem_callsTo e)]
      refine and_congr_right fun _ => ⟨fun hq _ _ _ _ _ => hq, fun hall => ?_⟩
      exact hall w.state.hub.emissions e ids (by simp [hm]) hid
  · rw [hn, hc]
    simp

end Step

/-- In every run, and whatever listeners ask for while they are called, a listener of a status
hears the changes of its channel in order, and in the end what the channel is held to be, exactly
if no emission to it has begun while it waited for a call. -/
theorem run_heard_iff (C : Client κ γ τ ν) (c : Config) (live command : List (Reply Answer))
    (client : τ) (turns : List (Turn κ γ)) (id : Nat) :
    let w : System κ γ τ ν := ofConfig c live command client
    Heard id (notes (history C turns w)) (run C turns w).state.hub (run C turns w).agenda ↔
      NeverOvertaken id (history C turns w) := by
  intro w
  have ha : w.agenda = [] := agenda_ofConfig c live command client
  have hs : w.state = ⟨.empty, client⟩ := state_ofConfig c live command client
  obtain ⟨-, hi, hu⟩ := run_invariant C (P := fun _ past w =>
    Audience (notes past) w.state.hub (calls w.agenda) ∧
      Informed (notes past) w.state.hub w.agenda ∧ Undisturbed id past w)
    (fun _ past w w' t done es _ ht _ h =>
      ⟨h.1.took ht, h.2.1.took h.1 ht, h.2.2.took h.2.1 h.1 ht⟩) turns w
    (shaped_ofConfig c live command client)
    ⟨by rw [ha, hs]; exact audience_empty, by rw [ha, hs]; exact informed_empty, by
      rw [Undisturbed, ha]
      exact ⟨fun _ _ _ _ _ hmem => absurd hmem List.not_mem_nil, fun _ => rfl⟩⟩
  refine ⟨fun h => hu.mp h.ordered, fun h => ?_⟩
  have hordered := hu.mpr h
  have hdue : Alternating id (notes (history C turns w)) :=
    owed_alternates hi.alternate (hi.registrations ▸ List.nodup_range)
  refine ⟨hordered, ?_, fun hnil k hk => ?_⟩
  · have hchain := hdue.chain
    rw [← hordered, callsTo_append, values_append] at hchain
    exact hchain.left_of_append
  · rw [hnil, callsTo_append] at hordered
    rw [hi.current k, ← hdue.last k hk, ← hordered]
    exact congrArg (fun l => (values l).getLast?) (List.append_nil _).symm

/-- Two listeners disconnect when they hear that the channel is open. -/
def overtaking : List (Turn Unit Event) :=
  .ask (.watch .live () fun _ => .status ⟨.live, false⟩) :: List.replicate 3 (.proceed false) ++
    .ask (.watch .live () fun _ => .status ⟨.live, false⟩) :: List.replicate 3 (.proceed false) ++
    .ask .connect :: List.replicate 3 (.proceed false) ++
    .poll .live 0 :: List.replicate 22 (.proceed false)

/-- The second listener hears of the end first, and is left with `true`. -/
theorem overtaken_leaving :
    (run leaving overtaking fresh).agenda = [] ∧
      1 ∈ enrolled (some .live) (notes (history leaving overtaking fresh)) ∧
      values (callsTo 1 (called (notes (history leaving overtaking fresh)))) =
        [false, false, true] ∧
      transitions .live (notes (history leaving overtaking fresh)) = [true, false] ∧
      (run leaving overtaking fresh).state.hub.isConnected .live = false := by
  refine ⟨List.isEmpty_iff.mp (by decide), by decide, by decide, by decide, by decide⟩

end TwinLink.Manager
