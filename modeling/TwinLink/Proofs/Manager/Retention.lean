import Mathlib.Data.List.Induction
import TwinLink.Proofs.Manager.Snapshots

/-! The latest snapshot. It is there exactly when the emission of one has begun since the last
disconnection, and is then the one emitted last; links that end, frames that hold no snapshot
or come too late, and all that listeners and clients ask for leave it as it is. A disconnection
may run inside the very emission that has set it, but no emission begins inside a
disconnection, so that it makes no difference from where in it one counts. -/

namespace TwinLink.Manager

open Socket World

variable {κ γ τ ν : Type} {C : Client κ γ τ ν}

/-- What a note makes of the latest snapshot, if anything. -/
def Note.decides : Note ν κ → Option (Option Snapshot)
  | emitted _ (.snapshot e) _ => some (some e.snapshot)
  | disconnected => some none
  | _ => none

/-- The emission of a snapshot begins. -/
def Note.isSnapshot : Note ν κ → Bool
  | emitted _ (.snapshot _) _ => true
  | _ => false

def Note.isDisconnecting : Note ν κ → Bool
  | disconnecting => true
  | _ => false

def Note.isDisconnected : Note ν κ → Bool
  | disconnected => true
  | _ => false

/-- A disconnection is in progress that has the latest snapshot left to discard. -/
def isDiscard : Task (Item κ γ) → Bool
  | .work .discardLatest => true
  | _ => false

/-- What is kept as the latest snapshot after a run that has the history `past` and ends in `w`. -/
structure Retained (C : Client κ γ τ ν) (past : List (System κ γ τ ν × Entry (Note ν κ)))
    (w : System κ γ τ ν) : Prop where
  latest : ∀ x, w.state.hub.latest = some x ↔ ∃ before n e ids after,
    notes past = before ++ .emitted n (.snapshot e) ids :: after ∧ e.snapshot = x ∧
      ∀ note ∈ after, note.isSnapshot = false ∧ note.isDisconnected = false
  /-- Every disconnection discards it, if it is not in progress. -/
  discarded : (notes past).countP Note.isDisconnecting =
    (notes past).countP Note.isDisconnected + w.agenda.countP isDiscard
  /-- No emission begins inside a disconnection. -/
  apart : Each (fun before note => note.isSnapshot = true →
    before.countP Note.isDisconnecting = before.countP Note.isDisconnected) (notes past)
  /-- A turn in which neither happens leaves it as it is. -/
  still : ∀ t : Turn κ γ,
    (∀ note ∈ notes ((news (consumer C) t.label w).map (w, ·)),
      note.isSnapshot = false ∧ note.isDisconnected = false) →
    (World.act (consumer C) w t.label).state.hub.latest = w.state.hub.latest

section Note

variable {n : Note ν κ} {ns : List (Note ν κ)}

theorem Note.latest_eq (x : Option Snapshot) (n : Note ν κ) : n.latest x = n.decides.getD x := by
  cases n with
  | emitted m e ids => cases e <;> rfl
  | _ => rfl

theorem Note.decides_eq_none :
    n.decides = none ↔ n.isSnapshot = false ∧ n.isDisconnected = false := by
  cases n with
  | emitted m e ids => cases e <;> simp [decides, isSnapshot, isDisconnected]
  | _ => simp [decides, isSnapshot, isDisconnected]

theorem Note.decides_eq_some {x : Snapshot} :
    n.decides = some (some x) ↔ ∃ m e ids, n = .emitted m (.snapshot e) ids ∧ e.snapshot = x := by
  cases n with
  | emitted m e ids => cases e <;> simp [decides]
  | _ => simp [decides]

/-- The latest snapshot is the one of the last note that decides of it. -/
theorem foldl_latest_eq_some {x : Snapshot} :
    ns.foldl Note.latest none = some x ↔ ∃ before n after,
      ns = before ++ n :: after ∧ n.decides = some (some x) ∧ ∀ m ∈ after, m.decides = none := by
  induction ns using List.reverseRecOn with
  | nil => simp
  | append_singleton ns last ih =>
    rw [List.foldl_append, List.foldl_cons, List.foldl_nil, Note.latest_eq]
    cases hd : last.decides with
    | some y =>
      rw [Option.getD_some]
      constructor
      · rintro rfl
        exact ⟨ns, last, [], rfl, hd, by simp⟩
      · rintro ⟨before, n, after, hns, hn, hafter⟩
        rcases List.eq_nil_or_concat after with rfl | ⟨rest, m, rfl⟩
        · obtain ⟨-, hlast⟩ := List.append_inj' hns rfl
          obtain rfl : last = n := List.singleton_inj.mp hlast
          exact Option.some.inj (hd.symm.trans hn)
        · rw [List.concat_eq_append, ← List.cons_append, ← List.append_assoc] at hns
          obtain rfl : last = m := List.singleton_inj.mp (List.append_inj' hns rfl).2
          rw [hafter last (by simp)] at hd
          cases hd
    | none =>
      rw [Option.getD_none, ih]
      constructor
      · rintro ⟨before, n, after, rfl, hn, hafter⟩
        refine ⟨before, n, after ++ [last], by simp, hn, fun m hm => ?_⟩
        rcases List.mem_append.mp hm with hm | hm
        · exact hafter m hm
        · exact List.mem_singleton.mp hm ▸ hd
      · rintro ⟨before, n, after, hns, hn, hafter⟩
        rcases List.eq_nil_or_concat after with rfl | ⟨rest, m, rfl⟩
        · obtain ⟨-, hlast⟩ := List.append_inj' hns rfl
          obtain rfl : last = n := List.singleton_inj.mp hlast
          rw [hn] at hd
          cases hd
        · rw [List.concat_eq_append, ← List.cons_append, ← List.append_assoc] at hns
          exact ⟨before, n, rest, (List.append_inj' hns rfl).1, hn,
            fun m hm => hafter m (by simp [hm])⟩

end Note

section Step

variable {past : List (System κ γ τ ν × Entry (Note ν κ))} {w w' : System κ γ τ ν}
  {t : Turn κ γ} {done : Option (Task (Item κ γ))} {es : List (Entry (Note ν κ))}
  {v : View} {s : State κ τ} {item : Item κ γ} {o : Outcome (State κ τ) (Item κ γ) (Note ν κ)}
  {rest : List (Task (Item κ γ))}

theorem Took.latest (ht : Took C w w' t done es) :
    w'.state.hub.latest = (notes (es.map (w, ·))).foldl Note.latest w.state.hub.latest := by
  rcases ht.item with ⟨item, rest, o, -, hp, hs, -, hn⟩ | ⟨hs, -, hn, -⟩
  · rw [hs, hn]
    exact hp.latest
  · rw [hs, hn]
    rfl

/-- A disconnection that begins is to discard the latest snapshot, and is over when it has. -/
theorem Performed.discards (hp : Performed C v s item o) (rest : List (Task (Item κ γ))) :
    o.notes.countP Note.isDisconnecting + (.work item :: rest).countP isDiscard =
      o.notes.countP Note.isDisconnected + (o.next ++ rest).countP isDiscard := by
  have hplain {ns : List (Note ν κ)} {next : List (Task (Item κ γ))} {item : Item κ γ}
      (hn : ∀ n ∈ ns, n.isDisconnecting = false ∧ n.isDisconnected = false)
      (ht : ∀ t ∈ next, isDiscard t = false) (hi : isDiscard (.work item) = false) :
      ns.countP Note.isDisconnecting + (Task.work item :: rest).countP isDiscard =
        ns.countP Note.isDisconnected + (next ++ rest).countP isDiscard := by
    have hbegun : ns.countP Note.isDisconnecting = 0 :=
      List.countP_eq_zero.mpr fun n h => by simp [(hn n h).1]
    have hover : ns.countP Note.isDisconnected = 0 :=
      List.countP_eq_zero.mpr fun n h => by simp [(hn n h).2]
    have hnext : next.countP isDiscard = 0 :=
      List.countP_eq_zero.mpr fun t h => by simp [ht t h]
    rw [List.countP_append, List.countP_cons_of_neg (by simp [hi]), hbegun, hover, hnext]
    simp only [Nat.zero_add]
  cases hp with
  | disconnect =>
    simp [onHub, Note.isDisconnecting, Note.isDisconnected, isDiscard, List.countP_cons]
    omega
  | discarded =>
    simp [onHub, Note.isDisconnecting, Note.isDisconnected, isDiscard, List.countP_cons]
    omega
  | unencoded | sent =>
    refine hplain ?_ (by simp [conclude, onHub]) rfl
    simp [conclude, onHub, Note.isDisconnecting, Note.isDisconnected, or_imp, forall_and]
  | changed | received =>
    refine hplain (by simp [emit, onHub, Note.isDisconnecting, Note.isDisconnected]) ?_ rfl
    intro t ht
    obtain ⟨l, -, rfl⟩ := List.mem_map.mp ht
    rfl
  | consulted | called =>
    refine hplain (by simp [consult, Note.isDisconnecting, Note.isDisconnected]) ?_ rfl
    intro t ht
    obtain ⟨r, -, rfl⟩ := List.mem_map.mp ht
    rfl
  | _ =>
    exact hplain (by simp [onHub, Note.isDisconnecting, Note.isDisconnected])
      (by simp [onHub, isDiscard]) rfl

/-- Other tasks have no part in it. -/
theorem Took.discards (ht : Took C w w' t done es) :
    (notes (es.map (w, ·))).countP Note.isDisconnecting + w.agenda.countP isDiscard =
      (notes (es.map (w, ·))).countP Note.isDisconnected + w'.agenda.countP isDiscard := by
  have hhear (k : ChannelKind) (c : Option Callback) (rest : List (Task (Item κ γ))) :
      (hearing (consumer C) k c ++ rest).countP isDiscard = rest.countP isDiscard := by
    cases c <;> rfl
  have hmove {k : ChannelKind} {m : Move} {rest : List (Task (Item κ γ))}
      (hw : w'.agenda = hearing (consumer C) k m.callback ++ rest)
      (hr : w.agenda.countP isDiscard = rest.countP isDiscard) :
      (notes ((Entry.ofMove (ε := Note ν κ) k m).map (w, ·))).countP Note.isDisconnecting +
          w.agenda.countP isDiscard =
        (notes ((Entry.ofMove (ε := Note ν κ) k m).map (w, ·))).countP Note.isDisconnected +
          w'.agenda.countP isDiscard := by
    rw [notes_ofMove, hw, hhear, hr]
    rfl
  cases ht with
  | outside _ ha => rw [ha]; rfl
  | ask _ ha hw => rw [hw, ha]; rfl
  | work ha hp hw =>
    rw [notes_of_notes, ha, hw]
    exact hp.discards _
  | connect ha hw | teardown ha hw =>
    exact hmove (by rw [hw, agenda_settle]) (by rw [ha]; rfl)
  | sent ha _ _ hw => exact hmove (by rw [hw, agenda_settle]) (by rw [ha]; rfl)
  | refused ha _ _ hw => rw [hw, ha]; rfl
  | @drive _ u k m ha _ hu hw =>
    have hu' : u.agenda = [] := by rcases hu with rfl | rfl <;> exact ha
    exact hmove (by rw [hw, agenda_settle, hu']) (by rw [ha])

/-- What makes an emission of a snapshot begin is heard while nothing else is to be done. -/
theorem Took.begins (ht : Took C w w' t done es) (hs : Shaped w.agenda)
    {before after : List (Note ν κ)} {n : Note ν κ}
    (hn : notes (es.map (w, ·)) = before ++ n :: after) (h : n.isSnapshot = true) :
    before = [] ∧ w.agenda.countP isDiscard = 0 := by
  rcases ht.item with ⟨item, rest, o, ha, hp, -, -, ho⟩ | ⟨-, -, ho, -⟩
  · cases n with
    | emitted m e ids =>
      cases e with
      | status e => cases h
      | snapshot e =>
        have hmem : .emitted m (.snapshot e) ids ∈ o.notes := by simp [← ho, hn]
        obtain ⟨text, rfl⟩ := hp.of_snapshot hmem
        have hnotes : o.notes.length = 1 := by
          cases hp with
          | received => rfl
          | _ => simp [onHub] at hmem
        rw [ho] at hn
        refine ⟨?_, ?_⟩
        · rw [hn, List.length_append, List.length_cons] at hnotes
          exact List.length_eq_zero_iff.mp (by omega)
        · rw [ha] at hs ⊢
          rw [hs.of_heard (by simp)]
          rfl
    | _ => cases h
  · rw [ho] at hn
    cases before <;> cases hn

end Step

section Run

variable {past : List (System κ γ τ ν × Entry (Note ν κ))} {w w' : System κ γ τ ν}

/-- The latest snapshot is what the notes make of it, and disconnections and emissions do not
overlap. -/
structure Kept (past : List (System κ γ τ ν × Entry (Note ν κ))) (w : System κ γ τ ν) : Prop where
  shaped : Shaped w.agenda
  latest : w.state.hub.latest = (notes past).foldl Note.latest none
  discarded : (notes past).countP Note.isDisconnecting =
    (notes past).countP Note.isDisconnected + w.agenda.countP isDiscard
  apart : Each (fun before note => note.isSnapshot = true →
    before.countP Note.isDisconnecting = before.countP Note.isDisconnected) (notes past)

theorem Kept.took {t : Turn κ γ} {done : Option (Task (Item κ γ))} {es : List (Entry (Note ν κ))}
    (h : Kept past w) (ht : Took C w w' t done es) : Kept (past ++ es.map (w, ·)) w' where
  shaped := ht.shaped h.shaped
  latest := by rw [notes_append, List.foldl_append, ← h.latest, ht.latest]
  discarded := by
    have hold := h.discarded
    have hnew := ht.discards
    rw [notes_append, List.countP_append, List.countP_append]
    omega
  apart := by
    rw [notes_append]
    refine each_append h.apart fun before note after hes hsnap => ?_
    obtain ⟨rfl, hcount⟩ := ht.begins h.shaped hes hsnap
    rw [List.append_nil, h.discarded, hcount, Nat.add_zero]

theorem Kept.retained (h : Kept past w) : Retained C past w where
  latest x := by
    rw [h.latest, foldl_latest_eq_some]
    constructor
    · rintro ⟨before, n, after, hnotes, hn, hafter⟩
      obtain ⟨m, e, ids, rfl, hx⟩ := Note.decides_eq_some.mp hn
      exact ⟨before, m, e, ids, after, hnotes, hx,
        fun n hn => Note.decides_eq_none.mp (hafter n hn)⟩
    · rintro ⟨before, m, e, ids, after, hnotes, hx, hafter⟩
      exact ⟨before, _, after, hnotes, Note.decides_eq_some.mpr ⟨m, e, ids, rfl, hx⟩,
        fun n hn => Note.decides_eq_none.mpr (hafter n hn)⟩
  discarded := h.discarded
  apart := h.apart
  still t ht := by
    have hturn := Manager.took C h.shaped t
    rw [hturn.latest]
    refine foldl_latest (fun n hn x => ?_) _
    rw [Note.latest_eq, Note.decides_eq_none.mpr (ht n hn), Option.getD_none]

end Run

/-- Whatever happens in a run, the latest snapshot is the one whose emission began last, unless
it has been discarded by a disconnection since. -/
theorem run_retained (C : Client κ γ τ ν) (c : Config) (live command : List (Reply Answer))
    (client : τ) (turns : List (Turn κ γ)) :
    let w : System κ γ τ ν := ofConfig c live command client
    Retained C (history C turns w) (run C turns w) := by
  intro w
  have ha : w.agenda = [] := agenda_ofConfig c live command client
  have hs : w.state = ⟨.empty, client⟩ := state_ofConfig c live command client
  have hstart : Kept [] w :=
    { shaped := shaped_ofConfig c live command client
      latest := by rw [hs]; rfl
      discarded := by rw [ha]; rfl
      apart := each_nil _ }
  have hrun := run_invariant C (P := fun _ => Kept) (fun _ _ _ _ _ _ _ _ ht _ h => h.took ht)
    turns w hstart.shaped hstart
  exact hrun.retained

end TwinLink.Manager
