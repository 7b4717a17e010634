import Mathlib.Data.List.TakeWhile
import TwinLink.Proofs.Manager.Audience

/-! The snapshots that a listener is called with. Those that are emitted have the numbers
1, 2, 3 and so on, and a listener gets the ones that are emitted between its registration and
its removal: an interval of numbers, none missing, none twice, in order. -/

namespace TwinLink.Manager

open Socket World

variable {κ γ τ ν : Type} {C : Client κ γ τ ν}

/-- The snapshots that are emitted. -/
def snapshots (ns : List (Note ν κ)) : List SnapshotEvent :=
  ns.filterMap fun
    | .emitted _ (.snapshot e) _ => some e
    | _ => none

/-- The numbers of the snapshots that a registration is called with. -/
def received (id : Nat) (cs : List Call) : List Nat :=
  cs.filterMap fun
    | (_, i, .snapshot e) => if i = id then some e.sequence else none
    | _ => none

/-- A listener of snapshots is registered as `id`. -/
def Note.registers (id : Nat) : Note ν κ → Bool
  | registered i none _ => i == id
  | _ => false

def Note.removes (id : Nat) : Note ν κ → Bool
  | removed i => i == id
  | _ => false

/-- What comes before a registration. -/
def before (id : Nat) (ns : List (Note ν κ)) : List (Note ν κ) :=
  ns.takeWhile fun n => !n.registers id

/-- What comes from a registration on. -/
def since (id : Nat) (ns : List (Note ν κ)) : List (Note ν κ) :=
  ns.dropWhile fun n => !n.registers id

/-- What comes between a registration and its removal. -/
def during (id : Nat) (ns : List (Note ν κ)) : List (Note ν κ) :=
  (since id ns).takeWhile fun n => !n.removes id

/-- What the notes of a run tell about the snapshots that listeners are called with. -/
structure Attended (ns : List (Note ν κ)) (h : Hub κ) (waiting : List Call) : Prop where
  numbers : (snapshots ns).map SnapshotEvent.sequence = List.range' 1 h.sequence
  unknown : ∀ id, h.registrations ≤ id → ∀ n ∈ ns, n.registers id = false
  present : ∀ id, id ∈ h.snapshots.ids ↔
    since id ns ≠ [] ∧ ∀ n ∈ since id ns, n.removes id = false
  /-- Those between its registration and its removal, and no others. -/
  interval : ∀ id, received id (called ns ++ waiting) =
    List.range' ((snapshots (before id ns)).length + 1) (snapshots (during id ns)).length

section Append

variable (id : Nat) (ns m : List (Note ν κ))

theorem snapshots_append : snapshots (ns ++ m) = snapshots ns ++ snapshots m :=
  List.filterMap_append

theorem received_append (p q : List Call) : received id (p ++ q) = received id p ++ received id q :=
  List.filterMap_append

theorem before_append_since : before id ns ++ since id ns = ns := List.takeWhile_append_dropWhile

theorem before_of_since (h : since id ns = []) : before id ns = ns := by
  have hsplit := before_append_since id ns
  rwa [h, List.append_nil] at hsplit

theorem since_eq_nil : since id ns = [] ↔ ∀ n ∈ ns, n.registers id = false := by
  simp [since, List.dropWhile_eq_nil_iff]

/-- Before a registration, what is to come decides. -/
theorem append_of_since_eq_nil (h : since id ns = []) :
    before id (ns ++ m) = ns ++ before id m ∧ since id (ns ++ m) = since id m := by
  have hall : ∀ n ∈ ns, (!n.registers id) = true := by simpa using (since_eq_nil id ns).mp h
  exact ⟨List.takeWhile_append_of_pos hall, List.dropWhile_append_of_pos hall⟩

/-- After it, nothing changes any more what came before. -/
theorem append_of_since_ne_nil (h : since id ns ≠ []) :
    before id (ns ++ m) = before id ns ∧ since id (ns ++ m) = since id ns ++ m := by
  have hsince : since id (ns ++ m) = since id ns ++ m := by
    rw [since, List.dropWhile_append, if_neg (by simpa [since] using h)]
    rfl
  have hall : before id (ns ++ m) ++ (since id ns ++ m) = before id ns ++ (since id ns ++ m) := by
    rw [← hsince, before_append_since, hsince, ← List.append_assoc, before_append_since]
  exact ⟨List.append_cancel_right hall, hsince⟩

theorem during_append (h : since id ns ≠ []) (hr : ∀ n ∈ since id ns, n.removes id = false) :
    during id (ns ++ m) = since id ns ++ m.takeWhile fun n => !n.removes id := by
  rw [during, (append_of_since_ne_nil id ns m h).2]
  exact List.takeWhile_append_of_pos (by simpa using hr)

/-- Once it is removed, nothing is added to what came between. -/
theorem during_append_of_removed (h : since id ns ≠ [])
    (hr : ¬ ∀ n ∈ since id ns, n.removes id = false) : during id (ns ++ m) = during id ns := by
  rw [during, (append_of_since_ne_nil id ns m h).2, List.takeWhile_append, if_neg]
  · rfl
  · intro hlen
    have hall := List.takeWhile_eq_self_iff.mp
      ((List.takeWhile_sublist fun n : Note ν κ => !n.removes id).eq_of_length hlen)
    exact hr (by simpa using hall)

theorem during_of_present (hr : ∀ n ∈ since id ns, n.removes id = false) :
    during id ns = since id ns :=
  List.takeWhile_eq_self_iff.mpr (by simpa using hr)

theorem snapshots_sublist {p q : List (Note ν κ)} (h : p.Sublist q) (hq : snapshots q = []) :
    snapshots p = [] := by
  have hsub : (snapshots p).Sublist (snapshots q) := h.filterMap _
  rw [hq] at hsub
  exact List.sublist_nil.mp hsub

end Append

/-! ### What an item does -/

section Step

variable {ns m : List (Note ν κ)} {hub hub' : Hub κ} {waiting waiting' : List Call}

/-- Where no snapshot is emitted and `id` is not registered, its snapshots stay the same. -/
theorem snapshots_frame (ns : List (Note ν κ)) (id : Nat) (hm : snapshots m = [])
    (hr : ∀ n ∈ m, n.registers id = false) :
    snapshots (before id (ns ++ m)) = snapshots (before id ns) ∧
      snapshots (during id (ns ++ m)) = snapshots (during id ns) := by
  have hsub {l : List (Note ν κ)} (h : l.Sublist m) : snapshots l = [] := snapshots_sublist h hm
  by_cases h : since id ns = []
  · obtain ⟨hb, hs⟩ := append_of_since_eq_nil id ns m h
    have hnone : since id m = [] := (since_eq_nil id m).mpr hr
    rw [hb, during, hs, hnone, during, h, before_of_since id ns h, snapshots_append]
    refine ⟨?_, rfl⟩
    rw [before, hsub (List.takeWhile_sublist _), List.append_nil]
  · rw [(append_of_since_ne_nil id ns m h).1]
    refine ⟨rfl, ?_⟩
    by_cases hp : ∀ n ∈ since id ns, n.removes id = false
    · rw [during_append id ns m h hp, during_of_present id ns hp, snapshots_append,
        hsub (List.takeWhile_sublist _), List.append_nil]
    · rw [during_append_of_removed id ns m h hp]

theorem Attended.frame (h : Attended ns hub waiting) (hm : snapshots m = [])
    (hr : ∀ id, ∀ n ∈ m, n.registers id = false) (hd : ∀ id, ∀ n ∈ m, n.removes id = false)
    (hc : ∀ id, received id (called m ++ waiting') = received id waiting)
    (hs : hub'.snapshots.ids = hub.snapshots.ids) (hq : hub'.sequence = hub.sequence)
    (hg : hub.registrations ≤ hub'.registrations) : Attended (ns ++ m) hub' waiting' := by
  refine
    { numbers := by rw [snapshots_append, hm, List.append_nil, hq]; exact h.numbers
      unknown := fun id hid n hn => ?_
      present := fun id => ?_
      interval := fun id => ?_ }
  · rcases List.mem_append.mp hn with hn | hn
    · exact h.unknown id (by omega) n hn
    · exact hr id n hn
  · rw [hs, h.present]
    by_cases hsince : since id ns = []
    · rw [(append_of_since_eq_nil id ns m hsince).2, (since_eq_nil id m).mpr (hr id)]
      simp [hsince]
    · rw [(append_of_since_ne_nil id ns m hsince).2]
      have hnone := hd id
      constructor
      · rintro ⟨-, hp⟩
        refine ⟨by simp [hsince], fun n hn => ?_⟩
        rcases List.mem_append.mp hn with hn | hn
        · exact hp n hn
        · exact hnone n hn
      · rintro ⟨-, hp⟩
        exact ⟨hsince, fun n hn => hp n (List.mem_append_left m hn)⟩
  · obtain ⟨hb, hu⟩ := snapshots_frame ns id hm (hr id)
    rw [hb, hu, ← h.interval, called_append, List.append_assoc, received_append, hc,
      ← received_append]

/-- A listener is registered; it gets what is emitted from now on. -/
theorem Attended.subscribe (h : Attended ns hub waiting) (listener : κ) :
    Attended (ns ++ [.registered hub.registrations none listener]) (hub.subscribe listener)
      waiting := by
  have hr (id : Nat) (hid : id ≠ hub.registrations) :
      ∀ n ∈ [(Note.registered hub.registrations none listener : Note ν κ)],
        n.registers id = false := by
    simp [Note.registers, Ne.symm hid]
  have hcalled :
      Manager.called (ns ++ [.registered hub.registrations none listener]) =
        Manager.called ns := by
    rw [called_append]
    exact List.append_nil _
  refine
    { numbers := by rw [snapshots_append]; exact (List.append_nil _).symm ▸ h.numbers
      unknown := fun id hid n hn => ?_
      present := fun id => ?_
      interval := fun id => ?_ }
  · have hlt : hub.registrations + 1 ≤ id := hid
    rcases List.mem_append.mp hn with hn | hn
    · exact h.unknown id (by omega) n hn
    · exact hr id (by omega) n hn
  · have hids : (hub.subscribe listener).snapshots.ids =
        hub.snapshots.ids ++ [hub.registrations] := Roster.ids_insert _ _ _
    rw [hids]
    by_cases hid : id = hub.registrations
    · subst hid
      have hnone := (since_eq_nil _ ns).mpr (h.unknown _ (Nat.le_refl _))
      rw [(append_of_since_eq_nil _ ns _ hnone).2]
      simp [since, Note.registers, Note.removes]
    · rw [List.mem_append, List.mem_singleton, or_iff_left hid, h.present]
      by_cases hsince : since id ns = []
      · rw [(append_of_since_eq_nil id ns _ hsince).2, (since_eq_nil id _).mpr (hr id hid)]
        simp [hsince]
      · rw [(append_of_since_ne_nil id ns _ hsince).2]
        simp [hsince, Note.removes, or_imp, forall_and]
  · rw [hcalled]
    by_cases hid : id = hub.registrations
    · subst hid
      have hnone := (since_eq_nil _ ns).mpr (h.unknown _ (Nat.le_refl _))
      have hold := h.interval hub.registrations
      rw [during, hnone] at hold
      rw [hold, during, (append_of_since_eq_nil _ ns _ hnone).2]
      simp [since, Note.registers, Note.removes, snapshots]
    · obtain ⟨hb, hu⟩ := snapshots_frame ns id (by rfl) (hr id hid)
      rw [hb, hu]
      exact h.interval id

theorem Attended.unsubscribe (h : Attended ns hub waiting) (i : Nat) :
    Attended (ns ++ [.removed i]) (hub.unsubscribe i) waiting := by
  have hr (id : Nat) : ∀ n ∈ [(Note.removed i : Note ν κ)], n.registers id = false := by
    simp [Note.registers]
  refine
    { numbers := by rw [snapshots_append]; exact (List.append_nil _).symm ▸ h.numbers
      unknown := fun id hid n hn => ?_
      present := fun id => ?_
      interval := fun id => ?_ }
  · rcases List.mem_append.mp hn with hn | hn
    · exact h.unknown id hid n hn
    · exact hr id n hn
  · have hids : (hub.unsubscribe i).snapshots.ids = hub.snapshots.ids.filter (· ≠ i) :=
      Roster.ids_remove _ _
    rw [hids, List.mem_filter, h.present]
    by_cases hsince : since id ns = []
    · rw [(append_of_since_eq_nil id ns _ hsince).2, (since_eq_nil id _).mpr (hr id)]
      simp [hsince]
    · rw [(append_of_since_ne_nil id ns _ hsince).2]
      simp [hsince, Note.removes, or_imp, forall_and, eq_comm (a := id) (b := i)]
  · obtain ⟨hb, hu⟩ := snapshots_frame ns id (by rfl) (hr id)
    rw [hb, hu, called_append, show Manager.called [(Note.removed i : Note ν κ)] = [] from rfl,
      List.append_nil]
    exact h.interval id

theorem received_emission (id n : Nat) (e : SnapshotEvent) {ids : List Nat} (h : ids.Nodup) :
    received id (ids.map fun i => (some n, i, .snapshot e)) =
      if id ∈ ids then [e.sequence] else [] := by
  induction ids with
  | nil => rfl
  | cons i ids ih =>
    obtain ⟨hi, hn⟩ := List.nodup_cons.mp h
    have hih := ih hn
    simp only [received, List.map_cons, List.filterMap_cons] at hih ⊢
    by_cases hid : i = id
    · subst hid
      simp [hih, hi]
    · simp [hih, hid, Ne.symm hid]

/-- A snapshot is emitted, with the next number; nobody waits for an earlier one. -/
theorem Attended.emit (h : Attended ns hub []) (hn : hub.snapshots.ids.Nodup) (x : Snapshot)
    (hs : hub'.snapshots = hub.snapshots) (hq : hub'.sequence = hub.sequence + 1)
    (hg : hub'.registrations = hub.registrations) :
    Attended (ns ++ [.emitted hub.emissions (.snapshot ⟨x, hub.sequence + 1⟩) hub.snapshots.ids])
      hub' (hub.snapshots.ids.map fun id =>
        (some hub.emissions, id, .snapshot ⟨x, hub.sequence + 1⟩)) := by
  generalize hids : hub.snapshots.ids = ids at hn ⊢
  have hlast : snapshots [(Note.emitted hub.emissions (.snapshot ⟨x, hub.sequence + 1⟩) ids :
      Note ν κ)] = [⟨x, hub.sequence + 1⟩] := rfl
  have hr (id : Nat) : ∀ n ∈ [(Note.emitted hub.emissions (.snapshot ⟨x, hub.sequence + 1⟩) ids :
      Note ν κ)], n.registers id = false := by simp [Note.registers]
  have hcount : (snapshots ns).length = hub.sequence := by
    have := congrArg List.length h.numbers
    simpa using this
  have hold (id : Nat) : received id (called ns) =
      List.range' ((snapshots (before id ns)).length + 1) (snapshots (during id ns)).length := by
    rw [← h.interval, List.append_nil]
  refine
    { numbers := ?_
      unknown := fun id hid n hmem => ?_
      present := fun id => ?_
      interval := fun id => ?_ }
  · rw [snapshots_append, hlast, List.map_append, h.numbers, hq, List.range'_1_concat,
      Nat.add_comm 1]
    rfl
  · rw [hg] at hid
    rcases List.mem_append.mp hmem with hmem | hmem
    · exact h.unknown id hid n hmem
    · exact hr id n hmem
  · rw [hs, h.present]
    by_cases hsince : since id ns = []
    · rw [(append_of_since_eq_nil id ns _ hsince).2, (since_eq_nil id _).mpr (hr id)]
      simp [hsince]
    · rw [(append_of_since_ne_nil id ns _ hsince).2]
      simp [hsince, Note.removes, or_imp, forall_and]
  · rw [called_append, show Manager.called [(Note.emitted hub.emissions
      (.snapshot ⟨x, hub.sequence + 1⟩) ids : Note ν κ)] = [] from rfl, List.append_nil,
      received_append, received_emission id _ _ hn, hold]
    have hpresent := h.present id
    rw [hids] at hpresent
    by_cases hsince : since id ns = []
    · rw [if_neg fun hid => (hpresent.mp hid).1 hsince, during, hsince, during,
        (append_of_since_eq_nil id ns _ hsince).2, (since_eq_nil id _).mpr (hr id)]
      rfl
    · rw [(append_of_since_ne_nil id ns _ hsince).1]
      by_cases hp : ∀ n ∈ since id ns, n.removes id = false
      · -- the numbers before the registration and those since are all there are
        have hsum : (snapshots (before id ns)).length + (snapshots (since id ns)).length =
            hub.sequence := by
          rw [← hcount, ← List.length_append, ← snapshots_append, before_append_since]
        rw [if_pos (hpresent.mpr ⟨hsince, hp⟩), during_append id ns _ hsince hp,
          during_of_present id ns hp, snapshots_append, List.length_append]
        have htake : [(Note.emitted hub.emissions (.snapshot ⟨x, hub.sequence + 1⟩) ids :
            Note ν κ)].takeWhile (fun n => !n.removes id) =
              [.emitted hub.emissions (.snapshot ⟨x, hub.sequence + 1⟩) ids] := rfl
        rw [htake, hlast, List.length_singleton, List.range'_1_concat, ← hsum,
          Nat.add_right_comm]
      · rw [if_neg fun hid => hp (hpresent.mp hid).2, List.append_nil,
          during_append_of_removed id ns _ hsince hp]

theorem Attended.plain (h : Attended ns hub waiting) (hm : ∀ n ∈ m, n.isPlain = true)
    (hs : hub'.snapshots = hub.snapshots) (hq : hub'.sequence = hub.sequence)
    (hg : hub'.registrations = hub.registrations) : Attended (ns ++ m) hub' waiting := by
  refine h.frame ?_ (fun id n hn => ?_) (fun id n hn => ?_) (fun id => ?_) (by rw [hs]) hq
    (Nat.le_of_eq hg.symm)
  · rw [snapshots, List.filterMap_eq_nil_iff]
    intro n hn
    have := hm n hn
    cases n <;> simp_all [Note.isPlain]
  · have := hm n hn
    cases n <;> simp_all [Note.isPlain, Note.registers]
  · have := hm n hn
    cases n <;> simp_all [Note.isPlain, Note.removes]
  · rw [called_of_plain hm, List.nil_append]

theorem received_status (id : Nat) (emission : Option Nat) (ids : List Nat) (e : StatusEvent) :
    received id (ids.map fun i => (emission, i, .status e)) = [] := by
  simp [received]

/-- What an item means for the listeners keeps both accounts. -/
theorem Effect.kept {item : Item κ γ} {next rest : List (Task (Item κ γ))}
    (he : Effect item hub hub' m next) (ha : Audience ns hub (calls (.work item :: rest)))
    (ht : Attended ns hub (calls (.work item :: rest)))
    (hq : ∀ n e ids, .emitted n (.snapshot e) ids ∈ m → calls rest = []) :
    Audience (ns ++ m) hub' (calls (next ++ rest)) ∧
      Attended (ns ++ m) hub' (calls (next ++ rest)) := by
  refine ⟨he.audience ha, ?_⟩
  rw [calls_append]
  cases he with
  | plain hi hn hnext hr hl hg hem hs =>
    rw [calls_cons_of_not_call hi] at ht
    rw [calls_of_plain hnext, List.nil_append]
    exact ht.plain hn hr hs hg
  | snapshot hi x =>
    rw [calls_cons_of_not_call hi] at ha ht
    have hnone := hq _ _ _ List.mem_cons_self
    rw [hnone] at ht ⊢
    rw [calls_emission, List.append_nil]
    exact ht.emit (ha.nodup none) x rfl rfl rfl
  | status hi k b log =>
    rw [calls_cons_of_not_call hi] at ht
    rw [calls_emission]
    refine ht.frame rfl (by simp [Note.registers]) (by simp [Note.removes]) (fun id => ?_)
      (by cases k <;> rfl) (by cases k <;> rfl) (by cases k <;> exact Nat.le_refl _)
    rw [received_append, received_append, received_status]
    rfl
  | @call emission id listener e hi notes _ hn hnext =>
    subst hi
    rw [calls_of_plain hnext, List.nil_append]
    have hone : Attended (ns ++ [.called emission id listener e]) hub (calls rest) :=
      ht.frame rfl (by simp [Note.registers]) (by simp [Note.removes]) (fun _ => rfl) rfl rfl
        (Nat.le_refl _)
    rw [List.append_cons]
    exact hone.plain hn rfl rfl rfl
  | subscribe hi listener hnext =>
    rw [calls_cons_of_not_call hi] at ht
    rw [calls_of_plain hnext, List.nil_append]
    exact ht.subscribe listener
  | watch hi k listener hnext =>
    rw [calls_cons_of_not_call hi] at ht
    rw [calls_greeting hnext]
    exact ht.frame rfl (by simp [Note.registers]) (by simp [Note.removes]) (fun _ => rfl)
      (by cases k <;> rfl) (by cases k <;> rfl) (by cases k <;> exact Nat.le_succ _)
  | remove hi id =>
    rw [calls_cons_of_not_call hi] at ht
    exact ht.unsubscribe id

end Step

end TwinLink.Manager
