import TwinLink.Proofs.Manager.Disconnect
import TwinLink.Proofs.Manager.Halves

/-! The two channels do not interfere. What reaches one side of a manager is what the program
asks, and what drivers and peers of that channel do; content that comes in on the command
channel, and the reading of it, reaches neither side. Main statement: two managers of one
configuration that the same reaches on one side show the same of that side, whatever becomes
of the other. That the other does not hold up what reaches the side is shown by itself
(`run_unhindered`). A callback of one channel may be in progress while something else reaches the
other, so a side is followed as it will be once all is done that is in progress. -/

namespace TwinLink.Manager

open Socket World

variable {κ γ τ ν : Type} {C : Client κ γ τ ν}

/-- What reaches one side of a manager: what the program asks, what the drivers of the channel
are let do, and what the peers of its links do. -/
inductive Input (κ γ : Type) where
  | ask (r : Request κ γ)
  | run (driver : Nat) (outboundFirst : Bool)
  | discard (driver : Nat)
  | reap (driver : Nat)
  | arrive (link : Nat) (item : Inbound)
  | hangUp (link : Nat)

/-- What a side makes of an input, with all that follows at that instant. -/
def Half.take (k : ChannelKind) (now : Nat) (h : Half κ) : Input κ γ → Half κ
  | .ask r => h.ask k now r
  | .run i b =>
    match h.socket.step now b i with
    | some m => h.settle k now m
    | none => h
  | .discard i => h.settle k now (h.socket.discard i)
  | .reap i => h.settle k now (h.socket.reap i)
  | .arrive link item => { h with socket := h.socket.arrive link item }
  | .hangUp link => { h with socket := h.socket.hangUp link }

/-- What a side makes of all that reaches it. -/
def replay (k : ChannelKind) (inputs : List (Nat × Input κ γ)) (h : Half κ) : Half κ :=
  inputs.foldl (fun h (now, x) => h.take k now x) h

/-- What a turn means for one side. On the command channel frames that carry content, and the
reading of them, mean nothing. -/
def input? (k : ChannelKind) (w : System κ γ τ ν) : Turn κ γ → Option (Input κ γ)
  | .ask r => if w.agenda.isEmpty then some (.ask r) else none
  | .proceed b =>
    match w.agenda, w.running with
    | [], some (k', i) =>
      if k' = k then
        match (w.socket k).step w.now b i with
        | some m =>
          if k = .command ∧ m.seen.any Happening.isHearing then none else some (.run i b)
        | none =>
          if (w.socket k).isAborted i && !((w.socket k).phase i).isFinished then some (.discard i)
          else none
      else none
    | _, _ => none
  | .poll k' i =>
    if k' = k ∧ w.isIdle ∧ !((w.socket k').phase i).isFinished ∧ (w.socket k').isAborted i then
      some (.discard i)
    else none
  | .reap k' i =>
    if k' = k ∧ w.isIdle ∧ (w.socket k').isReapDue w.now i then some (.reap i) else none
  | .arrive k' link item =>
    if k' = k ∧ ¬(k = .command ∧ item.isContent) then some (.arrive link item) else none
  | .hangUp k' link => if k' = k then some (.hangUp link) else none
  | .elapse _ => none

/-- What reaches one side in a run, with the instants. -/
def inputs (C : Client κ γ τ ν) (k : ChannelKind) :
    List (Turn κ γ) → System κ γ τ ν → List (Nat × Input κ γ)
  | [], _ => []
  | t :: turns, w =>
    ((input? k w t).map (w.now, ·)).toList ++ inputs C k turns (World.act (consumer C) w t.label)

/-- The side of a channel, with what has been seen of it. -/
def side (k : ChannelKind) (seen : List (Nat × Reading × Sight κ)) (w : System κ γ τ ν) : Half κ :=
  .of k (w.socket k) w.state.hub seen

/-- What can be read about a channel. -/
def reading (k : ChannelKind) (w : System κ γ τ ν) : Reading := (side k [] w).reading

/-- What is seen of a channel, with the instants and with what can be read then. -/
def sights (k : ChannelKind) (past : List (System κ γ τ ν × Entry (Note ν κ))) :
    List (Nat × Reading × Sight κ) :=
  past.filterMap fun (v, e) => (sight? k e).map fun x => (v.now, reading k v, x)

/-- What a side comes to once all is done that is in progress. -/
def outlook (k : ChannelKind) (seen : List (Nat × Reading × Sight κ)) (w : System κ γ τ ν) :
    Half κ :=
  w.agenda.foldl (Half.task k w.now) (side k seen w)

/-- What a side comes to after a label. -/
def prospect (C : Client κ γ τ ν) (k : ChannelKind) (seen : List (Nat × Reading × Sight κ))
    (w : System κ γ τ ν) (l : Label (Item κ γ)) : Half κ :=
  outlook k (seen ++ sights k ((news (consumer C) l w).map (w, ·))) (World.act (consumer C) w l)

section Step

variable {k k' : ChannelKind} {w w' u : System κ γ τ ν} {l : Label (Item κ γ)}
  {seen : List (Nat × Reading × Sight κ)}

theorem sights_append (past news : List (System κ γ τ ν × Entry (Note ν κ))) :
    sights k (past ++ news) = sights k past ++ sights k news := List.filterMap_append

theorem sights_news (es : List (Entry (Note ν κ))) :
    sights k (es.map (w, ·)) = (es.filterMap (sight? k)).map fun x => (w.now, reading k w, x) :=
  filterMap_news (sight? k) (fun v x => (v.now, reading k v, x)) w es

theorem prospect_eq {es : List (Entry (Note ν κ))} (h : World.act (consumer C) w l = w')
    (ht : w'.trace = w.trace ++ es.map (w.now, ·)) :
    prospect C k seen w l = outlook k (seen ++ sights k (es.map (w, ·))) w' := by
  have hnews : news (consumer C) l w = es := by
    rw [news, h, ht, List.drop_left, List.map_map]
    exact List.map_id es
  rw [prospect, hnews, h]

/-- A label that adds nothing to the trace makes nothing seen. -/
theorem prospect_unseen (h : World.act (consumer C) w l = w') (ht : w'.trace = w.trace) :
    prospect C k seen w l = outlook k seen w' := by
  have heq : prospect C k seen w l =
      outlook k (seen ++ sights k (([] : List (Entry (Note ν κ))).map (w, ·))) w' :=
    prospect_eq h (by simpa using ht)
  rw [heq, List.map_nil, sights, List.filterMap_nil, List.append_nil]

/-- What a manager does about its socket is done to the side of that channel alone. -/
theorem outlook_settle {m : Move} (hs : ∀ k, u.socket k = w.socket k)
    (hn : u.now = w.now) (hu : u.state = w.state) :
    outlook k (seen ++ sights k ((Entry.ofMove k' m).map (w, ·))) (u.settle (consumer C) k' m) =
      u.agenda.foldl (Half.task k w.now)
        (if k' = k then (side k seen w).settle k w.now (hush k m) else side k seen w) := by
  rw [outlook, agenda_settle, List.foldl_append, now_settle, hn, sights_news]
  congr 1
  split
  next hk =>
    subst hk
    rw [side, socket_settle_self, state_settle, hu]
    exact foldl_hearing m
  next hk =>
    have hsocket : (u.settle (consumer C) k' m).socket k = w.socket k := by
      rw [eq_other (Ne.symm hk), socket_settle_other, hs]
    rw [side, hsocket, state_settle, hu, sights_ofMove_other hk, List.map_nil, List.append_nil,
      foldl_hearing_other hk]
    rfl

/-- Where nothing is in progress, nothing is to be done. -/
theorem outlook_idle (ha : w.agenda = []) : outlook k seen w = side k seen w := by
  rw [outlook, ha]
  rfl

theorem outlook_congr (hs : ∀ k, w'.socket k = w.socket k) (hu : w'.state = w.state)
    (ha : w'.agenda = w.agenda) (hn : w'.now = w.now ∨ w.agenda = []) :
    outlook k seen w' = outlook k seen w := by
  have hside : side k seen w' = side k seen w := by rw [side, side, hs, hu]
  rcases hn with hn | hn
  · rw [outlook, outlook, ha, hn, hside]
  · rw [outlook_idle hn, outlook_idle (ha.trans hn), hside]

/-- Doing a task leaves what a side comes to once all is done. -/
theorem prospect_task (hq : C.Quiet) (hs : Shaped w.agenda) (ha : w.agenda ≠ []) (b : Bool)
    (seen : List (Nat × Reading × Sight κ)) :
    prospect C k seen w (.proceed b) = outlook k seen w := by
  unfold prospect
  have hacted := act_acted (consumer C) w (.proceed b)
  generalize World.act (consumer C) w (.proceed b) = w' at hacted ⊢
  generalize news (consumer C) (.proceed b) w = es at hacted ⊢
  have hsocket (tasks : List (Task (Item κ γ))) (k : ChannelKind) :
      ({ w with agenda := tasks } : System κ γ τ ν).socket k = w.socket k := by
    cases k <;> rfl
  cases hacted with
  | stay hp =>
    obtain ⟨t, rest, ht⟩ := List.exists_cons_of_ne_nil ha
    simp [performed, ht] at hp
  | step h | stop h | discard h => exact absurd h ha
  -- What an item leaves to be done comes before what was to be done anyway.
  | @work item rest _ h o ho =>
    have hp : Performed C w.view w.state item o := ho ▸ perform_performed C w.view item w.state
    have hnotes : (o.notes.map Entry.note).filterMap (sight? k) =
        o.notes.filterMap (Note.sight? k) := by
      rw [List.filterMap_map]
      rfl
    rw [sights_news, hnotes, outlook, outlook, h, List.foldl_append]
    exact congrArg (rest.foldl (Half.task k w.now)) (hp.half hq (w.socket k) seen)
  | @connect k' rest _ h =>
    rw [outlook_settle (hsocket rest) rfl rfl, outlook, h, List.foldl_cons, Half.task]
    congr 1
    split
    next hk =>
      subst hk
      rw [side, connect_of]
    next => rfl
  | @teardown k' rest _ h =>
    rw [outlook_settle (hsocket rest) rfl rfl, outlook, h, List.foldl_cons, Half.task]
    congr 1
    split
    next hk =>
      subst hk
      rw [side, teardown_of]
    next => rfl
  | @sent k' text reply rest m _ h hm =>
    obtain ⟨c, rfl, rfl, -⟩ := Shaped.of_send (h ▸ hs)
    rw [outlook_settle (hsocket (.work (.sent c (.ok ())) :: rest)) rfl rfl, outlook, h,
      List.foldl_cons, List.foldl_cons]
    congr 1
    cases k with
    | live => rfl
    | command => simp only [Half.task, Half.item, Half.send, side, send_of, hm, Except.map, if_true]
  | @refused k' text reply rest e _ h hm =>
    obtain ⟨c, rfl, rfl, -⟩ := Shaped.of_send (h ▸ hs)
    have hside : side k (seen ++ sights k (([] : List (Entry (Note ν κ))).map (w, ·)))
        ({ w with agenda := .work (.sent c (.error e)) :: rest } : System κ γ τ ν) =
          side k seen w := by
      rw [side, side, hsocket, List.map_nil, sights, List.filterMap_nil, List.append_nil]
    rw [outlook, outlook, hside, h, List.foldl_cons, List.foldl_cons]
    congr 1
    cases k with
    | live => rfl
    | command => simp only [Half.task, Half.item, Half.send, side, send_of, hm, Except.map]

/-- The reading of content on the command channel is nothing to either side. -/
theorem settle_hearing {i : Nat} {s : Socket} {hub : Hub κ} {m : Move} {now now' : Nat}
    (hm : Stepped now i s m) (hh : ∃ h ∈ m.seen, h.isHearing = true) :
    (Half.of .command s hub seen).settle .command now' (hush .command m) =
      Half.of .command s hub seen := by
  obtain ⟨hsocket, hseen, c, hc, hstatus⟩ := hm.hearing hh
  have hnone : (hush .command m).seen.filter (!·.isHearing) = [] := by
    rw [List.filter_eq_nil_iff]
    intro h hmem
    simp [hseen h hmem]
  have hmove : (Half.of .command s hub seen).move now' (hush .command m) =
      Half.of .command s hub seen := by
    rw [Half.move, hnone, List.map_nil, see_nil, show (hush .command m).socket = m.socket.muted from
      rfl, hsocket]
    rfl
  rw [Half.settle, show (hush .command m).callback = some c from hc, hmove]
  cases c with
  | status b => exact absurd rfl (hstatus b)
  | _ => rfl

/-- A label that does nothing to the sockets and the manager does nothing to a side. -/
theorem prospect_still (h : World.act (consumer C) w l = w') (hs : ∀ k, w'.socket k = w.socket k)
    (hu : w'.state = w.state) (ha : w'.agenda = w.agenda) (hn : w'.now = w.now ∨ w.agenda = [])
    (ht : w'.trace = w.trace) : prospect C k seen w l = outlook k seen w := by
  rw [prospect_unseen h ht, outlook_congr hs hu ha hn]

/-- A driver that goes on, or is ended, does something to the side of its channel alone. -/
theorem prospect_driven {m : Move} (ha : w.agenda = [])
    (hu : u = w ∨ u = { w with running := none })
    (h : World.act (consumer C) w l = u.settle (consumer C) k' m) :
    prospect C k seen w l =
      if k' = k then (side k seen w).settle k w.now (hush k m) else side k seen w := by
  have hs (k : ChannelKind) : u.socket k = w.socket k := by
    rcases hu with rfl | rfl
    · rfl
    · cases k <;> rfl
  obtain ⟨hnow, hstate, hagenda, htrace⟩ : u.now = w.now ∧ u.state = w.state ∧ u.agenda = [] ∧
      u.trace = w.trace := by
    rcases hu with rfl | rfl <;> exact ⟨rfl, rfl, ha, rfl⟩
  rw [prospect_eq h (by rw [trace_settle, htrace, hnow]), outlook_settle hs hnow hstate, hagenda,
    List.foldl_nil]

/-- A step is an input to the side of its driver, unless it reads what the command channel does
not heed. -/
theorem prospect_step {i : Nat} {b : Bool} {m : Move} (ha : w.agenda = [])
    (hr : w.running = some (k', i)) (hm : (w.socket k').step w.now b i = some m)
    (seen : List (Nat × Reading × Sight κ)) :
    prospect C k seen w (.proceed b) =
      (input? k w (.proceed b : Turn κ γ)).elim (side k seen w) ((side k seen w).take k w.now) := by
  have hsettle : World.act (consumer C) w (.proceed b) = w.settle (consumer C) k' m := by
    simp only [World.act, proceed, ha, hr, drive, hm]
  rw [prospect_driven ha (.inl rfl) hsettle]
  by_cases hk : k' = k
  · subst hk
    simp only [input?, ha, hr, hm, if_true]
    by_cases hh : k' = .command ∧ m.seen.any Happening.isHearing
    · obtain ⟨rfl, hh⟩ := hh
      rw [side, settle_hearing (step_stepped hm) (by simpa using hh)]
      simp [hh]
    · have hnone : k' = .command → ∀ h ∈ m.seen, h.isHearing = false := by
        rintro rfl
        simpa using hh
      have hstep : (Half.of k' (w.socket k') w.state.hub seen).socket.step w.now b i =
          some (hush k' m) := step_of hm hnone
      rw [if_neg (by simpa using hh), Option.elim_some, Half.take, side, hstep]
  · simp [input?, ha, hr, hk]

/-- A driver that has to wait is let be, unless it has been aborted. -/
theorem prospect_wait {i : Nat} {b : Bool} (ha : w.agenda = []) (hr : w.running = some (k', i))
    (hm : (w.socket k').step w.now b i = none) (seen : List (Nat × Reading × Sight κ)) :
    prospect C k seen w (.proceed b) =
      (input? k w (.proceed b : Turn κ γ)).elim (side k seen w) ((side k seen w).take k w.now) := by
  by_cases hd : (w.socket k').isAborted i && !((w.socket k').phase i).isFinished
  · have hsettle : World.act (consumer C) w (.proceed b) =
        { w with running := none }.settle (consumer C) k' ((w.socket k').discard i) := by
      simp only [World.act, proceed, ha, hr, drive, hm, hd, if_true]
    rw [prospect_driven ha (.inr rfl) hsettle]
    by_cases hk : k' = k
    · subst hk
      simp only [input?, ha, hr, hm, hd, if_true, Option.elim_some, Half.take, side, discard_of]
    · simp [input?, ha, hr, hk]
  · have hstop : World.act (consumer C) w (.proceed b) = { w with running := none } := by
      simp only [World.act, proceed, ha, hr, drive, hm, hd]
      rfl
    rw [prospect_still hstop (fun k => by cases k <;> rfl) rfl rfl (.inl rfl) rfl,
      outlook_idle ha]
    by_cases hk : k' = k
    · subst hk
      simp [input?, ha, hr, hm, hd]
    · simp [input?, ha, hr, hk]

theorem prospect_drive (ha : w.agenda = []) (b : Bool) (seen : List (Nat × Reading × Sight κ)) :
    prospect C k seen w (.proceed b) =
      (input? k w (.proceed b : Turn κ γ)).elim (side k seen w) ((side k seen w).take k w.now) := by
  cases hr : w.running with
  | none =>
    have hstill : World.act (consumer C) w (.proceed b) = w := by
      simp only [World.act, proceed, ha, hr]
    rw [prospect_still hstill (fun _ => rfl) rfl rfl (.inl rfl) rfl, outlook_idle ha]
    simp [input?, ha, hr]
  | some d =>
    obtain ⟨k', i⟩ := d
    cases hm : (w.socket k').step w.now b i with
    | some m => exact prospect_step ha hr hm seen
    | none => exact prospect_wait ha hr hm seen

/-- What a peer does is done to the side of its channel alone. -/
theorem prospect_peer {s : Socket} (h : World.act (consumer C) w l = w.setSocket k' s) :
    prospect C k seen w l =
      if k' = k then w.agenda.foldl (Half.task k w.now) (.of k s w.state.hub seen)
      else outlook k seen w := by
  have htrace : (w.setSocket k' s).trace = w.trace := by cases k' <;> rfl
  obtain ⟨hagenda, hnow, hstate⟩ : (w.setSocket k' s).agenda = w.agenda ∧
      (w.setSocket k' s).now = w.now ∧ (w.setSocket k' s).state = w.state := by
    cases k' <;> exact ⟨rfl, rfl, rfl⟩
  rw [prospect_unseen h htrace, outlook, hagenda, hnow]
  split
  next hk =>
    subst hk
    rw [side, socket_setSocket_self, hstate]
  next hk =>
    have hother : (w.setSocket k' s).socket k = w.socket k := by
      rw [eq_other (Ne.symm hk), socket_setSocket_other]
    rw [side, hother, hstate]
    rfl

theorem arrive_of {s : Socket} {hub : Hub κ} (link : Nat) (item : Inbound) :
    Half.of k (s.arrive link item) hub seen =
      if k = .command ∧ item.isContent then Half.of k s hub seen
      else (Half.of k s hub seen).relink fun i l => if i = link then l.arrive item else l := by
  cases k with
  | live =>
    simp only [reduceCtorEq, false_and, if_false, Half.relink, Half.of, ← modifyLink_eq_relink]
    rfl
  | command =>
    simp only [true_and, Half.relink, Half.of, ← modifyLink_eq_relink, arrive_muted]
    split <;> rfl

theorem hangUp_of {s : Socket} {hub : Hub κ} (link : Nat) :
    Half.of k (s.hangUp link) hub seen =
      (Half.of k s hub seen).relink fun i l => if i = link then l.hangUp else l := by
  cases k with
  | live =>
    simp only [Half.relink, Half.of, ← modifyLink_eq_relink]
    rfl
  | command =>
    simp only [Half.relink, Half.of, ← modifyLink_eq_relink, hangUp_muted]
    rfl

theorem take_arrive (link : Nat) (item : Inbound) (now : Nat) (h : Half κ) :
    h.take k now (.arrive link item : Input κ γ) =
      h.relink fun i l => if i = link then l.arrive item else l := by
  rw [Half.relink, ← modifyLink_eq_relink]
  rfl

theorem take_hangUp (link : Nat) (now : Nat) (h : Half κ) :
    h.take k now (.hangUp link : Input κ γ) =
      h.relink fun i l => if i = link then l.hangUp else l := by
  rw [Half.relink, ← modifyLink_eq_relink]
  rfl

theorem prospect_ask (r : Request κ γ) (seen : List (Nat × Reading × Sight κ)) :
    prospect C k seen w (.call (request r)) =
      (input? k w (.ask r)).elim (outlook k seen w) ((outlook k seen w).take k w.now) := by
  by_cases ha : w.agenda = []
  · have hact :
        World.act (consumer C) w (.call (request r)) = { w with agenda := [request r] } := by
      simp [World.act, ha]
    have hside : side k seen ({ w with agenda := [request r] } : System κ γ τ ν) =
        side k seen w := by
      cases k <;> rfl
    rw [prospect_unseen hact rfl, outlook_idle ha, outlook, hside]
    simp only [input?, ha, List.isEmpty_nil, if_true, Option.elim_some]
    rfl
  · have hact : World.act (consumer C) w (.call (request r)) = w := by simp [World.act, ha]
    rw [prospect_still hact (fun _ => rfl) rfl rfl (.inl rfl) rfl]
    simp [input?, ha]

theorem prospect_poll (k' : ChannelKind) (i : Nat) (seen : List (Nat × Reading × Sight κ)) :
    prospect C k seen w (.poll k' i) =
      (input? k w (.poll k' i : Turn κ γ)).elim (outlook k seen w)
        ((outlook k seen w).take k w.now) := by
  by_cases hd : w.isIdle ∧ !((w.socket k').phase i).isFinished ∧ (w.socket k').isAborted i
  · obtain ⟨hidle, hf, hab⟩ := hd
    have hact : World.act (consumer C) w (.poll k' i) =
        w.settle (consumer C) k' ((w.socket k').discard i) := by
      simp only [Bool.not_eq_true'] at hf
      simp [World.act, poll, hidle, hf, hab]
    have ha := (isIdle_iff.mp hidle).1
    rw [prospect_driven ha (.inl rfl) hact, outlook_idle ha]
    by_cases hk : k' = k
    · subst hk
      rw [if_pos rfl, input?, if_pos ⟨rfl, hidle, hf, hab⟩, Option.elim_some, Half.take, side,
        discard_of]
    · simp [input?, hk]
  · have hact : ∃ d, World.act (consumer C) w (.poll k' i) = { w with running := d } := by
      simp only [World.act, poll]
      split
      next => exact ⟨w.running, rfl⟩
      next hb =>
        simp only [Bool.or_eq_true, Bool.not_eq_true', not_or, Bool.not_eq_false] at hb
        rw [if_neg fun hab => hd ⟨hb.1, by simpa using hb.2, hab⟩]
        exact ⟨_, rfl⟩
    obtain ⟨d, hact⟩ := hact
    rw [prospect_still hact (fun k => by cases k <;> rfl) rfl rfl (.inl rfl) rfl, input?, if_neg]
    · rfl
    · rintro ⟨-, h⟩
      exact hd h

theorem prospect_reap (k' : ChannelKind) (i : Nat) (seen : List (Nat × Reading × Sight κ)) :
    prospect C k seen w (.reap k' i) =
      (input? k w (.reap k' i : Turn κ γ)).elim (outlook k seen w)
        ((outlook k seen w).take k w.now) := by
  by_cases hd : w.isIdle ∧ (w.socket k').isReapDue w.now i
  · have hact : World.act (consumer C) w (.reap k' i) =
        w.settle (consumer C) k' ((w.socket k').reap i) := by
      simp [World.act, World.reap, hd]
    have ha := (isIdle_iff.mp hd.1).1
    rw [prospect_driven ha (.inl rfl) hact, outlook_idle ha]
    by_cases hk : k' = k
    · subst hk
      rw [if_pos rfl, input?, if_pos ⟨rfl, hd⟩, Option.elim_some, Half.take, side, reap_of]
    · simp [input?, hk]
  · have hact : World.act (consumer C) w (.reap k' i) = w := by
      simp only [World.act, World.reap]
      rw [if_neg fun h => hd ((Bool.and_eq_true _ _).mp h)]
    rw [prospect_still hact (fun _ => rfl) rfl rfl (.inl rfl) rfl, input?, if_neg]
    · rfl
    · rintro ⟨-, h⟩
      exact hd h

theorem prospect_arrive (k' : ChannelKind) (link : Nat) (item : Inbound)
    (seen : List (Nat × Reading × Sight κ)) :
    prospect C k seen w (.arrive k' link item) =
      (input? k w (.arrive k' link item : Turn κ γ)).elim (outlook k seen w)
        ((outlook k seen w).take k w.now) := by
  have hact : World.act (consumer C) w (.arrive k' link item) =
    w.setSocket k' ((w.socket k').arrive link item) := rfl
  rw [prospect_peer hact]
  by_cases hk : k' = k
  · subst hk
    rw [if_pos rfl, arrive_of]
    by_cases hc : k' = .command ∧ item.isContent
    · rw [if_pos hc]
      simp [input?, hc, outlook, side]
    · have hg : Outward fun i l => if i = link then l.arrive item else l := outward_arrive link item
      have hin : input? k' w (.arrive k' link item : Turn κ γ) = some (.arrive link item) := by
        rw [input?, if_pos ⟨rfl, hc⟩]
      -- A callback may be in progress: what the peer does can as well be done after it.
      rw [if_neg hc, foldl_relink hg, hin, Option.elim_some, take_arrive]
      rfl
  · simp [input?, hk]

theorem prospect_hangUp (k' : ChannelKind) (link : Nat) (seen : List (Nat × Reading × Sight κ)) :
    prospect C k seen w (.hangUp k' link) =
      (input? k w (.hangUp k' link : Turn κ γ)).elim (outlook k seen w)
        ((outlook k seen w).take k w.now) := by
  have hact : World.act (consumer C) w (.hangUp k' link) =
    w.setSocket k' ((w.socket k').hangUp link) := rfl
  rw [prospect_peer hact]
  by_cases hk : k' = k
  · subst hk
    rw [if_pos rfl, hangUp_of, foldl_relink (outward_hangUp link), input?, if_pos rfl,
      Option.elim_some, take_hangUp]
    rfl
  · simp [input?, hk]

/-- Time passes only while nothing is to be done. -/
theorem prospect_elapse (ms : Nat) (seen : List (Nat × Reading × Sight κ)) :
    prospect C k seen w (.elapse ms) = outlook k seen w := by
  by_cases he : w.isSettled && w.dues.all (w.now + ms ≤ ·)
  · have hact : World.act (consumer C) w (.elapse ms) = { w with now := w.now + ms } := by
      simp only [World.act, elapse]
      rw [if_pos he]
    have ha : w.agenda = [] := by
      simp only [World.isSettled, Bool.and_eq_true] at he
      exact (isIdle_iff.mp he.1.1.1).1
    rw [prospect_still hact (fun k => by cases k <;> rfl) rfl rfl (.inr ha) rfl]
  · have hact : World.act (consumer C) w (.elapse ms) = w := by
      simp only [World.act, elapse]
      rw [if_neg he]
    rw [prospect_still hact (fun _ => rfl) rfl rfl (.inl rfl) rfl]

/-- Every turn does to a side what its input does, if it is one, once all is done that is in
progress. -/
theorem prospect_act (hq : C.Quiet) (hs : Shaped w.agenda) (t : Turn κ γ)
    (seen : List (Nat × Reading × Sight κ)) :
    prospect C k seen w t.label =
      (input? k w t).elim (outlook k seen w) ((outlook k seen w).take k w.now) := by
  cases t with
  | ask r => exact prospect_ask r seen
  | poll k' i => exact prospect_poll k' i seen
  | reap k' i => exact prospect_reap k' i seen
  | arrive k' link item => exact prospect_arrive k' link item seen
  | hangUp k' link => exact prospect_hangUp k' link seen
  | elapse ms => exact prospect_elapse ms seen
  | proceed b =>
    by_cases ha : w.agenda = []
    · rw [outlook_idle ha]
      exact prospect_drive ha b seen
    · have hnone : input? k w (.proceed b : Turn κ γ) = none := by
        obtain ⟨t, rest, ht⟩ := List.exists_cons_of_ne_nil ha
        simp [input?, ht]
      rw [hnone]
      exact prospect_task hq hs ha b seen

end Step

/-- A run does to a side what the inputs of that side do, once all is done. -/
theorem outlook_run (hq : C.Quiet) (k : ChannelKind) (turns : List (Turn κ γ))
    (w : System κ γ τ ν) (hs : Shaped w.agenda) (seen : List (Nat × Reading × Sight κ)) :
    outlook k (seen ++ sights k (history C turns w)) (run C turns w) =
      replay k (inputs C k turns w) (outlook k seen w) := by
  induction turns generalizing w seen with
  | nil =>
    rw [history, List.map_nil, World.history, moments]
    simp [sights, run, inputs, replay]
  | cons t turns ih =>
    have hact : prospect C k seen w t.label =
        (input? k w t).elim (outlook k seen w) ((outlook k seen w).take k w.now) :=
      prospect_act hq hs t seen
    have hhistory : history C (t :: turns) w = (news (consumer C) t.label w).map (w, ·) ++
        history C turns (World.act (consumer C) w t.label) := history_cons (consumer C) _ _ w
    rw [hhistory, sights_append, ← List.append_assoc]
    refine (ih _ ((took C hs t).shaped hs) _).trans ?_
    rw [← prospect, hact, inputs, replay, replay, List.foldl_append]
    cases input? k w t <;> rfl

theorem prefix_outlook (k : ChannelKind) (seen : List (Nat × Reading × Sight κ))
    (w : System κ γ τ ν) : seen <+: (outlook k seen w).seen := by
  have hside : (side k seen w).seen = seen := by cases k <;> rfl
  have hprefix : (side k seen w).seen <+: (outlook k seen w).seen := prefix_foldl w.agenda _
  rwa [hside] at hprefix

/-- What is seen, and what it is seen of. -/
theorem side_inj {k : ChannelKind} {seen₁ seen₂ : List (Nat × Reading × Sight κ)}
    {w₁ w₂ : System κ γ τ ν} (h : side k seen₁ w₁ = side k seen₂ w₂) :
    seen₁ = seen₂ ∧ side k [] w₁ = side k [] w₂ := by
  have hseen (seen : List (Nat × Reading × Sight κ)) (w : System κ γ τ ν) :
      side k [] w = { side k seen w with seen := [] } := by cases k <;> rfl
  constructor
  · have := congrArg Half.seen h
    cases k <;> exact this
  · rw [hseen seen₁, hseen seen₂, h]

theorem side_ofConfig (k : ChannelKind) (c : Config)
    {answers₁ answers₂ : ChannelKind → List (Reply Answer)} (h : answers₁ k = answers₂ k)
    (client₁ client₂ : τ) :
    side k [] (ofConfig c (answers₁ .live) (answers₁ .command) client₁ : System κ γ τ ν) =
      side k [] (ofConfig c (answers₂ .live) (answers₂ .command) client₂ : System κ γ τ ν) := by
  unfold ofConfig
  cases c.token <;> cases k <;> simp [side, Half.of, World.ofSockets, World.socket, World.record, h]

/-- The channels do not interfere. Two managers have one configuration, their networks answer
channel `k` alike, and their listeners ask for nothing. If the same reaches side `k` of both at
the same instants, then the same is seen of it, with the same to be read at each instant, and
both are left in the same state: what the network, the drivers and the peers of the other
channel do does not matter, nor does content on the command channel. If a run stops while
something is in progress, it has only seen less of the same. -/
theorem run_separate (hq : C.Quiet) (k : ChannelKind) (c : Config)
    {answers₁ answers₂ : ChannelKind → List (Reply Answer)} (hanswers : answers₁ k = answers₂ k)
    {client₁ client₂ : τ} {turns₁ turns₂ : List (Turn κ γ)} {w₁ w₂ : System κ γ τ ν}
    (h₁ : w₁ = ofConfig c (answers₁ .live) (answers₁ .command) client₁)
    (h₂ : w₂ = ofConfig c (answers₂ .live) (answers₂ .command) client₂)
    (hinputs : inputs C k turns₁ w₁ = inputs C k turns₂ w₂) :
    (sights k (history C turns₁ w₁) <+: sights k (history C turns₂ w₂) ∨
      sights k (history C turns₂ w₂) <+: sights k (history C turns₁ w₁)) ∧
    ((run C turns₁ w₁).agenda = [] → (run C turns₂ w₂).agenda = [] →
      sights k (history C turns₁ w₁) = sights k (history C turns₂ w₂) ∧
      reading k (run C turns₁ w₁) = reading k (run C turns₂ w₂) ∧
      side k [] (run C turns₁ w₁) = side k [] (run C turns₂ w₂)) := by
  have houtlook : outlook k (sights k (history C turns₁ w₁)) (run C turns₁ w₁) =
      outlook k (sights k (history C turns₂ w₂)) (run C turns₂ w₂) := by
    have hrun₁ := outlook_run hq k turns₁ w₁ (by rw [h₁]; exact shaped_ofConfig ..) []
    have hrun₂ := outlook_run hq k turns₂ w₂ (by rw [h₂]; exact shaped_ofConfig ..) []
    rw [List.nil_append] at hrun₁ hrun₂
    rw [hrun₁, hrun₂, hinputs, outlook_idle (by rw [h₁]; exact agenda_ofConfig ..),
      outlook_idle (by rw [h₂]; exact agenda_ofConfig ..), h₁, h₂, side_ofConfig k c hanswers]
  refine ⟨?_, fun ha₁ ha₂ => ?_⟩
  · -- Both have seen a part of what will have been seen once all is done.
    have hprefix := prefix_outlook k (sights k (history C turns₁ w₁)) (run C turns₁ w₁)
    rw [houtlook] at hprefix
    exact List.prefix_or_prefix_of_prefix hprefix (prefix_outlook k _ _)
  · rw [outlook_idle ha₁, outlook_idle ha₂] at houtlook
    obtain ⟨hsights, hside⟩ := side_inj houtlook
    exact ⟨hsights, congrArg Half.reading hside, hside⟩

/-- A client whose listeners note what they hear. -/
def attentive : Client Unit Event Unit Event where
  hear _ e := e
  perform _ _ e _ := ⟨(), [e], []⟩

/-- A network that accepts the live channel and rejects the command channel. -/
def rejecting : ChannelKind → List (Reply Answer)
  | .live => accepting .live
  | .command => [.now (.error (.rejected 401))]

/-- The live channel is open and reads something. The command channel tries to connect. -/
def hearingLive : List (Turn Unit Event) :=
  opening ++ [.proceed false, .poll .command 0, .proceed false, .proceed false, .proceed false,
    .proceed false, .proceed false, .arrive .live 0 (.frame (.text "x")), .poll .live 0,
    .proceed false, .proceed false]

/-- Both channels are open and read something. -/
def hearingBoth : List (Turn Unit Event) :=
  opening ++ [.proceed false, .poll .command 0, .proceed false, .proceed false, .proceed false,
    .proceed false, .arrive .command 0 (.frame (.text "y")), .proceed false, .proceed false,
    .proceed false, .arrive .live 0 (.frame (.text "x")), .poll .live 0, .proceed false,
    .proceed false]

/-- What reaches the live side in both cases. -/
def heardLive : List (Nat × Input Unit Event) :=
  [(0, .ask (.watch .live () fun _ => .status ⟨.live, false⟩)), (0, .ask .connect),
    (0, .run 0 false), (0, .run 0 false), (0, .run 0 false), (0, .arrive 0 (.frame (.text "x"))),
    (0, .run 0 false)]

abbrev degraded : System Unit Event Unit Event :=
  ofConfig plainConfig (rejecting .live) (rejecting .command) ()

abbrev healthy : System Unit Event Unit Event :=
  ofConfig plainConfig (accepting .live) (accepting .command) ()

theorem inputs_hearingLive : inputs attentive .live hearingLive degraded = heardLive := by rfl

theorem inputs_hearingBoth : inputs attentive .live hearingBoth healthy = heardLive := by rfl

theorem run_separate_rejected :
    inputs attentive .live hearingLive degraded = inputs attentive .live hearingBoth healthy ∧
      (run attentive hearingLive degraded).command.state ≠
        (run attentive hearingBoth healthy).command.state ∧
      sights .live (history attentive hearingLive degraded) =
        sights .live (history attentive hearingBoth healthy) ∧
      reading .live (run attentive hearingLive degraded) =
        reading .live (run attentive hearingBoth healthy) := by
  have hin : inputs attentive .live hearingLive degraded =
      inputs attentive .live hearingBoth healthy := inputs_hearingLive.trans inputs_hearingBoth.symm
  have ha₁ : (run attentive hearingLive degraded).agenda = [] := List.isEmpty_iff.mp (by decide)
  have ha₂ : (run attentive hearingBoth healthy).agenda = [] := List.isEmpty_iff.mp (by decide)
  obtain ⟨hsights, hreading, -⟩ :=
    (run_separate (C := attentive) (fun _ _ _ _ => rfl) .live plainConfig
      (show rejecting .live = accepting .live from rfl) rfl rfl hin).2 ha₁ ha₂
  exact ⟨hin, by decide, hsights, hreading⟩

end TwinLink.Manager
