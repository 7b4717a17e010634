import TwinLink.Proofs.Manager.Connectivity
import TwinLink.Proofs.Manager.Snapshots
import TwinLink.Proofs.World.Governance

/-! What a disconnection leaves. When it is over both channels are closed and count as not
connected, and until the client asks for a connection again nothing changes that: whatever
drivers of earlier sessions still do, no channel changes its state and no emission begins. A
driver that runs, and has been told to connect, is not asked again: its attempt is the one that
may still begin. -/

namespace TwinLink.Manager

open Socket World

variable {κ γ τ ν : Type} {C : Client κ γ τ ν}

/-- No channel is about to be opened. -/
def Unopened (tasks : List (Task (Item κ γ))) : Prop := ∀ k, Task.connect k ∉ tasks

/-- The driver that runs is one of the channel, and is about to begin an attempt. -/
def isStarting (k : ChannelKind) (w : System κ γ τ ν) : Bool :=
  match w.running with
  | some (k', i) => decide (k' = k) && ((w.socket k').phase i).isQueued
  | none => false

/-- An attempt to connect a channel begins. -/
def isAttempt (k : ChannelKind) : Entry (Note ν κ) → Bool
  | .socket k' h => decide (k' = k) && h.isAttempt
  | _ => false

/-- How many attempts begin. -/
def attemptCount (k : ChannelKind) (past : List (System κ γ τ ν × Entry (Note ν κ))) : Nat :=
  past.countP fun x => isAttempt k x.2

/-- Both channels have been torn down, and nothing is about to open one. -/
structure Ended (w : System κ γ τ ν) : Prop where
  retired : ∀ k, Retired (w.socket k)
  unopened : Unopened w.agenda

/-- What a turn does to channels that have been torn down. -/
structure Spent (w w' : System κ γ τ ν) (es : List (Entry (Note ν κ))) : Prop where
  sockets : ∀ k, ∃ m, Idles (w.socket k) m ∧ w'.socket k = m.socket
  attempts : ∀ k, (w'.socket k).attempts = (w.socket k).attempts + es.countP (isAttempt k)
  /-- An attempt that begins is the one that a driver was about to begin. -/
  asked : ∀ k, es.countP (isAttempt k) + (isStarting k w').toNat = (isStarting k w).toNat
  unannounced : ∀ k b, .callback k (.status b) ∉ es
  untold : ∀ k b, .work (.heard k (.status b)) ∈ w'.agenda → .work (.heard k (.status b)) ∈ w.agenda

section Step

variable {w w' u : System κ γ τ ν} {t : Turn κ γ} {done : Option (Task (Item κ γ))}
  {es : List (Entry (Note ν κ))} {rest : List (Task (Item κ γ))}

/-- Channels are opened only where a connection is asked for. -/
theorem Took.unopened (ht : Took C w w' t done es) (h : Unopened w.agenda)
    (hd : done ≠ some (request .connect)) : Unopened w'.agenda := by
  have htail {task : Task (Item κ γ)} {rest : List (Task (Item κ γ))}
      (ha : w.agenda = task :: rest) : Unopened rest := fun k hk =>
    h k (by rw [ha]; exact List.mem_cons_of_mem _ hk)
  have hhearing (k' : ChannelKind) (c : Option Callback) {rest : List (Task (Item κ γ))}
      (hr : Unopened rest) : Unopened (hearing (consumer C) k' c ++ rest) := by
    intro k hk
    rcases List.mem_append.mp hk with hk | hk
    · cases c <;> simp [hearing] at hk
    · exact hr k hk
  cases ht with
  | outside _ ha => rw [ha]; exact h
  | ask r _ hw => simp [hw, Unopened, request]
  | @work _ item rest o ha hp hw =>
    have hagenda : w'.agenda = o.next ++ rest := by rw [hw]
    intro k hk
    rw [hagenda] at hk
    rcases List.mem_append.mp hk with hk | hk
    · cases hp with
      | connect => exact hd rfl
      | _ => simp [emit, onHub, consult, conclude] at hk
    · exact htail ha k hk
  | connect ha hw => rw [hw, agenda_settle]; exact hhearing _ _ (htail ha)
  | teardown ha hw => rw [hw, agenda_settle]; exact hhearing _ _ (htail ha)
  | @sent _ c text rest m ha _ _ hw =>
    rw [hw, agenda_settle]
    refine hhearing _ _ fun k hk => ?_
    rcases List.mem_cons.mp hk with hk | hk
    · cases hk
    · exact htail ha k hk
  | @refused _ c text rest e ha _ _ hw =>
    have hagenda : w'.agenda = .work (.sent c (.error e)) :: rest := by rw [hw]
    intro k hk
    rw [hagenda] at hk
    rcases List.mem_cons.mp hk with hk | hk
    · cases hk
    · exact htail ha k hk
  | @drive _ u k m ha _ hu hw =>
    have hu' : u.agenda = [] := by rcases hu with rfl | rfl <;> exact ha
    rw [hw, agenda_settle, hu']
    exact hhearing _ _ (by simp [Unopened])

theorem isStarting_iff {k : ChannelKind} : isStarting k w = true ↔
    ∃ i, w.running = some (k, i) ∧ (w.socket k).phase i = .queued := by
  unfold isStarting
  split
  next k' i hr =>
    rw [Bool.and_eq_true, decide_eq_true_eq, Phase.isQueued_iff, hr]
    constructor
    · rintro ⟨rfl, hq⟩
      exact ⟨i, rfl, hq⟩
    · rintro ⟨j, hj, hq⟩
      obtain ⟨rfl, rfl⟩ := Prod.mk.inj (Option.some.inj hj)
      exact ⟨rfl, hq⟩
  next hr => simp [hr]

theorem isStarting_eq_false {k : ChannelKind}
    (h : ∀ i, w.running = some (k, i) → (w.socket k).phase i ≠ .queued) :
    isStarting k w = false := by
  rw [Bool.eq_false_iff]
  intro hs
  obtain ⟨i, hr, hq⟩ := isStarting_iff.mp hs
  exact h i hr hq

/-- A driver that has to wait is not about to begin an attempt. -/
theorem Resting.phase_ne (h : Resting w) {k : ChannelKind} {i : Nat}
    (hr : w.running = some (k, i)) : (w.socket k).phase i ≠ .queued := by
  intro hq
  obtain ⟨b, hs⟩ := h k i hr
  rw [Socket.step, hq] at hs
  cases hs

theorem Resting.isStarting (h : Resting w) (k : ChannelKind) : isStarting k w = false :=
  isStarting_eq_false fun _ hr => h.phase_ne hr

theorem isStarting_congr (hr : w'.running = w.running)
    (hp : ∀ k i, (w'.socket k).phase i = (w.socket k).phase i) (k : ChannelKind) :
    isStarting k w' = isStarting k w := by
  unfold isStarting
  rw [hr]
  split
  next => rw [hp]
  next => rfl

theorem countP_ofMove (k k' : ChannelKind) (m : Move) :
    (Entry.ofMove k' m : List (Entry (Note ν κ))).countP (isAttempt k) =
      if k' = k then m.seen.countP Happening.isAttempt else 0 := by
  have hcallback : (m.callback.map (Entry.callback (ε := Note ν κ) k')).toList.countP
      (isAttempt k) = 0 := by
    cases m.callback <;> rfl
  rw [Entry.ofMove, List.countP_append, hcallback, Nat.add_zero, List.countP_map]
  split
  next hk =>
    refine List.countP_congr fun h _ => ?_
    simp [isAttempt, hk]
  next hk =>
    rw [List.countP_eq_zero]
    simp [isAttempt, hk]

theorem spent_settle {k : ChannelKind} {m : Move} (h : Ended w) (hm : Idles (w.socket k) m)
    (hu : ∀ k, u.socket k = w.socket k) (ha : ∀ t ∈ u.agenda, t ∈ w.agenda)
    (hs : ∀ k', (if k = k' then m.seen.countP Happening.isAttempt else 0) +
      (isStarting k' (u.settle (consumer C) k m)).toNat = (isStarting k' w).toNat) :
    Spent w (u.settle (consumer C) k m) (Entry.ofMove k m) where
  sockets k' := by
    rw [socket_settle]
    split
    next hk =>
      subst hk
      exact ⟨m, hm, rfl⟩
    next => exact ⟨_, (h.retired k').idles_silent, hu k'⟩
  attempts k' := by
    rw [socket_settle, countP_ofMove]
    by_cases hk : k' = k
    · subst hk
      rw [if_pos rfl, if_pos rfl]
      exact hm.attempts
    · rw [if_neg hk, if_neg (Ne.symm hk), hu, Nat.add_zero]
  asked k' := by
    rw [countP_ofMove]
    exact hs k'
  unannounced k' b hmem := by
    rcases List.mem_append.mp hmem with hmem | hmem
    · obtain ⟨x, -, he⟩ := List.mem_map.mp hmem
      cases he
    · obtain ⟨c, hc, he⟩ := List.mem_map.mp (Option.toList_map .. ▸ hmem)
      cases he
      exact hm.untold b (Option.mem_toList.mp hc)
  untold k' b hmem := by
    rw [agenda_settle] at hmem
    rcases List.mem_append.mp hmem with hmem | hmem
    · cases hc : m.callback with
      | none => simp [hearing, hc] at hmem
      | some c =>
        simp only [hearing, hc, consumer, Option.map_some, Option.toList_some, List.mem_singleton,
          Task.work.injEq, Item.heard.injEq] at hmem
        exact absurd (hc.trans (congrArg some hmem.2.symm)) (hm.untold b)
    · exact ha _ hmem

/-- A driver of a channel that has been torn down goes on or is ended. -/
theorem Driven.spent {k : ChannelKind} {m : Move} (hd : Driven w k m) (h : Ended w)
    (hu : u = w ∨ u = { w with running := none }) :
    Spent w (u.settle (consumer C) k m) (Entry.ofMove k m) := by
  have hsocket (k : ChannelKind) : u.socket k = w.socket k := by
    rcases hu with rfl | rfl
    · rfl
    · exact socket_congr rfl rfl k
  have hagenda : ∀ t ∈ u.agenda, t ∈ w.agenda := by
    rcases hu with rfl | rfl <;> exact fun t ht => ht
  have hrunning {k' : ChannelKind} {i : Nat}
      (hr : (u.settle (consumer C) k m).running = some (k', i)) : w.running = some (k', i) := by
    rw [running_settle] at hr
    rcases hu with rfl | rfl
    · exact hr
    · cases hr
  -- where the driver that runs has to wait, none is about to begin an attempt before or after
  have hrest (hr : Resting w) (hm : Idles (w.socket k) m)
      (hseen : m.seen.countP Happening.isAttempt = 0) :
      Spent w (u.settle (consumer C) k m) (Entry.ofMove k m) := by
    refine spent_settle h hm hsocket hagenda fun k' => ?_
    have hnone : isStarting k' (u.settle (consumer C) k m) = false := by
      refine isStarting_eq_false fun i hrun hq => hr.phase_ne (hrunning hrun) ?_
      rw [socket_settle] at hq
      split at hq
      next hk =>
        subst hk
        exact hm.queued i hq
      next =>
        rw [hsocket] at hq
        exact hq
    rw [hnone, hr.isStarting, hseen, ite_self]
    rfl
  cases hd with
  | discard _ hr =>
    refine hrest hr ((h.retired k).discard _) ?_
    rw [seen_discard]
    cases ((w.socket k).phase _).link? <;> rfl
  | reap _ hr => exact hrest hr ((h.retired k).reap _) rfl
  | @step i m hr hs =>
    refine spent_settle h ((h.retired k).step hs) hsocket hagenda fun k' => ?_
    have hnone : isStarting k' (u.settle (consumer C) k m) = false := by
      refine isStarting_eq_false fun j hrun hq => ?_
      obtain ⟨rfl, rfl⟩ := Prod.mk.inj (Option.some.inj (hr.symm.trans (hrunning hrun)))
      rw [socket_settle_self] at hq
      exact (hs.queued ((h.retired k).not_isCurrent _) hq).1 rfl
    rw [hnone, hs.asks.2, isStarting, hr]
    by_cases hk : k = k' <;> simp [hk]

/-- Where neither sockets nor drivers are concerned. -/
theorem spent_same (h : Ended w) (hs : ∀ k, w'.socket k = w.socket k)
    (hr : w'.running = w.running) (ns : List (Note ν κ)) (hes : es = ns.map .note)
    (ha : ∀ k b, .work (.heard k (.status b)) ∈ w'.agenda →
      .work (.heard k (.status b)) ∈ w.agenda) : Spent w w' es where
  sockets k := ⟨_, (h.retired k).idles_silent, hs k⟩
  attempts k := by simp [hes, hs, isAttempt]
  asked k := by
    rw [isStarting_congr hr fun k i => by rw [hs]]
    simp [hes, isAttempt]
  unannounced k b := by simp [hes]
  untold := ha

theorem Took.spent (ht : Took C w w' t done es) (h : Ended w) : Spent w w' es := by
  have htail {task : Task (Item κ γ)} {rest : List (Task (Item κ γ))}
      (ha : w.agenda = task :: rest) : ∀ t ∈ rest, t ∈ w.agenda := fun t ht => by
    rw [ha]
    exact List.mem_cons_of_mem _ ht
  cases ht with
  | outside _ ha hk hr =>
    have hphase (k : ChannelKind) (i : Nat) : (w'.socket k).phase i = (w.socket k).phase i := by
      obtain ⟨-, links, hsocket⟩ := hk k
      rw [hsocket]
      rfl
    refine
      { sockets := fun k => ?_
        attempts := fun k => ?_
        asked := fun k => ?_
        unannounced := by simp
        untold := fun k b hmem => by rwa [ha] at hmem }
    · obtain ⟨-, links, hsocket⟩ := hk k
      exact ⟨_, (h.retired k).idles_links links, hsocket⟩
    · obtain ⟨-, links, hsocket⟩ := hk k
      rw [hsocket]
      rfl
    · rw [List.countP_nil, Nat.zero_add]
      rcases hr with hr | ⟨hr, hn⟩
      · rw [isStarting_congr hr hphase]
      · rw [hr.isStarting, isStarting_eq_false fun i hrun hq => ?_]
        -- a driver that has yet to begin is to end, so it does not get to run
        rw [hphase] at hq
        cases ((h.retired k).queued i hq).symm.trans (hn k i hrun)
  | ask r ha hw =>
    refine spent_same h (fun k => by rw [hw]; exact socket_congr rfl rfl k) (by rw [hw]) [] rfl ?_
    simp [hw, request]
  | @work _ item rest o ha hp hw =>
    refine spent_same h (fun k => by rw [hw]; exact socket_congr rfl rfl k) (by rw [hw]; rfl) _ rfl
      fun k b hmem => ?_
    rw [hw] at hmem
    rcases List.mem_append.mp hmem with hmem | hmem
    · cases hp.not_heard _ hmem
    · exact htail ha _ hmem
  | @refused _ c text rest e ha _ _ hw =>
    refine spent_same h (fun k => by rw [hw]; exact socket_congr rfl rfl k) (by rw [hw]) [] rfl
      fun k b hmem => ?_
    rw [hw] at hmem
    rcases List.mem_cons.mp hmem with hmem | hmem
    · cases hmem
    · exact htail ha _ hmem
  | @connect _ k rest ha hw =>
    exact absurd (by rw [ha]; exact List.mem_cons_self) (h.unopened k)
  | @teardown _ k rest ha hw =>
    -- nothing is left to tear down, so the sockets stay as they are
    rw [hw, (h.retired k).teardown_eq]
    refine spent_settle h (h.retired k).idles_silent (socket_congr rfl rfl) (htail ha) fun k' => ?_
    have hsame : isStarting k' ({ w with agenda := rest }.settle (consumer C) k
        (.silent (w.socket k))) = isStarting k' w := by
      refine isStarting_congr (running_settle ..) (fun k'' i => ?_) k'
      rw [socket_settle]
      split
      next hk => rw [hk]; rfl
      next => rw [socket_congr rfl rfl k'']
    rw [hsame]
    simp [Move.silent]
  | sent _ _ hm _ => exact absurd hm ((h.retired .command).send _ _)
  | drive _ hd hu hw =>
    rw [hw]
    exact hd.spent h hu

/-- Once both channels have been torn down, they remain so. -/
theorem Took.ended (ht : Took C w w' t done es) (h : Ended w)
    (hd : done ≠ some (request .connect)) : Ended w' := by
  have hspent := ht.spent h
  refine { retired := fun k => ?_, unopened := ht.unopened h.unopened hd }
  obtain ⟨m, hm, hsocket⟩ := hspent.sockets k
  rw [hsocket]
  exact hm.retired

/-! ### The disconnection -/

/-- How far a disconnection has come that leaves `rest` to be done. -/
inductive Ending (rest : List (Task (Item κ γ))) (w : System κ γ τ ν) : Prop where
  | asked (ha : w.agenda = request .disconnect :: rest) (hs : ∀ k, Supervised (w.socket k))
  | begun (ha : w.agenda = .teardown .live :: .teardown .command :: .work .discardLatest :: rest)
      (hs : ∀ k, Supervised (w.socket k))
  /-- The live channel has been torn down; what that led to comes first. -/
  | half (front : List (Task (Item κ γ)))
      (ha : w.agenda = front ++ .teardown .command :: .work .discardLatest :: rest)
      (hl : Retired (w.socket .live))
      (hc : Supervised (w.socket .command) ∨ Retired (w.socket .command))
  | ended (h : Ended w)

/-- The first half of a disconnection: nothing has been torn down yet. -/
theorem Took.ending_first (ht : Took C w w' t done es)
    (ha : w.agenda = request .disconnect :: rest ∨
      w.agenda = .teardown .live :: .teardown .command :: .work .discardLatest :: rest)
    (hs : ∀ k, Supervised (w.socket k)) : Ending rest w' := by
  cases ht with
  | outside _ hagenda hk =>
    have hs' (k : ChannelKind) : Supervised (w'.socket k) := (hs k).shift (hk k).1 (by simp)
    rcases ha with ha | ha
    · exact .asked (hagenda.trans ha) hs'
    · exact .begun (hagenda.trans ha) hs'
  | @work _ item rest' o hagenda hp hw =>
    rcases ha with ha | ha
    · obtain ⟨hitem, rfl⟩ := List.cons.inj (hagenda.symm.trans ha)
      cases hitem
      have hsocket (k : ChannelKind) : w'.socket k = w.socket k := by
        rw [hw]
        exact socket_congr rfl rfl k
      cases hp
      exact .begun (by rw [hw]; rfl) fun k => by rw [hsocket]; exact hs k
    · cases hagenda.symm.trans ha
  | @teardown _ k rest' hagenda hw =>
    rcases ha with ha | ha
    · cases hagenda.symm.trans ha
    · cases hagenda.symm.trans ha
      refine .half (hearing (consumer C) .live ((w.socket .live).teardown w.now).callback) ?_ ?_ ?_
      · rw [hw, agenda_settle]
      · rw [hw, socket_settle_self]
        exact (hs .live).retired w.now
      · rw [hw, socket_settle]
        exact .inl (hs .command)
  | ask _ hagenda _ | drive hagenda _ _ _ =>
    rcases ha with ha | ha <;> cases hagenda.symm.trans ha
  | connect hagenda _ | sent hagenda _ _ _ | refused hagenda _ _ _ =>
    rcases ha with ha | ha <;> cases hagenda.symm.trans ha

/-- A task that is next, and is not the one behind `front`, is in `front`. -/
theorem exists_front {task t : Task (Item κ γ)} {front behind rest : List (Task (Item κ γ))}
    (h : front ++ t :: behind = task :: rest) (hne : t ≠ task) :
    ∃ front', front = task :: front' ∧ rest = front' ++ t :: behind := by
  cases front with
  | nil => exact absurd (List.cons.inj h).1 hne
  | cons task' front =>
    obtain ⟨rfl, rfl⟩ := List.cons.inj h
    exact ⟨front, rfl, rfl⟩

/-- The second half: the live channel has been torn down. -/
theorem Took.ending_second (ht : Took C w w' t done es) {front : List (Task (Item κ γ))}
    (ha : w.agenda = front ++ .teardown .command :: .work .discardLatest :: rest)
    (hl : Retired (w.socket .live))
    (hc : Supervised (w.socket .command) ∨ Retired (w.socket .command))
    (hu : Unopened w.agenda) (hd : done ≠ some (request .connect)) : Ending rest w' := by
  have hunopened := ht.unopened hu hd
  cases ht with
  | outside _ hagenda hk =>
    have hretired (k : ChannelKind) (hr : Retired (w.socket k)) : Retired (w'.socket k) := by
      obtain ⟨-, links, hsocket⟩ := hk k
      rw [hsocket]
      exact (hr.idles_links links).retired
    refine .half front (hagenda.trans ha) (hretired _ hl) (hc.imp (fun hs => ?_) (hretired _))
    exact hs.shift (hk .command).1 (by simp)
  | ask _ hagenda _ | drive hagenda _ _ _ =>
    rw [hagenda] at ha
    simp at ha
  | @connect _ k rest' hagenda _ => exact absurd (by rw [hagenda]; exact List.mem_cons_self) (hu k)
  | @work _ item rest' o hagenda _ hw =>
    have hsocket (k : ChannelKind) : w'.socket k = w.socket k := by
      rw [hw]
      exact socket_congr rfl rfl k
    obtain ⟨front, rfl, rfl⟩ := exists_front (ha.symm.trans hagenda) nofun
    refine .half (o.next ++ front) ?_ (by rw [hsocket]; exact hl) (by rw [hsocket]; exact hc)
    rw [hw, List.append_assoc]
  | @refused _ c text rest' e hagenda _ _ hw =>
    have hsocket (k : ChannelKind) : w'.socket k = w.socket k := by
      rw [hw]
      exact socket_congr rfl rfl k
    obtain ⟨front, rfl, rfl⟩ := exists_front (ha.symm.trans hagenda) nofun
    refine .half (.work (.sent c (.error e)) :: front) ?_ (by rw [hsocket]; exact hl)
      (by rw [hsocket]; exact hc)
    rw [hw, List.cons_append]
  | @sent _ c text rest' m hagenda _ hm hw =>
    obtain ⟨front, rfl, rfl⟩ := exists_front (ha.symm.trans hagenda) nofun
    refine .half (.work (.sent c (.ok ())) :: front) ?_ ?_ ?_
    · rw [hw, agenda_settle, send_callback hm]
      rfl
    · rw [hw, socket_settle]
      exact hl
    · rw [hw, socket_settle_self]
      rcases hc with hs | hr
      · exact .inl (hs.shift (send_shift hm) (by simp))
      · exact absurd hm (hr.send _ _)
  | @teardown _ k rest' hagenda hw =>
    have hcommand (now : Nat) : Retired ((w.socket .command).teardown now).socket := by
      rcases hc with hs | hr
      · exact hs.retired now
      · exact (hr.idles_teardown now).retired
    have hlive : Retired (w'.socket .live) := by
      rw [hw, socket_settle]
      split
      next hk =>
        subst hk
        exact (hl.idles_teardown _).retired
      next => exact hl
    cases front with
    | nil =>
      cases hagenda.symm.trans ha
      refine .ended { retired := fun k => ?_, unopened := hunopened }
      cases k with
      | live => exact hlive
      | command =>
        rw [hw, socket_settle_self]
        exact hcommand _
    | cons task front =>
      obtain ⟨-, rfl⟩ := List.cons.inj (hagenda.symm.trans ha)
      refine .half (hearing (consumer C) k ((w.socket k).teardown w.now).callback ++ front) ?_
        hlive ?_
      · rw [hw, agenda_settle, List.append_assoc]
        rfl
      · rw [hw, socket_settle]
        split
        next hk =>
          subst hk
          exact .inr (hcommand _)
        next => exact hc

theorem Took.ending (ht : Took C w w' t done es) (h : Ending rest w) (hu : Unopened w.agenda)
    (hd : done ≠ some (request .connect)) : Ending rest w' := by
  cases h with
  | asked ha hs => exact ht.ending_first (.inl ha) hs
  | begun ha hs => exact ht.ending_first (.inr ha) hs
  | half front ha hl hc => exact ht.ending_second ha hl hc hu hd
  | ended h => exact .ended (ht.ended h hd)

/-- A disconnection is over, and the manager holds both channels to be closed. -/
structure Down (w : System κ γ τ ν) : Prop where
  ended : Ended w
  unheard : ∀ k b, .work (.heard k (.status b)) ∉ w.agenda
  lost : ∀ k, w.state.hub.isConnected k = false

theorem told_of_unheard {tasks : List (Task (Item κ γ))}
    (h : ∀ k b, .work (.heard k (.status b)) ∉ tasks) : told tasks = none := by
  unfold told
  split
  next k b _ => exact absurd List.mem_cons_self (h k b)
  next => rfl

/-- No emission begins where no change of status is heard and no channel is connected. -/
theorem Performed.unemitted {v : View} {s : State κ τ} {item : Item κ γ}
    {o : Outcome (State κ τ) (Item κ γ) (Note ν κ)} (hp : Performed C v s item o)
    (hi : ∀ k b, item ≠ .heard k (.status b)) (hl : s.hub.isConnected .live = false) :
    emitted o.notes = [] := by
  cases hp with
  | @changed k b => exact absurd rfl (hi k b)
  | received _ hf => cases hl.symm.trans hf
  | _ => simp [emitted, onHub, consult, conclude]

/-- Where no emission begins, those that have begun go on with the calls that they have left. -/
theorem Effect.finishing {hub hub' : Hub κ} {item : Item κ γ} {m : List (Note ν κ)}
    {next rest : List (Task (Item κ γ))} (he : Effect item hub hub' m next)
    (hm : emitted m = []) (n : Nat) :
    callsOf n (called m ++ calls (next ++ rest)) = callsOf n (calls (.work item :: rest)) := by
  rw [calls_append]
  cases he with
  | plain hi hn hnext =>
    rw [calls_cons_of_not_call hi, called_of_plain hn, calls_of_plain hnext]
    rfl
  | snapshot | status => cases hm
  | @call emission id listener e hi notes _ hn hnext =>
    have hcalled :
        called (.called emission id listener e :: notes) = (emission, id, e) :: called notes :=
      rfl
    rw [hi, hcalled, called_of_plain hn, calls_of_plain hnext]
    rfl
  | subscribe hi _ hnext =>
    rw [calls_cons_of_not_call hi, calls_of_plain hnext]
    rfl
  | watch hi k listener hnext =>
    rw [calls_cons_of_not_call hi, calls, List.filterMap_cons]
    rw [← calls, calls_of_plain hnext]
    rfl
  | remove hi =>
    rw [calls_cons_of_not_call hi]
    rfl

/-- What comes after a disconnection that was over at `w`: nothing begins anew, but the attempt
that a driver was about to begin. -/
structure Inert (w w' : System κ γ τ ν) (past : List (System κ γ τ ν × Entry (Note ν κ))) :
    Prop where
  closed : ∀ k, (w'.socket k).state = .closed
  lost : ∀ k, w'.state.hub.isConnected k = false
  machine : ∀ k, (w'.socket k).machine = (w.socket k).machine
  reconnects : ∀ k, (w'.socket k).reconnects = (w.socket k).reconnects
  attempts : ∀ k, (w'.socket k).attempts = (w.socket k).attempts + attemptCount k past
  /-- It begins unless that driver is still about to begin it. -/
  asked : ∀ k, attemptCount k past + (isStarting k w').toNat = (isStarting k w).toNat
  unannounced : ∀ v k b, (v, .callback k (.status b)) ∉ past
  unemitted : emitted (notes past) = []
  /-- An emission in progress finishes with the listeners that it has left. -/
  finishing : ∀ n, callsOf n (called (notes past) ++ calls w'.agenda) = callsOf n (calls w.agenda)

theorem attemptCount_append (k : ChannelKind) (past : List (System κ γ τ ν × Entry (Note ν κ))) :
    attemptCount k (past ++ es.map (w, ·)) = attemptCount k past + es.countP (isAttempt k) := by
  rw [attemptCount, List.countP_append, List.countP_map]
  rfl

theorem Took.down (ht : Took C w w' t done es) (h : Down w) (hd : done ≠ some (request .connect)) :
    Down w' where
  ended := ht.ended h.ended hd
  unheard k b hmem := h.unheard k b ((ht.spent h.ended).untold k b hmem)
  lost k := by
    rcases ht.item with ⟨item, rest, o, ha, hp, hs, -, -⟩ | ⟨hs, -, -⟩
    · have hnone : told (.work item :: rest) = none := ha ▸ told_of_unheard h.unheard
      rw [hs, hp.isConnected k, hnone]
      exact h.lost k
    · rw [hs]
      exact h.lost k

theorem Inert.took {past : List (System κ γ τ ν × Entry (Note ν κ))} (hi : Inert u w past)
    (h : Down w) (ht : Took C w w' t done es) (hd : done ≠ some (request .connect)) :
    Inert u w' (past ++ es.map (w, ·)) := by
  have hdown := ht.down h hd
  have hspent := ht.spent h.ended
  have hnew {v : System κ γ τ ν} {e : Entry (Note ν κ)} (he : e ∉ es) (hp : (v, e) ∉ past) :
      (v, e) ∉ past ++ es.map (w, ·) := by
    intro hmem
    rcases List.mem_append.mp hmem with hmem | hmem
    · exact hp hmem
    · obtain ⟨x, hx, hpair⟩ := List.mem_map.mp hmem
      cases hpair
      exact he hx
  have hquiet : emitted (notes (es.map (w, ·))) = [] ∧
      ∀ n, callsOf n (called (notes (es.map (w, ·))) ++ calls w'.agenda) =
        callsOf n (calls w.agenda) := by
    rcases ht.item with ⟨item, rest, o, ha, hp, -, hagenda, hn⟩ | ⟨-, hc, hn, -⟩
    · have hemitted : emitted o.notes = [] := by
        refine hp.unemitted (fun k b hitem => h.unheard k b ?_) (h.lost .live)
        rw [ha, hitem]
        exact List.mem_cons_self
      rw [hn, hagenda, ha]
      exact ⟨hemitted, hp.effect.finishing hemitted⟩
    · rw [hn, hc]
      exact ⟨rfl, fun _ => rfl⟩
  exact
    { closed := fun k => (hdown.ended.retired k).state
      lost := hdown.lost
      machine := fun k => by
        obtain ⟨m, hm, hsocket⟩ := hspent.sockets k
        rw [hsocket, hm.machine, hi.machine]
      reconnects := fun k => by
        obtain ⟨m, hm, hsocket⟩ := hspent.sockets k
        rw [hsocket, hm.reconnects, hi.reconnects]
      attempts := fun k => by
        rw [attemptCount_append, hspent.attempts, hi.attempts, Nat.add_assoc]
      asked := fun k => by
        rw [attemptCount_append, Nat.add_assoc, hspent.asked, hi.asked]
      unannounced := fun v k b => hnew (hspent.unannounced k b) (hi.unannounced v k b)
      unemitted := by rw [notes_append, emitted_append, hi.unemitted, hquiet.1]; rfl
      finishing := fun n => by
        rw [notes_append, called_append, List.append_assoc, callsOf_append, hquiet.2,
          ← callsOf_append, hi.finishing] }

end Step

/-! ### Runs -/

section Run

variable {w : System κ γ τ ν} {rest : List (Task (Item κ γ))}

end Run

/-- A client whose listeners disconnect when they hear that a channel is open. -/
def leaving : Client Unit Event Unit Unit where
  hear _ e := e
  perform _ _ e _ :=
    match e with
    | .status ⟨_, true⟩ => ⟨(), [], [.disconnect]⟩
    | _ => ⟨(), [], []⟩

/-- The usual configuration for a host with a short name. -/
def plainConfig : Config where
  liveUrl := (plainSettings .live).url
  commandUrl := (plainSettings .command).url
  token := none
  tokenParam := Config.usualTokenParam
  liveBackoff := .usual
  commandBackoff := .usual
  connectTimeout := Config.usualTimeout

/-- The live channel opens, and its listener is called. -/
def opening : List (Turn Unit Event) :=
  [.ask (.watch .live () fun _ => .status ⟨.live, false⟩), .proceed false, .proceed false,
    .proceed false, .ask .connect, .proceed false, .proceed false, .proceed false, .poll .live 0,
    .proceed false, .proceed false, .proceed false, .proceed false, .proceed false]

/-- The disconnection that it asks for. -/
def closing : List (Turn Unit Event) := List.replicate 6 (.proceed false)

abbrev fresh : System Unit Event Unit Unit :=
  ofConfig plainConfig (accepting .live) (accepting .command) ()

abbrev opened : System Unit Event Unit Unit :=
  run leaving opening fresh

end TwinLink.Manager
