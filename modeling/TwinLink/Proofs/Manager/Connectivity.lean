import TwinLink.Proofs.Manager.Run
import TwinLink.Proofs.Socket.Retirement

/-! What the manager holds a channel to be is what the channel has told, but for what it hears
next. -/

namespace TwinLink.Manager

open Socket World

variable {κ γ τ ν : Type} {C : Client κ γ τ ν}

/-- The change of status that is heard next. -/
def told : List (Task (Item κ γ)) → Option (ChannelKind × Bool)
  | .work (.heard k (.status b)) :: _ => some (k, b)
  | _ => none

/-- What channels are held to be once a change of status has been heard. -/
def heeded (change : Option (ChannelKind × Bool)) (connected : ChannelKind → Bool)
    (k : ChannelKind) : Bool :=
  match change with
  | some (k', b) => if k' = k then b else connected k
  | none => connected k

/-- What has been told of a channel is what it is held to be, but for what is heard next. -/
def Synced (w : System κ γ τ ν) : Prop :=
  ∀ k, (w.socket k).announced = heeded (told w.agenda) w.state.hub.isConnected k

section Step

variable {w w' : System κ γ τ ν} {t : Turn κ γ} {done : Option (Task (Item κ γ))}
  {es : List (Entry (Note ν κ))} {tasks rest : List (Task (Item κ γ))}

theorem told_of_not_heard (h : ∀ t ∈ tasks, isHeard t = false) : told tasks = none := by
  cases tasks with
  | nil => rfl
  | cons t tasks =>
    have ht := h t List.mem_cons_self
    cases t with
    | work item => cases item <;> simp_all [told, isHeard]
    | _ => rfl

theorem told_hearing {k : ChannelKind} {c : Option Callback} (hc : ∀ b, .status b ∉ c)
    (h : ∀ t ∈ tasks, isHeard t = false) : told (hearing (consumer C) k c ++ tasks) = none := by
  cases c with
  | none => exact told_of_not_heard h
  | some c =>
    cases c with
    | status b => exact absurd rfl (hc b)
    | message text => rfl
    | undecodable e => rfl

/-- An item changes what channels are held to be only where that is heard. -/
theorem Performed.isConnected {v : View} {s : State κ τ} {item : Item κ γ}
    {o : Outcome (State κ τ) (Item κ γ) (Note ν κ)} (hp : Performed C v s item o)
    (k : ChannelKind) :
    o.state.hub.isConnected k = heeded (told (.work item :: rest)) s.hub.isConnected k := by
  cases hp with
  | @changed k' b => cases k' <;> cases k <;> rfl
  | @known k' b hb =>
    simp only [onHub, told, heeded]
    split
    next hk => rw [← hk, hb]
    next => rfl
  | @ignored c hc =>
    cases c with
    | status b => exact absurd rfl (hc b)
    | _ => rfl
  | @failed c e preview hm =>
    cases c with
    | status b => cases hm
    | _ => cases k <;> rfl
  | @watched k' => cases k' <;> cases k <;> rfl
  | _ => cases k <;> rfl

theorem Driven.told {k : ChannelKind} {m : Move} (h : Driven w k m) :
    (∃ b, m.callback = some (.status b) ∧ m.socket.announced = b) ∨
      (∀ b, .status b ∉ m.callback) ∧ m.socket.announced = (w.socket k).announced := by
  cases h with
  | step hr hs =>
    rcases hs.told with ⟨b, hcall, -, hb⟩ | hnone
    · exact .inl ⟨b, hcall, hb⟩
    · exact .inr hnone
  | reap => exact .inr ⟨by simp [Socket.reap], rfl⟩
  | discard =>
    right
    unfold Socket.discard
    split <;> simp [Move.silent, setPhase, modifyDriver, modifyLink]

/-- A socket tells of a change. -/
theorem synced_settle {u : System κ γ τ ν} {k : ChannelKind} {m : Move}
    (hs : ∀ k', (u.socket k').announced = u.state.hub.isConnected k')
    (hm : (∃ b, m.callback = some (.status b) ∧ m.socket.announced = b) ∨
      (∀ b, .status b ∉ m.callback) ∧ m.socket.announced = (u.socket k).announced)
    (hu : ∀ t ∈ u.agenda, isHeard t = false) : Synced (u.settle (consumer C) k m) := by
  intro k'
  rw [socket_settle, agenda_settle, state_settle]
  rcases hm with ⟨b, hcall, hb⟩ | ⟨hnone, hb⟩
  · rw [hcall, show Manager.told (hearing (consumer C) k (some (.status b)) ++ u.agenda) =
      some (k, b) from rfl, heeded]
    by_cases hk : k' = k
    · rw [if_pos hk, if_pos hk.symm, hb]
    · rw [if_neg hk, if_neg (Ne.symm hk), hs]
  · rw [told_hearing hnone hu, heeded, ← hs]
    split
    next hk => rw [hb, hk]
    next => rfl

theorem Took.synced (h : Synced w) (hs : Shaped w.agenda) (ht : Took C w w' t done es) :
    Synced w' := by
  -- where nothing is heard next, channels are held to be what they have told
  have hsame (hn : told w.agenda = none) (k : ChannelKind) :
      (w.socket k).announced = w.state.hub.isConnected k := by
    rw [h k, hn]
    rfl
  have hsockets {u : System κ γ τ ν} (hl : u.live = w.live) (hc : u.command = w.command)
      (hu : u.state = w.state) (hn : told w.agenda = none) (k : ChannelKind) :
      (u.socket k).announced = u.state.hub.isConnected k := by
    rw [socket_congr hl hc k, hu]
    exact hsame hn k
  cases ht with
  | outside hstate ha hk =>
    intro k
    obtain ⟨-, links, hsocket⟩ := hk k
    rw [hstate, ha, ← h k, hsocket]
  | ask r ha hw =>
    intro k
    have hsocket : w'.socket k = w.socket k := by rw [hw]; exact socket_congr rfl rfl k
    rw [hsocket, hsame (by rw [ha]; rfl), hw]
    rfl
  | @work _ item rest o ha hp hw =>
    rw [ha] at hs
    have hnone : told (o.next ++ rest) = none :=
      told_of_not_heard (List.forall_mem_append.mpr ⟨hp.not_heard, hs.tail_not_heard⟩)
    intro k
    have hsocket : w'.socket k = w.socket k := by rw [hw]; exact socket_congr rfl rfl k
    have hk := h k
    rw [ha, ← hp.isConnected k] at hk
    rw [hsocket, hk, hw, hnone]
    rfl
  | @connect _ k rest ha hw =>
    rw [ha] at hs
    rw [hw]
    refine synced_settle (hsockets rfl rfl rfl (by rw [ha]; rfl)) (.inr ?_) hs.tail_not_heard
    · have hu : ({ w with agenda := rest } : System κ γ τ ν).socket k = w.socket k :=
        socket_congr rfl rfl k
      rw [callback_connect, hu]
      exact ⟨by simp, announced_connect _⟩
  | @teardown _ k rest ha hw =>
    rw [ha] at hs
    rw [hw]
    refine synced_settle (hsockets rfl rfl rfl (by rw [ha]; rfl)) ?_ hs.tail_not_heard
    · have hcall : ((w.socket k).teardown w.now).callback =
          if (w.socket k).announced then some (.status false) else none := rfl
      have hu : ({ w with agenda := rest } : System κ γ τ ν).socket k = w.socket k :=
        socket_congr rfl rfl k
      rw [hcall, hu]
      cases hann : (w.socket k).announced with
      | true => exact .inl ⟨false, rfl, rfl⟩
      | false => exact .inr ⟨by simp, rfl⟩
  | @sent _ c text rest m ha he hm hw =>
    rw [ha] at hs
    obtain ⟨link, -, -, -, rfl⟩ := send_eq_ok.mp hm
    rw [hw]
    exact synced_settle (hsockets rfl rfl rfl (by rw [ha]; rfl)) (.inr ⟨by simp, rfl⟩)
      (List.forall_mem_cons.mpr ⟨rfl, hs.tail_not_heard⟩)
  | @refused _ c text rest e ha he hm hw =>
    intro k
    have hsocket : w'.socket k = w.socket k := by rw [hw]; exact socket_congr rfl rfl k
    rw [hsocket, hsame (by rw [ha]; rfl), hw]
    rfl
  | @drive _ u k m ha hd hu hw =>
    have hu' : u.agenda = [] ∧ u.state = w.state ∧ ∀ k, u.socket k = w.socket k := by
      rcases hu with rfl | rfl
      · exact ⟨ha, rfl, fun _ => rfl⟩
      · exact ⟨ha, rfl, socket_congr rfl rfl⟩
    rw [hw]
    refine synced_settle (fun k' => ?_) ?_ (by simp [hu'.1])
    · rw [hu'.2.2, hu'.2.1, hsame (by rw [ha]; rfl)]
    · rw [hu'.2.2]
      exact hd.told

end Step

/-! ### Runs -/

/-- What holds at all times. -/
structure Steady (w : System κ γ τ ν) : Prop where
  shaped : Shaped w.agenda
  synced : Synced w

theorem steady_ofConfig (c : Config) (live command : List (Reply Answer)) (client : τ) :
    Steady (ofConfig c live command client : System κ γ τ ν) where
  shaped := shaped_ofConfig c live command client
  synced k := by
    obtain ⟨settings, script, hk⟩ :=
      socket_ofConfig (κ := κ) (γ := γ) (ν := ν) c live command client k
    rw [agenda_ofConfig, state_ofConfig, hk]
    cases k <;> rfl

end TwinLink.Manager
