import Mathlib.Data.List.Chain
import TwinLink.Proofs.Socket.Status
import TwinLink.Proofs.World.Governance

/-! The changes of status that a socket tells its handler, in the order in which the calls
begin. Main statement: they alternate, beginning with `true`; each `true` is told for the open
session by its driver, and taken back once, by the end of its link or by the first teardown,
whichever comes first. Nothing else is told, however often attempts fail and sessions are torn
down before they have been announced. -/

namespace TwinLink

/-- The values alternate, the first one being `true`. -/
def Alternates (l : List Bool) : Prop := (false :: l).IsChain (· ≠ ·)

/-- The last value, and `false` before there is one. -/
def upshot (l : List Bool) : Bool := l.getLast?.getD false

theorem upshot_append (l : List Bool) (b : Bool) : upshot (l ++ [b]) = b := by
  simp [upshot]

theorem alternates_append {l : List Bool} {b : Bool} :
    Alternates (l ++ [b]) ↔ Alternates l ∧ upshot l ≠ b := by
  rw [Alternates, Alternates, ← List.cons_append, List.isChain_append, List.getLast?_cons]
  simp [upshot]

namespace World

open Socket

variable {σ ι ε : Type} {C : Consumer σ ι ε} {k : ChannelKind} {w : World σ ι ε}

/-- The change of status that an entry of a trace tells the handler of a channel. -/
def Entry.status? (k : ChannelKind) : Entry ε → Option Bool
  | callback k' c => if k' = k then c.status? else none
  | _ => none

theorem statuses_ofMove_self (k : ChannelKind) (m : Move) :
    (Entry.ofMove (ε := ε) k m).filterMap (Entry.status? k) =
      (m.callback.bind Callback.status?).toList := by
  cases hc : m.callback with
  | none => simp [Entry.ofMove, hc, Entry.status?]
  | some c => cases hs : c.status? <;> simp [Entry.ofMove, hc, Entry.status?, hs]

theorem statuses_ofMove_other (k : ChannelKind) (m : Move) :
    (Entry.ofMove (ε := ε) k m).filterMap (Entry.status? k.other) = [] := by
  cases hc : m.callback <;> simp [Entry.ofMove, hc, Entry.status?, k.other_ne.symm]

/-- What a label tells the handler of a channel, and why. -/
inductive Reporting (k : ChannelKind) (w w' : World σ ι ε) (l : Label ι) : List Bool → Prop where
  | quiet (ha : (w'.socket k).announced = (w.socket k).announced)
      (hs : w.session? k l = some false → (w.socket k).announced = false) : Reporting k w w' l []
  | opened {i link} (hr : w.running = some (k, i)) (hp : (w.socket k).phase i = .announcing link)
      (hc : (w.socket k).machine.isCurrent ((w.socket k).generation i) = true)
      (ho : (w.socket k).state = .opened) (ha : (w.socket k).announced = false)
      (ha' : (w'.socket k).announced = true) : Reporting k w w' l [true]
  | lost {i} (hr : w.running = some (k, i)) (hp : (w.socket k).phase i = .ending)
      (hc : (w.socket k).machine.isCurrent ((w.socket k).generation i) = true)
      (ha : (w.socket k).announced = true) (ha' : (w'.socket k).announced = false)
      (hs : w.session? k l ≠ some false) : Reporting k w w' l [false]
  | torn (hs : w.session? k l = some false) (ha : (w.socket k).announced = true)
      (ha' : (w'.socket k).announced = false) : Reporting k w w' l [false]

section Reporting

variable {w' : World σ ι ε} {l : Label ι} {es : List (Entry ε)} {k' : ChannelKind} {m : Move}

/-- What concerns the other channel alone. -/
theorem reporting_other {u : World σ ι ε} (hu : ∀ k, u.socket k = w.socket k)
    (hk : k ≠ k') (hs : w.session? k l ≠ some false) :
    Reporting k w (u.settle C k' m) l
      ((Entry.ofMove (ε := ε) k' m).filterMap (Entry.status? k)) := by
  obtain rfl := eq_other hk
  rw [statuses_ofMove_other]
  refine .quiet ?_ fun h => absurd h hs
  rw [socket_settle_other, hu]

/-- A move that tells the handler nothing of the status. -/
theorem reporting_quiet {u : World σ ι ε} (hu : ∀ k, u.socket k = w.socket k)
    (hs : w.session? k l ≠ some false) (hm : m.callback = none)
    (ha : m.socket.announced = (w.socket k').announced) :
    Reporting k w (u.settle C k' m) l
      ((Entry.ofMove (ε := ε) k' m).filterMap (Entry.status? k)) := by
  by_cases hk : k = k'
  · subst hk
    rw [statuses_ofMove_self, hm]
    refine .quiet ?_ fun h => absurd h hs
    rw [socket_settle_self, ha]
  · exact reporting_other hu hk hs

/-- Why the handler is told of a status, if it is. -/
theorem Acted.reporting (h : Acted C w l w' es) (k : ChannelKind) :
    Reporting k w w' l (es.filterMap (Entry.status? k)) := by
  -- nothing is told and what has been announced stays
  have hsame {l : Label ι} {u : World σ ι ε} (hu : (u.socket k).announced = (w.socket k).announced)
      (hc : ∀ k, w.performed l ≠ some (.connect k)) (hd : ∀ k, w.performed l ≠ some (.teardown k)) :
      Reporting k w u l [] :=
    .quiet hu fun hs => by simp [session?_eq_none hc hd k] at hs
  have hne {l : Label ι} (hc : ∀ k, w.performed l ≠ some (.connect k))
      (hd : ∀ k, w.performed l ≠ some (.teardown k)) : w.session? k l ≠ some false := by
    simp [session?_eq_none hc hd k]
  cases h with
  | @teardown k' rest b hp =>
    by_cases hk : k = k'
    · subst hk
      have hs : w.session? k (.proceed b) = some false := by simp [session?, performed, hp]
      rw [statuses_ofMove_self]
      cases ha : (w.socket k).announced with
      | true =>
        have hcall : ((w.socket k).teardown w.now).callback = some (.status false) := by
          simp [Socket.teardown, ha]
        rw [hcall]
        exact .torn hs ha (by rw [socket_settle_self]; rfl)
      | false =>
        have hcall : ((w.socket k).teardown w.now).callback = none := by simp [Socket.teardown, ha]
        rw [hcall]
        exact .quiet (by rw [socket_settle_self, ha]; rfl) fun _ => ha
    · exact reporting_other (socket_congr rfl rfl) hk
        (by simp [session?, performed, hp, Ne.symm hk])
  | @step k' i b m hp hr hm =>
    have hs : w.session? k (.proceed b) ≠ some false :=
      hne (by simp [performed, hp]) (by simp [performed, hp])
    by_cases hk : k = k'
    · subst hk
      rw [statuses_ofMove_self]
      have hstep := step_stepped hm
      rcases hstep.told with ⟨c, hcall, ha, ha'⟩ | ⟨hnone, ha⟩
      · rw [hcall]
        obtain ⟨hg, ⟨rfl, ho, link, hp⟩ | ⟨rfl, hp⟩⟩ := hstep.telling hcall
        · exact .opened hr hp hg ho ha (by rw [socket_settle_self]; exact ha')
        · exact .lost hr hp hg ha (by rw [socket_settle_self]; exact ha') hs
      · have hcall : (m.callback.bind Callback.status?) = none := by
          cases hc : m.callback with
          | none => rfl
          | some c => cases c with
            | status b => exact absurd hc (hnone b)
            | _ => rfl
        rw [hcall]
        exact .quiet (by rw [socket_settle_self, ha]) fun h => absurd h hs
    · exact reporting_other (fun _ => rfl) hk hs
  | connect b hp =>
    refine reporting_quiet (socket_congr rfl rfl) ?_ (callback_connect _) (announced_connect _)
    simp only [session?, performed, hp, List.head?_cons]
    split <;> simp
  | sent b hp hm =>
    refine reporting_quiet (socket_congr rfl rfl)
      (hne (by simp [performed, hp]) (by simp [performed, hp])) (send_callback hm) ?_
    obtain ⟨link, -, -, -, rfl⟩ := send_eq_ok.mp hm
    rfl
  | discard hp hr hm ha =>
    exact reporting_quiet (socket_congr rfl rfl)
      (hne (by simp [performed, hp]) (by simp [performed, hp])) (callback_discard _ _)
      (announced_discard _ _)
  | cancel hp hr ha =>
    exact reporting_quiet (fun _ => rfl) (hne (by simp [performed]) (by simp [performed]))
      (callback_discard _ _) (announced_discard _ _)
  | reap hp hr hd =>
    exact reporting_quiet (fun _ => rfl) (hne (by simp [performed]) (by simp [performed])) rfl rfl
  | arrive k' link item =>
    refine hsame ?_ (by simp [performed]) (by simp [performed])
    cases k <;> cases k' <;> rfl
  | hangUp k' link =>
    refine hsame ?_ (by simp [performed]) (by simp [performed])
    cases k <;> cases k' <;> rfl
  | work b hp ho =>
    rw [List.filterMap_map, show (Entry.status? k ∘ Entry.note : ε → Option Bool) =
      fun _ => none from rfl, List.filterMap_none]
    exact hsame (by cases k <;> rfl) (by simp [performed, hp]) (by simp [performed, hp])
  | stay hp => exact hsame rfl (by simp [hp]) (by simp [hp])
  | refused b hp hm =>
    exact hsame (by cases k <;> rfl) (by simp [performed, hp]) (by simp [performed, hp])
  | call t hp => exact hsame (by cases k <;> rfl) (by simp [performed]) (by simp [performed])
  | stop hp hr hm =>
    exact hsame (by cases k <;> rfl) (by simp [performed, hp]) (by simp [performed, hp])
  | poll hp hr hf ha =>
    exact hsame (by cases k <;> rfl) (by simp [performed]) (by simp [performed])
  | elapse hp hr => exact hsame (by cases k <;> rfl) (by simp [performed]) (by simp [performed])

end Reporting

/-! ### Runs -/

section Run

variable (C : Consumer σ ι ε) (k : ChannelKind)

/-- What a label tells the handler of a channel of its status. -/
def reported (v : World σ ι ε) (l : Label ι) : List Bool :=
  (news C l v).filterMap (Entry.status? k)

/-- What the handler of a channel has been told of its status. -/
def reportsOf (ms : List (World σ ι ε × Label ι)) : List Bool :=
  ms.flatMap fun (v, l) => reported C k v l

/-- What is told at each moment, and the driver and the link for which `true` has been told and
not been taken back. -/
inductive Chronicle : List (World σ ι ε × Label ι) → Option (Nat × Nat) → Prop where
  | start : Chronicle [] none
  /-- Nothing is told. A channel that has been announced is not torn down then, and stays open. -/
  | quiet {past standing v l} (h : Chronicle past standing) (hr : reported C k v l = [])
      (hs : standing.isSome = true →
        v.session? k l ≠ some false ∧ ((act C v l).socket k).state = .opened) :
      Chronicle (past ++ [(v, l)]) standing
  /-- The driver of the session has opened a link. -/
  | opened {past v l i link} (h : Chronicle past none) (hr : reported C k v l = [true])
      (hd : (v.socket k).driver = some i) (hi : v.running = some (k, i))
      (hp : (v.socket k).phase i = .announcing link)
      (hc : (v.socket k).machine.isCurrent ((v.socket k).generation i) = true)
      (ho : (v.socket k).state = .opened) : Chronicle (past ++ [(v, l)]) (some (i, link))
  /-- It has released that link, and reports that. -/
  | lost {past v l i link} (h : Chronicle past (some (i, link)))
      (hr : reported C k v l = [false]) (hd : (v.socket k).driver = some i)
      (hi : v.running = some (k, i)) (hp : (v.socket k).phase i = .ending)
      (hl : (v.socket k).isHeld link = false) (hs : v.session? k l ≠ some false) :
      Chronicle (past ++ [(v, l)]) none
  /-- The session is torn down. -/
  | torn {past v l i link} (h : Chronicle past (some (i, link)))
      (hr : reported C k v l = [false]) (hd : (v.socket k).driver = some i)
      (hs : v.session? k l = some false) : Chronicle (past ++ [(v, l)]) none

/-- What a handler is told of the status of a channel. Generations are counted modulo
`UInt64.size`, and where a run has as many sessions it is not said which link a status is about. -/
structure Candid (past : List (World σ ι ε × Label ι)) (s : Socket) : Prop where
  alternate : Alternates (reportsOf C k past)
  /-- `true` is told by a driver whose session is the current one and open. -/
  current : ∀ v l, (v, l) ∈ past → true ∈ reported C k v l → ∃ i link,
    v.running = some (k, i) ∧ (v.socket k).phase i = .announcing link ∧
      (v.socket k).machine.isCurrent ((v.socket k).generation i) = true ∧
      (v.socket k).state = .opened
  opened : upshot (reportsOf C k past) = true → s.state = .opened
  chronicle : (sessionsOf k past).length < UInt64.size →
    ∃ standing, Chronicle C k past standing ∧ standing.isSome = upshot (reportsOf C k past)
  /-- The driver of the current session moves frames only once `true` has been told. -/
  serving : (sessionsOf k past).length < UInt64.size → ∀ i, (s.phase i).isServing = true →
    s.machine.isCurrent (s.generation i) = true → upshot (reportsOf C k past) = true

variable {C k}

theorem reportsOf_append_one (past : List (World σ ι ε × Label ι)) (v : World σ ι ε)
    (l : Label ι) : reportsOf C k (past ++ [(v, l)]) = reportsOf C k past ++ reported C k v l := by
  simp [reportsOf]

theorem exists_announcing {l : Label ι} (h : true ∈ reported C k w l) :
    ∃ i link, w.running = some (k, i) ∧ (w.socket k).phase i = .announcing link ∧
      (w.socket k).machine.isCurrent ((w.socket k).generation i) = true ∧
      (w.socket k).state = .opened := by
  have hreport := (act_acted C w l).reporting k
  rw [← reported] at hreport
  generalize reported C k w l = reports at h hreport
  cases hreport with
  | opened hi hp hc ho => exact ⟨_, _, hi, hp, hc, ho⟩
  | _ => simp at h

/-- What has been told is what has been announced. -/
structure Candor (C : Consumer σ ι ε) (k : ChannelKind) (past : List (World σ ι ε × Label ι))
    (s : Socket) : Prop where
  alternate : Alternates (reportsOf C k past)
  upshot : upshot (reportsOf C k past) = s.announced
  truthful : Truthful s

theorem Candor.act {past : List (World σ ι ε × Label ι)} (h : Candor C k past (w.socket k))
    (l : Label ι) : Candor C k (past ++ [(w, l)]) ((act C w l).socket k) := by
  obtain ⟨m, hm⟩ := (act_acted C w l).exists_shifted k
  have htruthful : Truthful ((World.act C w l).socket k) := by
    rw [hm.socket]
    exact h.truthful.shift hm.shift
  have hreport := (act_acted C w l).reporting k
  rw [← reported] at hreport
  -- whatever is told is the opposite of what had been
  have htold {b : Bool} (hr : reported C k w l = [b]) (ha : (w.socket k).announced = !b)
      (ha' : ((World.act C w l).socket k).announced = b) :
      Candor C k (past ++ [(w, l)]) ((World.act C w l).socket k) := by
    refine ⟨?_, ?_, htruthful⟩
    · rw [reportsOf_append_one, hr, alternates_append, h.upshot, ha]
      exact ⟨h.alternate, by simp⟩
    · rw [reportsOf_append_one, hr, upshot_append, ha']
  generalize hr : reported C k w l = reports at hreport
  cases hreport with
  | quiet ha =>
    have hsame : reportsOf C k (past ++ [(w, l)]) = reportsOf C k past := by
      rw [reportsOf_append_one, hr, List.append_nil]
    exact ⟨hsame ▸ h.alternate, by rw [hsame, ha, h.upshot], htruthful⟩
  | opened _ _ _ _ ha ha' => exact htold hr ha ha'
  | lost _ _ _ ha ha' => exact htold hr ha ha'
  | torn _ ha ha' => exact htold hr ha ha'

/-- The driver and the link for which a channel is announced. -/
def Announces (s : Socket) : Option (Nat × Nat) → Prop
  | none => s.announced = false
  | some (i, link) => s.announced = true ∧ s.driver = some i ∧ s.sender = some link

theorem Announces.isSome_eq {s : Socket} {standing : Option (Nat × Nat)}
    (h : Announces s standing) :
    standing.isSome = s.announced := by
  cases standing with
  | none => exact h.symm
  | some who => exact h.1.symm

/-- Every moment of a socket under supervision continues the chronicle. -/
theorem Chronicle.act {past : List (World σ ι ε × Label ι)} {standing : Option (Nat × Nat)}
    (h : Chronicle C k past standing) (hstands : Announces (w.socket k) standing)
    (hv : Supervised (w.socket k)) (ht : Truthful (w.socket k)) (l : Label ι) :
    ∃ standing', Chronicle C k (past ++ [(w, l)]) standing' ∧
      Announces ((act C w l).socket k) standing' := by
  obtain ⟨m, hm⟩ := (act_acted C w l).exists_shifted k
  have hreport := (act_acted C w l).reporting k
  rw [← reported] at hreport
  generalize hr : reported C k w l = reports at hreport
  -- what stands is what has been announced
  have hsome := hstands.isSome_eq
  -- the driver that tells of a status is the one of the session
  have hdriver {i : Nat} (hp : (w.socket k).phase i ≠ .finished)
      (hc : (w.socket k).machine.isCurrent ((w.socket k).generation i) = true) :
      ∃ d, (w.socket k).driver = some i ∧ (w.socket k).drivers[i]? = some d ∧
        Keeps (w.socket k) d := by
    have hi := hv.driver_eq hp hc
    obtain ⟨d, hd, hk⟩ := hv.session i hi
    exact ⟨d, hi, hd, hk⟩
  cases hreport with
  | quiet ha hs =>
    have ha' : m.socket.announced = (w.socket k).announced := by rw [← hm.socket, ha]
    refine ⟨standing, .quiet h hr fun hstanding => ?_, ?_⟩
    · have hann := hsome.symm.trans hstanding
      refine ⟨fun htorn => by simp [hs htorn] at hann, ?_⟩
      rw [hm.socket]
      exact ht.shift hm.shift (ha'.trans hann)
    · cases standing with
      | none => exact ha.trans hstands
      | some who =>
        obtain ⟨hann, hd, hl⟩ := hstands
        obtain ⟨hd', hl'⟩ := hm.shift.standing (ht hann) (ha'.trans hann)
        rw [hm.socket]
        exact ⟨ha'.trans hann, hd'.trans hd, hl'.trans hl⟩
  | @opened i link hi hp hc ho ha ha' =>
    cases standing with
    | some who => simp [ha] at hsome
    | none =>
      obtain ⟨d, hd, hdi, hk⟩ := hdriver (by simp [hp]) hc
      have hl : (w.socket k).sender = some link := by
        have hsender := hk.sender
        rw [← phase_eq hdi, hp] at hsender
        exact hsender (by simp)
      refine ⟨some (i, link), .opened h hr hd hi hp hc ho, ha', ?_⟩
      rw [hm.socket] at ha' ⊢
      obtain ⟨hd', hl'⟩ := hm.shift.standing ho ha'
      exact ⟨hd'.trans hd, hl'.trans hl⟩
  | @lost i hi hp hc ha ha' hs =>
    cases standing with
    | none => simp [ha] at hsome
    | some who =>
      obtain ⟨j, link⟩ := who
      obtain ⟨-, hj, hl⟩ := hstands
      obtain ⟨d, hd, hdi, hk⟩ := hdriver (by simp [hp]) hc
      obtain rfl : j = i := Option.some.inj (hj.symm.trans hd)
      have hended := hk.ended
      rw [← phase_eq hdi] at hended
      exact ⟨none, .lost h hr hd hi hp (hended hp link hl) hs, ha'⟩
  | torn hs ha ha' =>
    cases standing with
    | none => simp [ha] at hsome
    | some who =>
      obtain ⟨j, link⟩ := who
      exact ⟨none, .torn h hr hstands.2.1 hs, ha'⟩

/-- What is told while one driver has the session: each status has its place in the chronicle,
and the driver is not silent once it moves frames. -/
structure Telling (C : Consumer σ ι ε) (k : ChannelKind) (past : List (World σ ι ε × Label ι))
    (s : Socket) : Prop where
  candor : Candor C k past s
  forthright : Forthright s
  chronicle : ∃ standing, Chronicle C k past standing ∧ Announces s standing

theorem Telling.act {past : List (World σ ι ε × Label ι)} (h : Telling C k past (w.socket k))
    (hv : Supervised (w.socket k)) (l : Label ι) :
    Telling C k (past ++ [(w, l)]) ((act C w l).socket k) where
  candor := h.candor.act l
  forthright := by
    obtain ⟨m, hm⟩ := (act_acted C w l).exists_shifted k
    rw [hm.socket]
    exact h.forthright.shift hv hm.shift
  chronicle := by
    obtain ⟨standing, hc, hstands⟩ := h.chronicle
    exact hc.act hstands hv h.candor.truthful l

theorem telling_ofSettings (settings : Settings) (script : List (Reply Answer)) :
    Telling C k [] (Socket.ofSettings settings script) where
  candor := ⟨List.isChain_singleton _, rfl, truthful_ofSettings settings script⟩
  forthright := forthright_ofSettings settings script
  chronicle := ⟨none, .start, rfl⟩

variable (C k) (labels : List (Label ι))

/-- Whatever happens, the handler of a channel is told the truth about its status, and each
change of it once. -/
theorem run_candid (live command : Settings) (answers : ChannelKind → List (Reply Answer))
    (state : σ) :
    Candid C k (moments C labels (ofSettings live command answers state))
      ((run C labels (ofSettings live command answers state)).socket k) := by
  obtain ⟨settings, script, hk⟩ :=
    socket_ofSettings (ι := ι) (ε := ε) k live command answers state
  generalize ofSettings live command answers state = w at hk
  have hnew : Telling C k [] (w.socket k) := hk ▸ telling_ofSettings settings script
  have hcandor : Candor C k (moments C labels w) ((run C labels w).socket k) :=
    moments_invariant C (P := fun past w => Candor C k past (w.socket k)) labels
      (fun past w l _ h => h.act l) [] w hnew.candor
  -- what is said of the sessions holds as long as generations are unique
  have htelling (hb : (sessions C k labels w).length < UInt64.size) :
      Supervised ((run C labels w).socket k) ∧
        Telling C k (moments C labels w) ((run C labels w).socket k) := by
    obtain ⟨hv, -, ht⟩ := supervised_invariant C k labels
      (P := fun past w => Telling C k past (w.socket k)) (fun past w l hv _ h => h.act hv l) w
      (hk ▸ supervised_ofSettings settings script) (hk ▸ custody_ofSettings settings script)
      (by rw [hk]; rfl) hnew hb
    exact ⟨hv, ht⟩
  refine
    { alternate := hcandor.alternate
      current := fun _ _ _ h => exists_announcing h
      opened := fun h => hcandor.truthful (hcandor.upshot.symm.trans h)
      chronicle := fun hb => ?_
      serving := fun hb i hp hc => ?_ }
  · obtain ⟨standing, hc, hstands⟩ := (htelling hb).2.chronicle
    exact ⟨standing, hc, hstands.isSome_eq.trans hcandor.upshot.symm⟩
  · obtain ⟨hv, ht⟩ := htelling hb
    have hne : ((run C labels w).socket k).phase i ≠ .finished := by
      intro h
      simp [h, Phase.isServing] at hp
    exact hcandor.upshot.trans (ht.forthright i (hv.driver_eq hne hc) hp)

/-- The channel opens and is torn down. -/
example : reportsOf Consumer.idle .live (moments Consumer.idle
    [.call (.connect .live), .proceed false, .poll .live 0, .proceed false, .proceed false,
      .proceed false, .proceed false, .call (.teardown .live), .proceed false]
    (ofSettings (plainSettings .live) (plainSettings .command) accepting ())) = [true, false] := by
  decide

end Run

end World

end TwinLink
