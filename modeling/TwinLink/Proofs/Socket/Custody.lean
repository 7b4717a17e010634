import TwinLink.Proofs.Socket.Queue
import TwinLink.Proofs.Socket.Supervision

/-! Which driver has which link. Halves that are held are in the hands of exactly one driver,
so they are released when it ends, and a driver whose session is over has been asked to close
the link that it still moves frames on. Main statement: every shift keeps this. -/

namespace TwinLink.Socket

/-- The link that a driver moves frames on. -/
def Phase.open? : Phase → Option Nat
  | announcing link | pumping link | writing link .. => some link
  | _ => none

structure Custody (s : Socket) : Prop where
  owner : ∀ i link, (s.phase i).link? = some link → s.isHeld link = true
  held : ∀ link, s.isHeld link = true → ∃ i, (s.phase i).link? = some link
  unique : ∀ i j link, (s.phase i).link? = some link → (s.phase j).link? = some link → i = j
  asked : ∀ i link, s.driver ≠ some i → (s.phase i).open? = some link →
    .close ∈ s.requests link

theorem custody_ofSettings (settings : Settings) (script : List (Reply Answer)) :
    Custody (ofSettings settings script) where
  owner i link h := by simp [ofSettings, phase, Phase.link?] at h
  held link h := by simp [ofSettings, isHeld] at h
  unique i j link h := by simp [ofSettings, phase, Phase.link?] at h
  asked i link _ h := by simp [ofSettings, phase, Phase.open?] at h

theorem Phase.link?_of_open? {p : Phase} {link : Nat} (h : p.open? = some link) :
    p.link? = some link := by
  cases p <;> simp_all [Phase.open?, Phase.link?]

theorem lt_of_isHeld {s : Socket} {link : Nat} (h : s.isHeld link = true) :
    link < s.links.length := by
  rcases Nat.lt_or_ge link s.links.length with hlt | hge
  · exact hlt
  · simp [isHeld, List.getElem?_eq_none hge] at h

theorem isHeld_modifyLink (s : Socket) (i : Nat) {f : Link → Link}
    (hf : ∀ l, (f l).held = l.held) (link : Nat) :
    (s.modifyLink i f).isHeld link = s.isHeld link := by
  simp only [isHeld, modifyLink, List.getElem?_modify, Option.map_eq_map, Option.map_map]
  congr 2
  funext l
  simp only [Function.comp]
  split
  · exact hf l
  · rfl

theorem isHeld_modifyLink_release (s : Socket) (i link : Nat) :
    (s.modifyLink i Link.release).isHeld link = (s.isHeld link && decide (link ≠ i)) := by
  by_cases hi : i = link
  · subst hi
    simpa using isHeld_release s i
  · have hne : link ≠ i := fun h => hi h.symm
    simp [isHeld, modifyLink, hi, hne]

theorem isHeld_append (s : Socket) (l : Link) (t : Socket) (ht : t.links = s.links ++ [l])
    (link : Nat) :
    t.isHeld link = (s.isHeld link || (l.held && decide (link = s.links.length))) := by
  simp only [isHeld, ht, List.getElem?_append]
  split
  next hlt => simp [Nat.ne_of_lt hlt]
  next hge =>
    rw [List.getElem?_eq_none (Nat.le_of_not_lt hge)]
    by_cases he : link = s.links.length
    · simp [he]
    · have : link - s.links.length ≠ 0 := by omega
      cases hk : link - s.links.length <;> simp_all

/-- How the hold of a driver on links changes: not at all, or it gets a new link, or it
releases the one that it has. -/
inductive Grip (s t : Socket) (i : Nat) : Prop where
  | same (hp : (t.phase i).link? = (s.phase i).link?) (hh : ∀ link, t.isHeld link = s.isHeld link)
  | take (hn : (s.phase i).link? = none) (hp : (t.phase i).link? = some s.links.length)
      (hh : ∀ link, t.isHeld link = (s.isHeld link || decide (link = s.links.length)))
  | drop {l : Nat} (hl : (s.phase i).link? = some l) (hp : (t.phase i).link? = none)
      (hh : ∀ link, t.isHeld link = (s.isHeld link && decide (link ≠ l)))

section Step

variable {now i : Nat} {s t : Socket} {m : Move}

theorem Stepped.phase_other (hs : Stepped now i s m) {j : Nat} (hj : i ≠ j) :
    m.socket.phase j = s.phase j := by
  rw [phase, phase, hs.getElem?_other hj]

theorem Stepped.grip (hs : Stepped now i s m) : Grip s m.socket i := by
  obtain ⟨d, hd⟩ := hs.exists_driver
  cases hs
  case opened hp plan machine hm =>
    refine .take (by rw [hp]; rfl) ?_ fun link => ?_
    · simp [phase, setPhase, modifyDriver, hd, Phase.link?]
    · refine (isHeld_append s (.ofPlan plan) _ rfl link).trans ?_
      simp [Link.ofPlan]
  case superseded hp plan hm =>
    refine .same ?_ fun link => ?_
    · rw [hp]
      simp [phase, setPhase, modifyDriver, hd, Phase.link?]
    · refine (isHeld_append s (Link.ofPlan plan).release _ rfl link).trans ?_
      simp [Link.release]
  case release link answer deadline hp =>
    refine .drop (by rw [hp]; rfl) ?_ fun link' => isHeld_modifyLink_release s link link'
    simp [Socket.release, phase, setPhase, modifyLink, modifyDriver, hd, Phase.link?]
  case read link l f rest c hp _ _ _ =>
    exact .same rfl (isHeld_modifyLink s link fun _ => rfl)
  case readLast link l item rest seen hp _ _ _ _ =>
    refine .same ?_ (isHeld_modifyLink s link fun _ => rfl)
    rw [hp]
    simp [phase, leave, setPhase, modifyLink, modifyDriver, hd, Phase.link?]
  case dismissed link l rest hp _ _ =>
    refine .same ?_ (isHeld_modifyLink s link fun _ => rfl)
    rw [hp]
    simp [phase, leave, setPhase, modifyLink, modifyDriver, hd, Phase.link?]
  case write link l text rest hp _ _ =>
    let u := s.modifyLink link fun l => { l with requests := rest }
    have hu (k : Nat) :
        (u.modifyLink link fun l => { l with writes := l.writes + 1 }).isHeld k = u.isHeld k :=
      isHeld_modifyLink u link (fun _ => by rfl) k
    refine .same ?_ fun k => (hu k).trans (isHeld_modifyLink s link (fun _ => by rfl) k)
    rw [hp]
    simp [phase, setPhase, modifyLink, modifyDriver, hd, Phase.link?]
  all_goals
    refine .same ?_ fun _ => rfl
    simp_all [phase, Socket.attempt, Socket.rest, leave, setPhase, modifyDriver, Move.silent,
      Phase.link?]

/-- What a happening in a step of the driver `i` tells of that step. -/
def Happening.Tells (s : Socket) (i : Nat) (m : Move) : Happening → Prop
  | attempt _ => s.phase i = .queued
  | opened link => m.socket.sender = some link
  | write link .. => (s.phase i).open? = some link ∧ ∃ e, m.seen = [e]
  | close link => (s.phase i).open? = some link ∧ (m.socket.phase i).open? = none
  | released link => m.socket.isHeld link = false ∧
      ((s.phase i).link? = some link ∨ link + 1 = m.socket.links.length)
  | _ => True

theorem open?_leave (s : Socket) (now i link : Nat) (seen : List Happening) :
    ((s.leave now i link seen).socket.phase i).open? = none := by
  cases hd : s.drivers[i]? <;> simp [leave, phase, setPhase, modifyDriver, hd, Phase.open?]

theorem Logs.tells {seen : List Happening} (h : Logs seen) {e : Happening} (he : e ∈ seen) :
    e.Tells s i m := by
  obtain ⟨record, rfl⟩ := h e he
  trivial

/-- The link that is left is the one that the driver moves frames on. -/
theorem tells_leave {link : Nat} {seen : List Happening} (hp : (s.phase i).open? = some link)
    (hs : ∀ e ∈ seen, e.Tells s i (t.leave now i link seen)) :
    ∀ e ∈ (t.leave now i link seen).seen, e.Tells s i (t.leave now i link seen) := by
  intro e he
  rcases List.mem_append.mp he with he | he
  · exact hs e he
  · obtain rfl := List.mem_singleton.mp he
    exact ⟨hp, open?_leave t now i link seen⟩

/-- Links come into use, are left and are released where their driver stands at that. -/
theorem Stepped.tells (hs : Stepped now i s m) : ∀ e ∈ m.seen, e.Tells s i m := by
  cases hs
  case readLast hp _ _ _ hlogs =>
    refine tells_leave (by rw [hp]; rfl) fun e he => ?_
    rcases List.mem_cons.mp he with rfl | he
    · trivial
    · exact hlogs.tells he
  case exhausted hp _ _ => exact tells_leave (by rw [hp]; rfl) (by simp)
  case dismissed hp _ _ =>
    refine tells_leave (by rw [hp]; rfl) fun e he => ?_
    obtain rfl := List.mem_singleton.mp he
    trivial
  case unwritten hp hlogs => exact tells_leave (by rw [hp]; rfl) fun e he => hlogs.tells he
  all_goals intro e he
  case attempt hp =>
    obtain rfl := List.mem_singleton.mp he
    exact hp
  case opened =>
    obtain rfl := List.mem_singleton.mp he
    rfl
  case superseded =>
    obtain rfl := List.mem_singleton.mp he
    exact ⟨by simp [isHeld, setPhase, modifyDriver, Link.release],
      .inr (by simp [setPhase, modifyDriver])⟩
  case write hp _ _ =>
    obtain rfl := List.mem_singleton.mp he
    exact ⟨by rw [hp]; rfl, _, rfl⟩
  case release hp =>
    obtain rfl := List.mem_singleton.mp he
    exact ⟨isHeld_release s _, .inl (by rw [hp]; rfl)⟩
  case closed hlogs =>
    rcases List.mem_cons.mp he with rfl | he
    · trivial
    · exact hlogs.tells he
  case unanswered | announced | read | rest =>
    obtain rfl := List.mem_singleton.mp he
    trivial
  all_goals cases he

theorem Custody.frame (h : Custody s) (hp : ∀ j, (t.phase j).link? = (s.phase j).link?)
    (hh : ∀ link, t.isHeld link = s.isHeld link)
    (ha : ∀ j link, t.driver ≠ some j → (t.phase j).open? = some link →
      .close ∈ t.requests link) : Custody t where
  owner j link hl := by rw [hh]; exact h.owner j link (hp j ▸ hl)
  held link hl := by
    obtain ⟨j, hj⟩ := h.held link (hh link ▸ hl)
    exact ⟨j, (hp j).trans hj⟩
  unique j k link hj hk := h.unique j k link (hp j ▸ hj) (hp k ▸ hk)
  asked := ha

/-- A driver that gets a link or releases one leaves every other in the hands of its driver. -/
theorem Custody.grip (h : Custody s) (hg : Grip s t i) (hj : ∀ j, i ≠ j → t.phase j = s.phase j)
    (ha : ∀ j link, t.driver ≠ some j → (t.phase j).open? = some link →
      .close ∈ t.requests link) : Custody t := by
  -- who had a link keeps it, unless it is the one that is dropped
  have hkeep (j : Nat) (hij : i ≠ j) : (t.phase j).link? = (s.phase j).link? := by rw [hj j hij]
  cases hg with
  | same hp hh =>
    refine h.frame (fun j => ?_) hh ha
    by_cases hij : i = j
    · rw [← hij, hp]
    · exact hkeep j hij
  | take hn hp hh =>
    have hlt (j link : Nat) (hl : (s.phase j).link? = some link) : link < s.links.length :=
      lt_of_isHeld (h.owner j link hl)
    refine { owner := ?_, held := ?_, unique := ?_, asked := ha }
    · intro j link hl
      rw [hh]
      by_cases hij : i = j
      · subst hij
        obtain rfl := Option.some.inj (hp.symm.trans hl)
        simp
      · simp [h.owner j link (hkeep j hij ▸ hl)]
    · intro link hl
      rw [hh] at hl
      by_cases hlink : link = s.links.length
      · exact ⟨i, hlink ▸ hp⟩
      · obtain ⟨j, hl⟩ := h.held link (by simpa [hlink] using hl)
        have hij : i ≠ j := fun hij => by simp [hij ▸ hl] at hn
        exact ⟨j, (hkeep j hij).trans hl⟩
    · intro j k link hl hk
      by_cases hij : i = j <;> by_cases hik : i = k
      · exact hij.symm.trans hik
      · have := hlt k link (hkeep k hik ▸ hk)
        have := Option.some.inj (hp.symm.trans (hij ▸ hl))
        omega
      · have := hlt j link (hkeep j hij ▸ hl)
        have := Option.some.inj (hp.symm.trans (hik ▸ hk))
        omega
      · exact h.unique j k link (hkeep j hij ▸ hl) (hkeep k hik ▸ hk)
  | @drop l hl hp hh =>
    have hne (j link : Nat) (hj : (t.phase j).link? = some link) : i ≠ j := fun hij => by
      simp [← hij, hp] at hj
    refine { owner := ?_, held := ?_, unique := ?_, asked := ha }
    · intro j link hj
      have hij := hne j link hj
      have hjs := hkeep j hij ▸ hj
      have : link ≠ l := fun hlink => hij (h.unique i j l hl (hlink ▸ hjs))
      simp [hh, h.owner j link hjs, this]
    · intro link hlink
      rw [hh, Bool.and_eq_true, decide_eq_true_eq] at hlink
      obtain ⟨j, hjl⟩ := h.held link hlink.1
      have hij : i ≠ j := fun hij => hlink.2 (Option.some.inj (hjl.symm.trans (hij ▸ hl)))
      exact ⟨j, (hkeep j hij).trans hjl⟩
    · intro j k link hj hk
      exact h.unique j k link (hkeep j (hne j link hj) ▸ hj) (hkeep k (hne k link hk) ▸ hk)

/-- The queue of a link changes only at the hands of its driver. -/
theorem Stepped.requests_other (hs : Stepped now i s m) {link : Nat}
    (hl : (s.phase i).link? ≠ some link) : m.socket.requests link = s.requests link := by
  cases hs
  case opened => exact requests_append s rfl _ rfl link
  case superseded => exact requests_append s rfl _ rfl link
  case read => exact requests_modifyLink_of s _ (fun _ => by rfl) link
  case readLast => exact requests_modifyLink_of s _ (fun _ => by rfl) link
  case release => exact requests_modifyLink_of s _ (fun _ => by rfl) link
  case dismissed l l' rest hp _ _ =>
    have hne : l ≠ link := fun hne => hl (by rw [hp, ← hne]; rfl)
    exact requests_modifyLink_other _ hne
  case write l l' text rest hp _ _ =>
    have hne : l ≠ link := fun hne => hl (by rw [hp, ← hne]; rfl)
    let u := s.modifyLink l fun l => { l with requests := rest }
    have hu : (u.modifyLink l fun l => { l with writes := l.writes + 1 }).requests link =
        u.requests link := requests_modifyLink_other _ hne
    exact hu.trans (requests_modifyLink_other _ hne)
  all_goals rfl

/-- A driver that moves frames for an ended session does so on the link that it has been
asked to close, until it does. -/
theorem Stepped.asked (hs : Stepped now i s m)
    (hc : s.machine.isCurrent (s.generation i) = false) {link : Nat}
    (hp : (m.socket.phase i).open? = some link) :
    (s.phase i).open? = some link ∧
      (.close ∈ s.requests link → .close ∈ m.socket.requests link) := by
  obtain ⟨d, hd⟩ := hs.exists_driver
  cases hs
  case opened hm => simp [(Machine.onOpen_eq_some.mp hm).1] at hc
  case read l _ f rest c h _ _ _ =>
    refine ⟨hp, fun hr => ?_⟩
    rwa [requests_modifyLink_of s l (fun _ => by rfl) link]
  case write l l' text rest h hl hr =>
    obtain rfl : l = link := by
      simpa [phase, setPhase, modifyLink, modifyDriver, hd, Phase.open?] using hp
    refine ⟨by rw [h]; rfl, fun hcl => ?_⟩
    let u := s.modifyLink l fun l => { l with requests := rest }
    have hu : (u.modifyLink l fun l => { l with writes := l.writes + 1 }).requests l =
        u.requests l := requests_modifyLink_of u l (fun _ => by rfl) l
    have hq : u.requests l = rest := requests_modifyLink_self _ hl
    rw [requests_eq hl, hr] at hcl
    have hrest : Request.close ∈ rest := by simpa using hcl
    show Request.close ∈ requests _ l
    exact (hu.trans hq).symm ▸ hrest
  case announced h hg _ _ => simp [hg] at hc
  case unannounced l h _ =>
    obtain rfl : l = link := by
      simpa [phase, setPhase, modifyDriver, hd, Phase.open?, Move.silent] using hp
    exact ⟨by rw [h]; rfl, fun hr => hr⟩
  case written l _ _ h =>
    obtain rfl : l = link := by
      simpa [phase, setPhase, modifyDriver, hd, Phase.open?, Move.silent] using hp
    exact ⟨by rw [h]; rfl, fun hr => hr⟩
  all_goals
    simp [phase, Socket.attempt, Socket.rest, Socket.release, leave, setPhase, modifyLink,
      modifyDriver, hd, Phase.open?, Move.silent] at hp

theorem Custody.step (h : Custody s) (hv : Supervised s) (hs : Stepped now i s m) :
    Custody m.socket := by
  refine h.grip hs.grip (fun j => hs.phase_other) fun j link hj hl => ?_
  rw [hs.slots.1] at hj
  by_cases hij : i = j
  · subst hij
    obtain ⟨d, hd⟩ := hs.exists_driver
    obtain ⟨hopen, hmem⟩ := hs.asked ((hv.former i d hd hj).not_isCurrent hd) hl
    exact hmem (h.asked i link hj hopen)
  · rw [hs.phase_other hij] at hl
    have hother : (s.phase i).link? ≠ some link := fun hi =>
      hij (h.unique i j link hi (Phase.link?_of_open? hl))
    rw [hs.requests_other hother]
    exact h.asked j link hj hl

end Step

section Operation

variable {s : Socket}

theorem phase_modifyDriver (s : Socket) (i : Nat) {f : Driver → Driver}
    (hf : ∀ d, (f d).phase = d.phase) (j : Nat) : (s.modifyDriver i f).phase j = s.phase j := by
  simp only [phase, modifyDriver, List.getElem?_modify, Option.map_eq_map, Option.map_map]
  congr 2
  funext d
  simp only [Function.comp]
  split
  · exact hf d
  · rfl

theorem phase_endDrivers (s : Socket) (j : Nat) : s.endDrivers.phase j = s.phase j := by
  simp only [phase, getElem?_endDrivers, Option.map_map]
  congr 2
  funext d
  simp only [Function.comp]
  split <;> rfl

/-- Opening a channel adds a driver that has not begun. -/
theorem phase_connect (hs : s.state = .closed) (j : Nat) :
    s.connect.socket.phase j = s.phase j ∨
      s.connect.socket.phase j = .queued ∧ s.phase j = .finished := by
  rw [connect_of_closed hs, ← phase_endDrivers s j]
  simp only [phase, Move.silent]
  rcases Nat.lt_or_ge j s.endDrivers.drivers.length with hlt | hge
  · rw [List.getElem?_append_left hlt]
    exact .inl rfl
  · rw [List.getElem?_append_right hge, List.getElem?_eq_none hge]
    cases j - s.endDrivers.drivers.length <;> simp

theorem phase_teardown (now : Nat) (s : Socket) (j : Nat) :
    (s.teardown now).socket.phase j = s.phase j := by
  simp only [phase, getElem?_teardown, Option.map_map]
  congr 2
  funext d
  simp only [Function.comp]
  split
  · split <;> rfl
  · rfl

theorem isHeld_teardown (now : Nat) (s : Socket) (link : Nat) :
    (s.teardown now).socket.isHeld link = s.isHeld link := by
  rw [isHeld, links_teardown]
  split
  next asked _ => exact isHeld_modifyLink s asked (fun _ => by rfl) link
  next => rfl

theorem Custody.connect (h : Custody s) (hv : Supervised s) (hs : s.state = .closed) :
    Custody s.connect.socket := by
  have hl : s.connect.socket.links = s.links := by rw [connect_of_closed hs]; rfl
  refine h.frame (fun j => ?_) (fun link => by rw [isHeld, hl, isHeld]) fun j link _ hp => ?_
  · rcases phase_connect hs j with hj | ⟨hj, hf⟩
    · rw [hj]
    · rw [hj, hf]; rfl
  · rcases phase_connect hs j with hj | ⟨hj, -⟩
    · rw [hj] at hp
      rw [requests, hl]
      refine h.asked j link (fun hdriver => ?_) hp
      -- the driver of the session of a closed channel only waits
      obtain ⟨d, hd, hk⟩ := hv.session j hdriver
      have hstands := hk.stands
      rw [phase_eq hd] at hp
      rw [hs] at hstands
      cases hph : d.phase <;> simp_all [Phase.Stands, Phase.open?]
    · simp [hj, Phase.open?] at hp

theorem Custody.teardown (h : Custody s) (hv : Supervised s) (now : Nat) :
    Custody (s.teardown now).socket := by
  refine h.frame (fun j => by rw [phase_teardown]) (isHeld_teardown now s) fun j link _ hl => ?_
  rw [phase_teardown] at hl
  rw [requests_teardown, List.mem_append]
  by_cases hj : s.driver = some j
  · -- the driver of the session has the link that is asked to close
    obtain ⟨d, hd, hk⟩ := hv.session j hj
    have hl' := Phase.link?_of_open? hl
    have hsender : s.sender = some link := by
      rw [phase_eq hd] at hl hl'
      have hne : d.phase ≠ .ending := fun hne => by simp [hne, Phase.open?] at hl
      rw [hk.sender hne, hl']
    have hfilter : s.sender.filter s.isHeld = some link :=
      Option.filter_eq_some_iff.mpr ⟨hsender, h.owner j link hl'⟩
    right
    simp [hfilter]
  · exact .inl (h.asked j link hj hl)

theorem phase_discard (s : Socket) (i j : Nat) :
    (s.discard i).socket.phase j = if i = j then .finished else s.phase j := by
  have hphase (t : Socket) (ht : t.drivers = s.drivers) :
      (t.setPhase i .finished).phase j = if i = j then .finished else s.phase j := by
    by_cases hij : i = j
    · subst hij
      cases hd : s.drivers[i]? <;> simp [phase, setPhase, Socket.modifyDriver, ht, hd]
    · simp [phase, setPhase, Socket.modifyDriver, ht, hij]
  unfold Socket.discard
  split
  next => exact hphase _ rfl
  next => exact hphase _ rfl

theorem requests_discard (s : Socket) (i link : Nat) :
    (s.discard i).socket.requests link = s.requests link := by
  unfold Socket.discard
  split
  next l _ => exact requests_modifyLink_of s l (fun _ => by rfl) link
  next => rfl

theorem driver_discard (s : Socket) (i : Nat) : (s.discard i).socket.driver = s.driver := by
  unfold Socket.discard
  split <;> rfl

theorem grip_discard (s : Socket) (i : Nat) : Grip s (s.discard i).socket i := by
  have hp : ((s.discard i).socket.phase i).link? = none := by rw [phase_discard, if_pos rfl]; rfl
  cases hl : (s.phase i).link? with
  | none => exact .same (hp.trans hl.symm) fun link => by simp only [Socket.discard, hl]; rfl
  | some l =>
    refine .drop hl hp fun link => ?_
    simp only [Socket.discard, hl]
    exact isHeld_modifyLink_release s l link

theorem Custody.discard (h : Custody s) (i : Nat) : Custody (s.discard i).socket := by
  refine h.grip (grip_discard s i) (fun j hij => ?_) fun j link hj hp => ?_
  · rw [phase_discard, if_neg hij]
  · rw [driver_discard] at hj
    rw [phase_discard] at hp
    rw [requests_discard]
    split at hp
    next => simp [Phase.open?] at hp
    next => exact h.asked j link hj hp

/-- What peers and the client do to links leaves them in the hands that they are in. -/
theorem Custody.modifyLink (h : Custody s) (i : Nat) {f : Link → Link}
    (hf : ∀ l, (f l).held = l.held) (hr : ∀ l, .close ∈ l.requests → .close ∈ (f l).requests) :
    Custody (s.modifyLink i f) := by
  refine h.frame (fun _ => rfl) (isHeld_modifyLink s i hf) fun j link hj hp => ?_
  have hmem := h.asked j link hj hp
  rw [requests_modifyLink]
  cases hl : s.links[link]? with
  | none => simp [requests, hl] at hmem
  | some l =>
    simp only [requests, hl, Option.map_some, Option.getD_some] at hmem ⊢
    split
    · exact hr l hmem
    · exact hmem

/-- What can happen to a socket leaves every link that is held in the hands of one driver. -/
theorem Custody.shift {b : Option Bool} {m : Move} (h : Custody s) (hv : Supervised s)
    (hs : Shift s b m) : Custody m.socket := by
  cases hs with
  | stay => exact h
  | connect hc => exact h.connect hv hc
  | teardown now => exact h.teardown hv now
  | send => exact h.modifyLink _ (fun _ => by rfl) fun l hl => List.mem_append_left _ hl
  | step hm => exact h.step hv hm
  | @discard i ha => exact h.discard i
  | @reap now i hr =>
    rw [reap_socket]
    exact h.frame (fun j => by rw [phase_modifyDriver s i fun _ => by rfl]) (fun _ => rfl)
      fun j link hj hp => h.asked j link hj (by rwa [phase_modifyDriver s i fun _ => by rfl] at hp)
  | arrive link item =>
    refine h.modifyLink link (fun l => ?_) fun l hl => ?_
    · unfold Link.arrive; split <;> rfl
    · unfold Link.arrive; split <;> exact hl
  | hangUp link => exact h.modifyLink link (fun _ => by rfl) fun _ hl => hl

end Operation

end TwinLink.Socket
