import TwinLink.Proofs.Socket.Shift

/-! Links as their peers leave them. What a peer does to a link does not concern what the
program asks of the socket: both orders come to the same. And frames that only carry content
matter to nothing but the reading of them: a socket on which those are left out makes the same
moves otherwise. -/

namespace TwinLink

/-- What comes in is handed over and does not end the link. -/
def Inbound.isContent : Inbound → Bool
  | .frame (.text _) | .frame (.binary _) => true
  | _ => false

theorem Inbound.isContent_frame (f : Frame) : (frame f).isContent = f.callback?.isSome := by
  cases f with
  | text | close => rfl
  | binary bytes =>
    simp only [isContent, Frame.callback?]
    split <;> rfl

/-- The link without the content that waits to be read. -/
def Link.muted (l : Link) : Link := { l with inbound := l.inbound.filter (!·.isContent) }

namespace Socket

/-- Something is done to each link. -/
def relink (g : Nat → Link → Link) (s : Socket) : Socket := { s with links := s.links.mapIdx g }

def Move.relink (g : Nat → Link → Link) (m : Move) : Move :=
  { m with socket := m.socket.relink g }

/-- The socket without the content that waits to be read. -/
def muted (s : Socket) : Socket := s.relink fun _ => Link.muted

def Move.muted (m : Move) : Move := m.relink fun _ => Link.muted

/-- Content is read. -/
def Happening.isHearing : Happening → Bool
  | .read _ item => item.isContent
  | _ => false

section Relink

variable {g : Nat → Link → Link}

theorem getElem?_relink (g : Nat → Link → Link) (s : Socket) (link : Nat) :
    (s.relink g).links[link]? = s.links[link]?.map (g link) := by
  simp [relink]

theorem length_relink (g : Nat → Link → Link) (s : Socket) :
    (s.relink g).links.length = s.links.length := by
  simp [relink]

theorem relink_modifyLink {f f' : Link → Link} {link : Nat}
    (h : ∀ l, g link (f l) = f' (g link l)) (s : Socket) :
    (s.modifyLink link f).relink g = (s.relink g).modifyLink link f' := by
  have hlinks : (s.links.modify link f).mapIdx g = (s.links.mapIdx g).modify link f' := by
    apply List.ext_getElem?
    intro j
    simp only [List.getElem?_mapIdx, List.getElem?_modify]
    cases s.links[j]? with
    | none => rfl
    | some l =>
      by_cases hj : link = j
      · subst hj
        simp [h]
      · simp [hj]
  simp only [relink, modifyLink, hlinks]

/-- What a peer does to a link. -/
theorem modifyLink_eq_relink (link : Nat) (f : Link → Link) (s : Socket) :
    s.modifyLink link f = s.relink fun i l => if i = link then f l else l := by
  have hlinks : s.links.modify link f = s.links.mapIdx fun i l => if i = link then f l else l := by
    apply List.ext_getElem?
    intro j
    simp only [List.getElem?_mapIdx, List.getElem?_modify]
    cases s.links[j]? with
    | none => rfl
    | some l =>
      by_cases hj : link = j
      · simp [hj]
      · simp [hj, Ne.symm hj]
  simp only [relink, modifyLink, hlinks]

/-- What is done to the links is not the client's doing. -/
structure Outward (g : Nat → Link → Link) : Prop where
  held : ∀ i l, (g i l).held = l.held
  request : ∀ i l r, g i (l.request r) = (g i l).request r

theorem outward_muted : Outward fun _ => Link.muted where
  held _ _ := rfl
  request _ _ _ := rfl

theorem outward_arrive (link : Nat) (item : Inbound) :
    Outward fun i l => if i = link then l.arrive item else l where
  held i l := by
    unfold Link.arrive
    split
    · split <;> rfl
    · rfl
  request i l r := by
    by_cases hi : i = link
    · by_cases hl : l.held = true <;> simp [hi, Link.arrive, Link.request, hl]
    · simp [hi]

theorem outward_hangUp (link : Nat) : Outward fun i l => if i = link then l.hangUp else l where
  held i l := by split <;> rfl
  request i l r := by split <;> rfl

theorem Outward.isHeld (hg : Outward g) (s : Socket) : (s.relink g).isHeld = s.isHeld := by
  funext link
  simp only [Socket.isHeld, getElem?_relink, Option.map_map]
  congr 1
  cases s.links[link]? with
  | none => rfl
  | some l => exact congrArg some (hg.held link l)

theorem connect_relink (g : Nat → Link → Link) (s : Socket) :
    (s.relink g).connect = s.connect.relink g := by
  by_cases hs : s.state = .closed
  · have hd : (s.relink g).endDrivers.drivers = s.endDrivers.drivers := by
      simp only [endDrivers]
      cases hp : s.parting <;> cases hd : s.driver <;> simp [relink, hp, hd, abort, modifyDriver]
    rw [connect_of_closed hs, connect_of_closed (s := s.relink g) hs, hd]
    rfl
  · rw [connect_of_live hs, connect_of_live (s := s.relink g) hs]
    rfl

theorem Outward.teardown (hg : Outward g) (now : Nat) (s : Socket) :
    (s.relink g).teardown now = (s.teardown now).relink g := by
  have hrequest (link : Nat) : (s.relink g).modifyLink link (·.request .close) =
      (s.modifyLink link (·.request .close)).relink g :=
    (relink_modifyLink (fun l => hg.request link l .close) s).symm
  simp only [Socket.teardown, hg.isHeld, show (s.relink g).sender = s.sender from rfl,
    show (s.relink g).driver = s.driver from rfl]
  cases ha : s.sender.filter s.isHeld <;> cases hd : s.driver <;>
    simp only [hrequest] <;> rfl

theorem Outward.send (hg : Outward g) (text : String) (s : Socket) :
    (s.relink g).send text = (s.send text).map (Move.relink g) := by
  have hrequest (link : Nat) : (s.relink g).modifyLink link (·.request (.text text)) =
      (s.modifyLink link (·.request (.text text))).relink g :=
    (relink_modifyLink (fun l => hg.request link l _) s).symm
  simp only [Socket.send, hg.isHeld, show (s.relink g).sender = s.sender from rfl]
  cases s.sender.filter s.isHeld with
  | none => rfl
  | some link =>
    simp only [show (s.relink g).state = s.state from rfl, hrequest]
    split <;> rfl

end Relink

/-! ### Content -/

section Muted

variable {s : Socket} {now i : Nat} {m : Move}

theorem muted_modifyLink {f : Link → Link} (h : ∀ l, (f l).muted = f l.muted) (link : Nat)
    (s : Socket) : (s.modifyLink link f).muted = s.muted.modifyLink link f :=
  relink_modifyLink (g := fun _ => Link.muted) h s

theorem arrive_muted (link : Nat) (item : Inbound) (s : Socket) :
    (s.arrive link item).muted =
      if item.isContent then s.muted else s.muted.arrive link item := by
  split
  next h =>
    have hsame : (s.arrive link item).muted = s.muted.modifyLink link id := by
      refine relink_modifyLink (g := fun _ => Link.muted) (fun l => ?_) s
      by_cases hl : l.held = true <;> simp [Link.muted, Link.arrive, hl, h]
    rw [hsame]
    simp [modifyLink]
  next h =>
    refine muted_modifyLink (fun l => ?_) link s
    by_cases hl : l.held = true <;> simp [Link.muted, Link.arrive, hl, h]

theorem hangUp_muted (link : Nat) (s : Socket) : (s.hangUp link).muted = s.muted.hangUp link :=
  muted_modifyLink (f := Link.hangUp) (fun _ => rfl) link s

theorem discard_muted (i : Nat) (s : Socket) : s.muted.discard i = (s.discard i).muted := by
  unfold discard
  rw [show s.muted.phase i = s.phase i from rfl]
  split
  next link _ =>
    rw [← muted_modifyLink (f := Link.release) (fun _ => rfl)]
    rfl
  next => rfl

theorem release_muted (i link : Nat) (s : Socket) :
    s.muted.release i link = (s.release i link).muted := by
  simp only [release]
  rw [← muted_modifyLink (f := Link.release) (fun _ => rfl)]
  rfl

theorem leave_muted (now i link : Nat) (seen : List Happening) (s : Socket) :
    s.muted.leave now i link seen = (s.leave now i link seen).muted := by
  have hplan : (s.muted.links[link]?.map fun l => l.plan.close) =
      s.links[link]?.map fun l => l.plan.close := by
    rw [muted, getElem?_relink, Option.map_map]
    rfl
  simp only [leave, hplan]
  rfl

theorem connected_muted (i : Nat) (answer : Option Answer) (s : Socket) :
    s.muted.connected i answer = (s.connected i answer).muted := by
  have hlength : s.muted.links.length = s.links.length := length_relink _ s
  rcases answer with _ | e | plan
  · rfl
  · rfl
  · simp only [connected, hlength, show s.muted.drivers = s.drivers from rfl,
      show s.muted.machine = s.machine from rfl]
    split <;>
      simp [Move.muted, Move.relink, relink, muted, setPhase, modifyDriver, Link.muted, Link.ofPlan,
        Link.release]

theorem announce_muted (i link : Nat) (s : Socket) :
    s.muted.announce i link = (s.announce i link).muted := by
  simp only [announce, show s.muted.machine = s.machine from rfl,
    show s.muted.drivers = s.drivers from rfl, show s.muted.state = s.state from rfl,
    show s.muted.announced = s.announced from rfl]
  split <;> rfl

theorem written_muted (now i link : Nat) (answer : Option (Except LinkError Unit)) (s : Socket) :
    s.muted.written now i link answer = (s.written now i link answer).muted := by
  rcases answer with _ | e | _
  · exact leave_muted now i link _ s
  · exact leave_muted now i link _ s
  · rfl

theorem report_muted (i : Nat) (s : Socket) : s.muted.report i = (s.report i).muted := by
  simp only [report, show s.muted.machine = s.machine from rfl,
    show s.muted.drivers = s.drivers from rfl]
  split <;> rfl

theorem retry_muted (i : Nat) (s : Socket) : s.muted.retry i = (s.retry i).muted := by
  simp only [retry, show s.muted.machine = s.machine from rfl,
    show s.muted.drivers = s.drivers from rfl]
  split <;> rfl

theorem receive_muted {item : Inbound} (h : item.isContent = false) (now i link : Nat)
    (s : Socket) : s.muted.receive now i link item = (s.receive now i link item).muted := by
  rcases item with (text | bytes | _) | e
  · cases h
  · cases h
  · exact leave_muted now i link _ s
  · exact leave_muted now i link _ s

theorem transmit_muted (now i link : Nat) (request : Request) (s : Socket) :
    s.muted.transmit now i link request = (s.transmit now i link request).muted := by
  cases request with
  | close => exact leave_muted now i link _ s
  | text text =>
    have hl : s.muted.links[link]? = s.links[link]?.map Link.muted := getElem?_relink _ s link
    simp only [transmit, hl]
    cases s.links[link]? with
    | none => rfl
    | some l =>
      simp only [Option.map_some]
      rw [← muted_modifyLink (f := fun l => { l with writes := l.writes + 1 }) (fun _ => rfl)]
      rfl

/-- What a driver can do with what has come in on a link. -/
def pumpIn (now i link : Nat) (l : Link) (s : Socket) : Option Move :=
  match l.inbound with
  | item :: rest =>
    some ((s.modifyLink link fun l => { l with inbound := rest }).receive now i link item)
  | [] => if l.peer then none else some (s.leave now i link [])

/-- What a driver can do with what the client has asked of a link. -/
def pumpOut (now i link : Nat) (l : Link) (s : Socket) : Option Move :=
  match l.requests with
  | request :: rest =>
    some ((s.modifyLink link fun l => { l with requests := rest }).transmit now i link request)
  | [] => if s.sender = some link then none else some (s.leave now i link [])

theorem pump_eq {link : Nat} {l : Link} (hl : s.links[link]? = some l) (b : Bool) :
    s.pump now b i link =
      if b then (s.pumpOut now i link l).or (s.pumpIn now i link l)
      else (s.pumpIn now i link l).or (s.pumpOut now i link l) := by
  unfold pump
  rw [hl]
  rfl

theorem pumpOut_muted (now i link : Nat) (l : Link) (s : Socket) :
    s.muted.pumpOut now i link l.muted = (s.pumpOut now i link l).map Move.muted := by
  unfold pumpOut
  rw [show l.muted.requests = l.requests from rfl]
  split
  next request rest _ =>
    rw [← muted_modifyLink (f := fun l => { l with requests := rest }) (fun _ => rfl),
      transmit_muted]
    rfl
  next =>
    rw [show s.muted.sender = s.sender from rfl, leave_muted]
    split <;> rfl

theorem pumpIn_muted {l : Link} (h : ∀ item ∈ l.inbound.head?, item.isContent = false)
    (now i link : Nat) (s : Socket) :
    s.muted.pumpIn now i link l.muted = (s.pumpIn now i link l).map Move.muted := by
  unfold pumpIn
  cases hin : l.inbound with
  | nil =>
    rw [show l.muted.inbound = [] by simp [Link.muted, hin]]
    simp only [show l.muted.peer = l.peer from rfl, leave_muted]
    split <;> rfl
  | cons item rest =>
    have hitem : item.isContent = false := h item (by simp [hin])
    rw [show l.muted.inbound = item :: rest.filter (!·.isContent) by simp [Link.muted, hin, hitem]]
    have hmodify :
        s.muted.modifyLink link (fun l => { l with inbound := rest.filter (!·.isContent) }) =
          (s.modifyLink link fun l => { l with inbound := rest }).muted :=
      (relink_modifyLink (g := fun _ => Link.muted) (f := fun l => { l with inbound := rest })
        (fun _ => rfl) s).symm
    simp only [hmodify, receive_muted hitem]
    rfl

/-- The reading of content hands it over. -/
theorem pumpIn_content {l : Link} {item : Inbound} {rest : List Inbound} {link : Nat}
    (hin : l.inbound = item :: rest) (h : item.isContent = true) :
    ∃ m, s.pumpIn now i link l = some m ∧ ∃ h ∈ m.seen, h.isHearing = true := by
  unfold pumpIn
  rw [hin]
  refine ⟨_, rfl, .read link item, ?_, h⟩
  rcases item with (text | bytes | _) | e
  · simp [receive]
  · simp only [receive]
    split <;> simp
  · cases h
  · cases h

/-- Moving anything but content does not depend on the content. -/
theorem pump_muted {link : Nat} {b : Bool} (hm : s.pump now b i link = some m)
    (hh : ∀ h ∈ m.seen, h.isHearing = false) : s.muted.pump now b i link = some m.muted := by
  have hl : s.muted.links[link]? = s.links[link]?.map Link.muted := getElem?_relink _ s link
  cases hlink : s.links[link]? with
  | none => simp [pump, hlink] at hm
  | some l =>
    rw [hlink] at hl
    rw [pump_eq hlink] at hm
    rw [pump_eq hl, pumpOut_muted]
    by_cases hcontent : ∀ item ∈ l.inbound.head?, item.isContent = false
    · rw [pumpIn_muted hcontent, ← Option.map_or, ← Option.map_or]
      cases b <;> exact congrArg (Option.map Move.muted) hm
    · -- then the driver turns to what the client has asked for
      obtain ⟨item, rest, hin, hitem⟩ : ∃ item rest, l.inbound = item :: rest ∧
          item.isContent = true := by
        cases hin : l.inbound with
        | nil => simp [hin] at hcontent
        | cons item rest => exact ⟨item, rest, rfl, by simpa [hin] using hcontent⟩
      obtain ⟨m', hm', h, hmem, hhear⟩ : ∃ m', s.pumpIn now i link l = some m' ∧
          ∃ h ∈ m'.seen, h.isHearing = true := pumpIn_content hin hitem
      have hne : m ≠ m' := by
        rintro rfl
        exact absurd (hh h hmem) (by simp [hhear])
      rw [hm'] at hm
      cases b with
      | false => exact absurd (Option.some.inj hm).symm hne
      | true =>
        cases hout : s.pumpOut now i link l with
        | none =>
          rw [hout] at hm
          exact absurd (Option.some.inj hm).symm hne
        | some m'' =>
          rw [hout] at hm
          rw [← Option.some.inj hm]
          rfl

/-- A step that reads no content does not depend on it. -/
theorem step_muted {b : Bool} (hm : s.step now b i = some m)
    (hh : ∀ h ∈ m.seen, h.isHearing = false) : s.muted.step now b i = some m.muted := by
  unfold step at hm ⊢
  rw [show s.muted.phase i = s.phase i from rfl]
  cases hp : s.phase i with
  | pumping link =>
    rw [hp] at hm
    exact pump_muted hm hh
  | queued | retiring =>
    rw [hp] at hm
    cases hm
    rfl
  | announcing link =>
    rw [hp] at hm
    cases hm
    exact congrArg some (announce_muted i link s)
  | ending =>
    rw [hp] at hm
    cases hm
    exact congrArg some (report_muted i s)
  | waiting due =>
    simp only [hp, Option.ite_none_right_eq_some] at hm ⊢
    obtain ⟨hd, hm⟩ := hm
    cases hm
    exact ⟨hd, congrArg some (retry_muted i s)⟩
  | connecting answer deadline =>
    simp only [hp, Option.map_eq_some_iff] at hm ⊢
    obtain ⟨reply, hreply, rfl⟩ := hm
    exact ⟨reply, hreply, connected_muted i reply s⟩
  | writing link answer deadline =>
    simp only [hp, Option.map_eq_some_iff] at hm ⊢
    obtain ⟨reply, hreply, rfl⟩ := hm
    exact ⟨reply, hreply, written_muted now i link reply s⟩
  | closing link answer deadline =>
    simp only [hp, Option.map_eq_some_iff] at hm ⊢
    obtain ⟨reply, hreply, rfl⟩ := hm
    exact ⟨reply, hreply, release_muted i link s⟩
  | finished =>
    rw [hp] at hm
    cases hm

/-- The reading of content leaves nothing but what is handed over. -/
theorem Stepped.hearing (hs : Stepped now i s m) (h : ∃ h ∈ m.seen, h.isHearing = true) :
    m.socket.muted = s.muted ∧ (∀ h ∈ m.seen, h.isHearing = true) ∧
      ∃ c, m.callback = some c ∧ ∀ b, c ≠ .status b := by
  obtain ⟨h, hmem, hhear⟩ := h
  have hlogs {seen : List Happening} (hl : Logs seen) : h ∉ seen := fun hs =>
    absurd (hl.eq_false (p := Happening.isHearing) (fun _ => rfl) h hs) (by simp [hhear])
  cases hs
  case read link l f rest c hp hl hin hc =>
    have hcontent : (Inbound.frame f).isContent = true := by rw [Inbound.isContent_frame, hc]; rfl
    refine ⟨?_, by simp [Happening.isHearing, hcontent], c, rfl, Frame.callback_ne_status hc⟩
    have hlinks : (s.links.modify link fun l => { l with inbound := rest }).mapIdx
        (fun _ => Link.muted) = s.links.mapIdx fun _ => Link.muted := by
      apply List.ext_getElem?
      intro j
      simp only [List.getElem?_mapIdx, List.getElem?_modify]
      by_cases hj : link = j
      · subst hj
        simp [hl, Link.muted, hin, hcontent]
      · cases s.links[j]? <;> simp [hj]
    simp only [muted, relink, modifyLink, hlinks]
  case readLast link l item rest seen hp hl hin hc hseen =>
    have hitem : item.isContent = false := by
      cases item with
      | frame f => rw [Inbound.isContent_frame, hc f rfl]; rfl
      | failure e => rfl
    rcases List.mem_append.mp hmem with hmem | hmem
    · rcases List.mem_cons.mp hmem with rfl | hmem
      · simp [Happening.isHearing, hitem] at hhear
      · exact absurd hmem (hlogs hseen)
    · rw [List.mem_singleton.mp hmem] at hhear
      cases hhear
  case unwritten hseen =>
    rcases List.mem_append.mp hmem with hmem | hmem
    · exact absurd hmem (hlogs hseen)
    · rw [List.mem_singleton.mp hmem] at hhear
      cases hhear
  case closed hseen =>
    rcases List.mem_cons.mp hmem with rfl | hmem
    · cases hhear
    · exact absurd hmem (hlogs hseen)
  case dismissed =>
    rcases List.mem_append.mp hmem with hmem | hmem <;>
      (rw [List.mem_singleton.mp hmem] at hhear; cases hhear)
  case unannounced | written | outdated | retried | cancelled => cases hmem
  all_goals
    rw [List.mem_singleton.mp hmem] at hhear
    cases hhear

end Muted

end Socket

end TwinLink
