import TwinLink.Proofs.Socket.Status
import TwinLink.Proofs.World.Governance

/-! Which link takes what is sent. A text is accepted while the driver of the session has a
link, and it is queued on the newest one. Once the driver leaves its link nothing more goes out
on it; but until the link has been asked to close and has done so, the driver still has it.
Main statement: after a link has ended and until another one is opened, texts are refused unless
the driver waits for that link to close. -/

namespace TwinLink

namespace Socket

/-- The link that comes into use. -/
def Happening.opened? : Happening → Option Nat
  | opened link => some link
  | _ => none

/-- The link that was opened last. -/
def newest (seen : List Happening) : Option Nat := (seen.filterMap Happening.opened?).getLast?

theorem newest_append (seen more : List Happening) :
    newest (seen ++ more) = (newest more).or (newest seen) := by
  rw [newest, List.filterMap_append, List.getLast?_append]
  rfl

theorem newest_eq_none {seen : List Happening} (h : ∀ link, .opened link ∉ seen) :
    newest seen = none := by
  rw [newest, List.getLast?_eq_none_iff, List.filterMap_eq_nil_iff]
  intro e he
  cases e with
  | opened link => exact absurd he (h link)
  | _ => rfl

/-- Where links are in their course: the one that takes texts is the newest, one on which frames
are moved has not been left, and none that has been released is held. -/
structure Coursed (seen : List Happening) (s : Socket) : Prop where
  newest : ∀ link, s.sender = some link → newest seen = some link
  moving : ∀ i link, (s.phase i).open? = some link → .close link ∉ seen
  released : ∀ link, .released link ∈ seen → s.isHeld link = false
  known : ∀ link, .close link ∈ seen ∨ .released link ∈ seen → link < s.links.length
  /-- Nothing goes out on a link that has been left. -/
  written : World.Each (fun before e => ∀ link text fate, e = .write link text fate →
    .close link ∉ before) seen

/-- What a move does to the course of links. -/
structure Course (s : Socket) (m : Move) : Prop where
  sender : ∀ link, m.socket.sender = some link →
    newest m.seen = some link ∨ newest m.seen = none ∧ s.sender = some link
  moving : ∀ i link, (m.socket.phase i).open? = some link →
    .close link ∉ m.seen ∧ ((s.phase i).open? = some link ∨ link = s.links.length)
  held : ∀ link, m.socket.isHeld link = true →
    .released link ∉ m.seen ∧ (s.isHeld link = true ∨ link = s.links.length)
  known : ∀ link, .close link ∈ m.seen ∨ .released link ∈ m.seen → link < m.socket.links.length
  length_le : s.links.length ≤ m.socket.links.length
  written : ∀ link text fate, .write link text fate ∈ m.seen →
    (∃ i, (s.phase i).open? = some link) ∧ ∃ e, m.seen = [e]

section

variable {s : Socket} {seen : List Happening} {m : Move} {now i : Nat}

theorem coursed_ofSettings (settings : Settings) (script : List (Reply Answer)) :
    Coursed [] (ofSettings settings script) where
  newest link h := by cases h
  moving i link h := by simp
  released link h := by simp at h
  known link h := by simp at h
  written := World.each_nil _

theorem Coursed.move (h : Coursed seen s) (hm : Course s m) :
    Coursed (seen ++ m.seen) m.socket where
  newest link hl := by
    rw [newest_append]
    rcases hm.sender link hl with hnew | ⟨hnone, hs⟩
    · rw [hnew]; rfl
    · rw [hnone, h.newest link hs]; rfl
  moving i link hp := by
    obtain ⟨hn, hold | rfl⟩ := hm.moving i link hp
    · simp [h.moving i link hold, hn]
    · have : .close s.links.length ∉ seen := fun hc => Nat.lt_irrefl _ (h.known _ (.inl hc))
      simp [this, hn]
  released link hr := by
    rw [Bool.eq_false_iff]
    intro hheld
    obtain ⟨hn, hold⟩ := hm.held link hheld
    have hr : .released link ∈ seen := (List.mem_append.mp hr).resolve_right hn
    rcases hold with hold | rfl
    · simp [h.released link hr] at hold
    · exact Nat.lt_irrefl _ (h.known _ (.inr hr))
  known link hl := by
    simp only [List.mem_append] at hl
    rcases hl with (hl | hl) | hl | hl
    · exact Nat.lt_of_lt_of_le (h.known link (.inl hl)) hm.length_le
    · exact hm.known link (.inl hl)
    · exact Nat.lt_of_lt_of_le (h.known link (.inr hl)) hm.length_le
    · exact hm.known link (.inr hl)
  written := by
    refine World.each_append h.written fun before e after he link text fate hw => ?_
    obtain ⟨⟨j, hj⟩, e', hone⟩ := hm.written link text fate (by simp [he, hw])
    -- a text goes out alone, on a link that has not been left
    have hbefore : before = [] := by
      rw [he] at hone
      cases before with
      | nil => rfl
      | cons => simp at hone
    rw [hbefore, List.append_nil]
    exact h.moving j link hj

/-- A link comes into use only where a driver gets it. -/
theorem Stepped.of_sender (hs : Stepped now i s m) {link : Nat}
    (h : m.socket.sender = some link) :
    newest m.seen = some link ∨ newest m.seen = none ∧ s.sender = some link := by
  cases hs
  case opened => exact .inl h
  case closed => cases h
  case readLast hlogs =>
    exact .inr ⟨newest_eq_none fun _ => by simp [leave, hlogs.not_mem], h⟩
  case unwritten hlogs =>
    exact .inr ⟨newest_eq_none fun _ => by simp [leave, hlogs.not_mem], h⟩
  all_goals exact .inr ⟨rfl, h⟩

/-- A driver moves frames on a new link, or where it has moved them. -/
theorem Stepped.of_open (hs : Stepped now i s m) {link : Nat}
    (h : (m.socket.phase i).open? = some link) :
    (s.phase i).open? = some link ∨ link = s.links.length := by
  obtain ⟨d, hd⟩ := hs.exists_driver
  cases hs
  case opened =>
    right
    simpa [phase, setPhase, modifyDriver, hd, Phase.open?, eq_comm] using h
  case readLast => simp [open?_leave] at h
  case exhausted => simp [open?_leave] at h
  case dismissed => simp [open?_leave] at h
  case unwritten => simp [open?_leave] at h
  case read => exact .inl h
  case announced hp _ _ _ | unannounced hp _ | write hp _ _ | written hp =>
    left
    rw [hp]
    simpa [phase, setPhase, modifyDriver, modifyLink, Move.silent, hd, Phase.open?] using h
  all_goals
    simp [phase, setPhase, modifyDriver, modifyLink, Socket.attempt, Socket.rest, Socket.release,
      Move.silent, hd, Phase.open?] at h

theorem Grip.of_isHeld {t : Socket} (hg : Grip s t i) {link : Nat} (h : t.isHeld link = true) :
    s.isHeld link = true ∨ link = s.links.length := by
  cases hg with
  | same _ hh => exact .inl (hh link ▸ h)
  | take _ _ hh =>
    rw [hh] at h
    simpa using h
  | drop _ _ hh =>
    rw [hh, Bool.and_eq_true] at h
    exact .inl h.1

theorem Stepped.course (hs : Stepped now i s m) (hc : Custody s) : Course s m where
  sender _ := hs.of_sender
  moving j link hp := by
    by_cases hij : i = j
    · subst hij
      refine ⟨fun hclose => ?_, hs.of_open hp⟩
      rw [(hs.tells _ hclose).2] at hp
      cases hp
    · rw [hs.phase_other hij] at hp
      -- the link that is left is in other hands
      refine ⟨fun hclose => hij ?_, .inl hp⟩
      exact hc.unique i j link (Phase.link?_of_open? (hs.tells _ hclose).1)
        (Phase.link?_of_open? hp)
  held link h := ⟨fun hr => by simp [(hs.tells _ hr).1] at h, hs.grip.of_isHeld h⟩
  known link h := by
    have hlt (hl : (s.phase i).link? = some link) : link < m.socket.links.length :=
      Nat.lt_of_lt_of_le (lt_of_isHeld (hc.owner i link hl)) hs.length_links_le
    rcases h with hclose | hr
    · exact hlt (Phase.link?_of_open? (hs.tells _ hclose).1)
    · rcases (hs.tells _ hr).2 with hl | hl
      · exact hlt hl
      · exact Nat.lt_of_succ_le (Nat.le_of_eq hl)
  length_le := hs.length_links_le
  written link text fate h := by
    obtain ⟨hp, hone⟩ := hs.tells _ h
    exact ⟨⟨i, hp⟩, hone⟩

/-- A move that leaves links, drivers and their texts alone. -/
theorem course_frame (hs : m.socket.sender = s.sender ∨ m.socket.sender = none)
    (hp : ∀ j link, (m.socket.phase j).open? = some link → (s.phase j).open? = some link)
    (hh : ∀ link, m.socket.isHeld link = s.isHeld link)
    (hl : s.links.length ≤ m.socket.links.length)
    (hn : (∃ link text, m.seen = [.queued link text]) ∨ Logs m.seen) : Course s m := by
  have hquiet : newest m.seen = none ∧ (∀ link, .close link ∉ m.seen) ∧
      (∀ link, .released link ∉ m.seen) ∧ ∀ link text fate, .write link text fate ∉ m.seen := by
    rcases hn with ⟨link, text, hn⟩ | hn
    · rw [hn]
      exact ⟨rfl, by simp, by simp, by simp⟩
    · exact ⟨newest_eq_none fun _ => hn.not_mem (by simp), fun _ => hn.not_mem (by simp),
        fun _ => hn.not_mem (by simp), fun _ _ _ => hn.not_mem (by simp)⟩
  obtain ⟨hnewest, hclose, hreleased, hwrite⟩ := hquiet
  exact
    { sender := fun link h => by
        rcases hs with hs | hs
        · exact .inr ⟨hnewest, hs.symm.trans h⟩
        · simp [hs] at h
      moving := fun j link h => ⟨hclose link, .inl (hp j link h)⟩
      held := fun link h => ⟨hreleased link, .inl (hh link ▸ h)⟩
      known := fun link h => by simp [hclose, hreleased] at h
      length_le := hl
      written := fun link text fate h => absurd h (hwrite link text fate) }

theorem course_discard (hc : Custody s) (i : Nat) : Course s (s.discard i) := by
  have hlen : (s.discard i).socket.links.length = s.links.length := by
    unfold Socket.discard
    split <;> simp [setPhase, modifyDriver, modifyLink, Move.silent]
  -- a link that is released is the one of the driver that ends
  have hseen {e : Happening} (h : e ∈ (s.discard i).seen) :
      ∃ link, e = .released link ∧ (s.phase i).link? = some link ∧
        (s.discard i).socket.isHeld link = false := by
    unfold Socket.discard at h ⊢
    split at h
    next link hl =>
      exact ⟨link, by simpa using h, hl, isHeld_release s link⟩
    next => simp [Move.silent] at h
  have hnone {e : Happening} (he : ∀ link, e ≠ .released link) : e ∉ (s.discard i).seen := by
    intro h
    obtain ⟨link, rfl, -⟩ := hseen h
    exact he link rfl
  exact
    { sender := fun link h =>
        .inr ⟨newest_eq_none fun _ => hnone (by simp), (sender_discard s i).symm.trans h⟩
      moving := fun j link h => by
        rw [phase_discard] at h
        split at h
        next => simp [Phase.open?] at h
        next => exact ⟨hnone (by simp), .inl h⟩
      held := fun link h => by
        refine ⟨fun hr => ?_, (grip_discard s i).of_isHeld h⟩
        obtain ⟨_, hlink, -, hl⟩ := hseen hr
        cases hlink
        simp [hl] at h
      known := fun link h => by
        rcases h with h | h
        · exact absurd h (hnone (by simp))
        · obtain ⟨_, hlink, hl, -⟩ := hseen h
          cases hlink
          rw [hlen]
          exact lt_of_isHeld (hc.owner i _ hl)
      length_le := Nat.le_of_eq hlen.symm
      written := fun link text fate h => absurd h (hnone (by simp)) }

/-- Whatever happens, the course of links goes one way. -/
theorem Shift.course {b : Option Bool} (hs : Shift s b m) (hc : Custody s) : Course s m := by
  -- what peers and the client do to a link
  have hlink (i : Nat) {f : Link → Link} (hf : ∀ l, (f l).held = l.held) {seen : List Happening}
      (hn : (∃ link text, seen = [.queued link text]) ∨ Logs seen) :
      Course s ⟨s.modifyLink i f, seen, none⟩ :=
    course_frame (.inl rfl) (fun _ _ h => h) (isHeld_modifyLink s i hf) (by simp [modifyLink]) hn
  cases hs with
  | stay =>
    exact course_frame (.inl rfl) (fun _ _ h => h) (fun _ => rfl) (Nat.le_refl _) (.inr logs_nil)
  | connect hclosed =>
    have hs : s.connect.socket.sender = s.sender ∧ s.connect.socket.links = s.links ∧
        s.connect.seen = [] := by
      rw [connect_of_closed hclosed]
      exact ⟨rfl, rfl, rfl⟩
    refine course_frame (.inl hs.1) (fun j link h => ?_) (fun link => by simp [isHeld, hs.2.1])
      (Nat.le_of_eq (by rw [hs.2.1])) (.inr (hs.2.2 ▸ logs_nil))
    rcases phase_connect hclosed j with hj | ⟨hj, -⟩
    · rwa [hj] at h
    · simp [hj, Phase.open?] at h
  | teardown now =>
    refine course_frame (.inr rfl) (fun j link h => by rwa [phase_teardown] at h)
      (isHeld_teardown now s) (Nat.le_of_eq (length_links_teardown now s).symm) (.inr ?_)
    simp only [Socket.teardown]
    split
    · exact logs_nil
    · exact logs_one _
  | send => exact hlink _ (fun _ => by rfl) (.inl ⟨_, _, rfl⟩)
  | step hm => exact hm.course hc
  | discard => exact course_discard hc _
  | reap =>
    refine course_frame (.inl ?_) (fun j link h => ?_) (fun link => ?_) ?_ (.inr (logs_one _))
    · rw [reap_socket]; rfl
    · rwa [reap_socket, phase_modifyDriver s _ fun _ => by rfl] at h
    · rw [reap_socket]; rfl
    · rw [reap_socket]; exact Nat.le_refl _
  | arrive link item =>
    refine hlink link (fun l => ?_) (.inr logs_nil)
    unfold Link.arrive
    split <;> rfl
  | hangUp link => exact hlink link (fun _ => by rfl) (.inr logs_nil)

/-! ### What is accepted -/

/-- A text is accepted exactly while the driver of the session has a link. -/
theorem Supervised.accepts_iff (h : Supervised s) (hc : Custody s) (text : String) :
    (∃ m, s.send text = .ok m) ↔ ∃ i link, s.driver = some i ∧ (s.phase i).link? = some link := by
  constructor
  · rintro ⟨m, hm⟩
    obtain ⟨link, hsender, hheld, hopen, -⟩ := send_eq_ok.mp hm
    cases hdriver : s.driver with
    | none => simp [(h.idle hdriver).2] at hsender
    | some i =>
      obtain ⟨d, hd, hk⟩ := h.session i hdriver
      have hne : d.phase ≠ .ending := fun he => by simp [hk.ended he link hsender] at hheld
      exact ⟨i, link, rfl, by rw [phase_eq hd, ← hk.sender hne, hsender]⟩
  · rintro ⟨i, link, hdriver, hl⟩
    obtain ⟨d, hd, hk⟩ := h.session i hdriver
    have hheld := hc.owner i link hl
    rw [phase_eq hd] at hl
    have hsender : s.sender = some link := by
      rw [hk.sender fun he => by simp [he, Phase.link?] at hl, hl]
    have hopen : s.state = .opened := by
      have hstands := hk.stands
      cases hp : d.phase <;> simp_all [Phase.link?, Phase.Stands]
    exact ⟨_, send_eq_ok.mpr ⟨link, hsender, hheld, hopen, rfl⟩⟩

/-- The driver of the session has the newest link, if it has one. -/
theorem Coursed.newest_of_driver (h : Coursed seen s) (hv : Supervised s) {link : Nat}
    (hi : s.driver = some i) (hl : (s.phase i).link? = some link) :
    Socket.newest seen = some link := by
  obtain ⟨d, hd, hk⟩ := hv.session i hi
  rw [phase_eq hd] at hl
  exact h.newest link (by rw [hk.sender fun he => by simp [he, Phase.link?] at hl, hl])

/-- Which texts are refused once the newest link has ended, and which go out on it. -/
structure Refusing (seen : List Happening) (s : Socket) : Prop where
  ended : ∀ link, newest seen = some link → .close link ∈ seen →
    ((∀ text m, s.send text ≠ .ok m) ↔
      ∀ i answer deadline, s.driver = some i → s.phase i ≠ .closing link answer deadline)
  released : ∀ link, newest seen = some link → .released link ∈ seen →
    ∀ text m, s.send text ≠ .ok m
  /-- What is accepted after the link has ended is not written to it. -/
  unwritten : World.Each (fun before e => ∀ link text fate, e = .write link text fate →
    .close link ∉ before) seen

theorem Coursed.refusing (h : Coursed seen s) (hv : Supervised s) (hc : Custody s) :
    Refusing seen s where
  ended link hnew hclose := by
    constructor
    · intro hrefused i answer deadline hi hp
      obtain ⟨m, hm⟩ := (hv.accepts_iff hc "").mpr ⟨i, link, hi, by rw [hp]; rfl⟩
      exact hrefused "" m hm
    · intro hn text m hm
      obtain ⟨i, l, hi, hl⟩ := (hv.accepts_iff hc text).mp ⟨m, hm⟩
      obtain rfl : l = link :=
        Option.some.inj ((h.newest_of_driver hv hi hl).symm.trans hnew)
      -- a link that has been left is one that its driver waits for to close
      have hmoving : (s.phase i).open? ≠ some l := fun ho => h.moving i l ho hclose
      cases hp : s.phase i with
      | closing l' answer deadline =>
        rw [hp] at hl
        obtain rfl : l' = l := Option.some.inj hl
        exact hn i answer deadline hi hp
      | _ => simp_all [Phase.link?, Phase.open?]
  released link hnew hreleased text m hm := by
    obtain ⟨i, l, hi, hl⟩ := (hv.accepts_iff hc text).mp ⟨m, hm⟩
    obtain rfl : l = link := Option.some.inj ((h.newest_of_driver hv hi hl).symm.trans hnew)
    have hheld := hc.owner i l hl
    rw [h.released l hreleased] at hheld
    cases hheld
  unwritten := h.written

end

end Socket

namespace World

open Socket

variable {σ ι ε : Type} (C : Consumer σ ι ε) (k : ChannelKind) (labels : List (Label ι))

/-- Once the newest link of a channel has ended, texts are refused unless the driver of the
session waits for that link to close; then they are accepted, and never go out. -/
theorem run_refusing (live command : Settings) (answers : ChannelKind → List (Reply Answer))
    (state : σ)
    (hb : (sessions C k labels (ofSettings live command answers state)).length < UInt64.size) :
    Refusing (happenings C k labels (ofSettings live command answers state))
      ((run C labels (ofSettings live command answers state)).socket k) := by
  obtain ⟨settings, script, hk⟩ :=
    socket_ofSettings (ι := ι) (ε := ε) k live command answers state
  obtain ⟨hv, hc, hcoursed⟩ := supervised_happenings C k labels (P := Coursed)
    (fun _ _ _ _ hs _ hc h => h.move (hs.course hc)) _ (hk ▸ supervised_ofSettings settings script)
    (hk ▸ custody_ofSettings settings script) (by rw [hk]; rfl)
    (hk ▸ coursed_ofSettings settings script) hb
  exact hcoursed.refusing hv hc

/-- A peer that closes its link and does not answer the close of the client. -/
def lingering : ChannelKind → List (Reply Answer) :=
  fun _ => [.now (.ok ⟨fun _ => .now (.ok ()), .never⟩)]

/-- The channel is opened, and reads that the peer closes its link. -/
def closingLink : List (Label Unit) :=
  [.call (.connect .command), .proceed false, .poll .command 0, .proceed false, .proceed false,
    .proceed false, .proceed false, .proceed false, .arrive .command 0 (.frame .close),
    .poll .command 0, .proceed false]

theorem run_refusing_closingLink :
    sessions Consumer.idle .command closingLink
        (ofSettings (plainSettings .live) (plainSettings .command) lingering ()) = [true] ∧
    Refusing
      (happenings Consumer.idle .command closingLink
        (ofSettings (plainSettings .live) (plainSettings .command) lingering ()))
      ((run Consumer.idle closingLink (ofSettings (plainSettings .live) (plainSettings .command)
        lingering ())).socket .command) := by
  have hs : sessions Consumer.idle .command closingLink
      (ofSettings (plainSettings .live) (plainSettings .command) lingering ()) = [true] := by decide
  exact ⟨hs, run_refusing Consumer.idle .command closingLink (plainSettings .live)
    (plainSettings .command) lingering () (by rw [hs]; decide)⟩

/-- The driver waits for the link to close, and a text is accepted for it. -/
theorem accepted_closingLink :
    newest (happenings Consumer.idle .command closingLink
        (ofSettings (plainSettings .live) (plainSettings .command) lingering ())) = some 0 ∧
    .close 0 ∈ happenings Consumer.idle .command closingLink
        (ofSettings (plainSettings .live) (plainSettings .command) lingering ()) ∧
    ∃ m, ((run Consumer.idle closingLink
        (ofSettings (plainSettings .live) (plainSettings .command) lingering ())).socket
          .command).send "late" = .ok m :=
  ⟨by decide, by decide, _, rfl⟩

end World

end TwinLink
