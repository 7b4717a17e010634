import TwinLink.Proofs.Socket.Shift

/-! The queues of links. What is accepted for a link goes out on it in order, each text once,
and the wish to close a link stands behind all of its texts. Main statement: at any time the
texts accepted for a link are those that have gone out and, behind them, those that wait. -/

namespace TwinLink

def Request.text? : Request → Option String
  | text s => some s
  | close => none

namespace Socket

/-- The texts accepted for a link. -/
def acceptedOn (link : Nat) (seen : List Happening) : List String :=
  seen.filterMap fun
    | .queued l text => if l = link then some text else none
    | _ => none

/-- The texts handed to the outbound half of a link. -/
def writtenOn (link : Nat) (seen : List Happening) : List String :=
  seen.filterMap fun
    | .write l text _ => if l = link then some text else none
    | _ => none

/-- Something is put into the queue of a link or taken from it. -/
def Happening.isQueueing : Happening → Bool
  | queued .. | write .. | dismissed _ => true
  | _ => false

/-- What waits in the queue of a link. -/
def requests (s : Socket) (link : Nat) : List Request :=
  (s.links[link]?.map Link.requests).getD []

/-- A queue holds texts, and behind them the wish to close once nothing more is put in. -/
inductive Orderly (s : Socket) (link : Nat) : List Request → Prop where
  | texts (ts : List String) : Orderly s link (ts.map .text)
  | closing (ts : List String) (h : s.sender ≠ some link) :
      Orderly s link (ts.map .text ++ [.close])

/-- What has happened on the links of a socket explains their queues. -/
structure Accounted (seen : List Happening) (s : Socket) : Prop where
  orderly : ∀ link, Orderly s link (s.requests link)
  balance : ∀ link,
    acceptedOn link seen = writtenOn link seen ++ (s.requests link).filterMap Request.text?
  dismissed : ∀ link, .dismissed link ∈ seen →
    s.requests link = [] ∧ s.sender ≠ some link ∧ link < s.links.length
  sender_lt : ∀ link, s.sender = some link → link < s.links.length

@[simp] theorem acceptedOn_append (link : Nat) (p q : List Happening) :
    acceptedOn link (p ++ q) = acceptedOn link p ++ acceptedOn link q := List.filterMap_append

@[simp] theorem writtenOn_append (link : Nat) (p q : List Happening) :
    writtenOn link (p ++ q) = writtenOn link p ++ writtenOn link q := List.filterMap_append

@[simp] theorem acceptedOn_queued (link l : Nat) (text : String) :
    acceptedOn link [.queued l text] = if l = link then [text] else [] := by
  by_cases h : l = link <;> simp [acceptedOn, h]

@[simp] theorem writtenOn_queued (link l : Nat) (text : String) :
    writtenOn link [.queued l text] = [] := rfl

@[simp] theorem acceptedOn_write (link l : Nat) (text : String) (fate : Fate) :
    acceptedOn link [.write l text fate] = [] := rfl

@[simp] theorem writtenOn_write (link l : Nat) (text : String) (fate : Fate) :
    writtenOn link [.write l text fate] = if l = link then [text] else [] := by
  by_cases h : l = link <;> simp [writtenOn, h]

@[simp] theorem acceptedOn_dismissed (link l : Nat) : acceptedOn link [.dismissed l] = [] := rfl

@[simp] theorem writtenOn_dismissed (link l : Nat) : writtenOn link [.dismissed l] = [] := rfl

theorem acceptedOn_eq_nil {link : Nat} {seen : List Happening}
    (h : ∀ e ∈ seen, e.isQueueing = false) : acceptedOn link seen = [] := by
  rw [acceptedOn, List.filterMap_eq_nil_iff]
  intro e he
  have := h e he
  cases e <;> simp_all [Happening.isQueueing]

theorem writtenOn_eq_nil {link : Nat} {seen : List Happening}
    (h : ∀ e ∈ seen, e.isQueueing = false) : writtenOn link seen = [] := by
  rw [writtenOn, List.filterMap_eq_nil_iff]
  intro e he
  have := h e he
  cases e <;> simp_all [Happening.isQueueing]

theorem accounted_ofSettings (settings : Settings) (script : List (Reply Answer)) :
    Accounted [] (ofSettings settings script) where
  orderly _ := .texts []
  balance _ := rfl
  dismissed _ h := by cases h
  sender_lt _ h := by cases h

section Requests

variable {s : Socket} {link : Nat}

theorem requests_modifyLink (s : Socket) (i : Nat) (f : Link → Link) (link : Nat) :
    (s.modifyLink i f).requests link =
      (s.links[link]?.map fun l => (if i = link then f l else l).requests).getD [] := by
  simp only [requests, modifyLink, List.getElem?_modify, Option.map_eq_map, Option.map_map]
  rfl

theorem requests_modifyLink_of (s : Socket) (i : Nat) {f : Link → Link}
    (hf : ∀ l, (f l).requests = l.requests) (link : Nat) :
    (s.modifyLink i f).requests link = s.requests link := by
  rw [requests_modifyLink]
  simp only [requests, apply_ite Link.requests, hf, ite_self]

theorem requests_modifyLink_other {i : Nat} (f : Link → Link) (h : i ≠ link) :
    (s.modifyLink i f).requests link = s.requests link := by
  rw [requests_modifyLink]
  simp only [h, if_false, requests]

theorem requests_modifyLink_self {l : Link} (f : Link → Link) (h : s.links[link]? = some l) :
    (s.modifyLink link f).requests link = (f l).requests := by
  simp [requests_modifyLink, h]

theorem requests_eq {l : Link} (h : s.links[link]? = some l) : s.requests link = l.requests := by
  simp [requests, h]

theorem requests_of_length_le (h : s.links.length ≤ link) : s.requests link = [] := by
  simp [requests, List.getElem?_eq_none h]

end Requests

section Accounted

variable {s t : Socket} {seen more : List Happening} {link : Nat}

theorem Orderly.mono {queue : List Request} (h : Orderly s link queue)
    (hs : t.sender = some link → s.sender = some link) : Orderly t link queue := by
  cases h with
  | texts ts => exact .texts ts
  | closing ts hne => exact .closing ts fun ht => hne (hs ht)

theorem Orderly.request {queue : List Request} (h : Orderly s link queue)
    (hs : s.sender = some link) (text : String) : Orderly s link (queue ++ [.text text]) := by
  cases h with
  | texts ts => simpa using Orderly.texts (ts ++ [text])
  | closing ts hne => exact absurd hs hne

theorem Orderly.of_text {text : String} {rest : List Request}
    (h : Orderly s link (.text text :: rest)) : Orderly s link rest := by
  generalize hq : Request.text text :: rest = queue at h
  cases h with
  | texts ts =>
    obtain ⟨u, us, -, -, rfl⟩ := List.map_eq_cons_iff.mp hq.symm
    exact .texts us
  | closing ts hne =>
    cases ts with
    | nil => simp at hq
    | cons u us =>
      obtain ⟨-, rfl⟩ := List.cons.inj hq
      exact .closing us hne

/-- The wish to close a link is the last in its queue. -/
theorem Orderly.of_close {rest : List Request} (h : Orderly s link (.close :: rest)) :
    rest = [] ∧ s.sender ≠ some link := by
  generalize hq : Request.close :: rest = queue at h
  cases h with
  | texts ts =>
    obtain ⟨u, us, -, hu, -⟩ := List.map_eq_cons_iff.mp hq.symm
    simp at hu
  | closing ts hne =>
    cases ts with
    | nil => exact ⟨(List.cons.inj hq).2, hne⟩
    | cons u us => simp at hq

/-- What puts nothing into a queue and takes nothing from one keeps the account. -/
theorem Accounted.quiet (h : Accounted seen s) (hm : ∀ e ∈ more, e.isQueueing = false)
    (hr : ∀ link, t.requests link = s.requests link) (hl : s.links.length ≤ t.links.length)
    (hs : ∀ link, t.sender = some link →
      s.sender = some link ∨ s.links.length ≤ link ∧ link < t.links.length) :
    Accounted (seen ++ more) t where
  orderly link := by
    rw [hr]
    by_cases hlt : link < s.links.length
    · refine (h.orderly link).mono fun ht => ?_
      rcases hs link ht with ht | ⟨hle, -⟩
      · exact ht
      · omega
    · rw [requests_of_length_le (by omega)]
      exact .texts []
  balance link := by
    rw [hr, acceptedOn_append, writtenOn_append, acceptedOn_eq_nil hm, writtenOn_eq_nil hm,
      List.append_nil, List.append_nil]
    exact h.balance link
  dismissed link hd := by
    have hd : .dismissed link ∈ seen := by
      rcases List.mem_append.mp hd with hd | hd
      · exact hd
      · exact absurd (hm _ hd) (by simp [Happening.isQueueing])
    obtain ⟨hq, hne, hlt⟩ := h.dismissed link hd
    refine ⟨(hr link).trans hq, fun ht => ?_, Nat.lt_of_lt_of_le hlt hl⟩
    rcases hs link ht with ht | ⟨hle, -⟩
    · exact hne ht
    · omega
  sender_lt link ht := by
    rcases hs link ht with ht | ⟨-, hlt⟩
    · exact Nat.lt_of_lt_of_le (h.sender_lt link ht) hl
    · exact hlt

/-- The same if the queues and the sender are left alone. -/
theorem Accounted.still (h : Accounted seen s) (hm : ∀ e ∈ more, e.isQueueing = false)
    (hr : ∀ link, t.requests link = s.requests link) (hl : t.links.length = s.links.length)
    (hs : t.sender = none ∨ t.sender = s.sender) : Accounted (seen ++ more) t := by
  refine h.quiet hm hr (Nat.le_of_eq hl.symm) fun link ht => ?_
  rcases hs with hs | hs
  · simp [hs] at ht
  · exact .inl (hs ▸ ht)

/-- A text is accepted for the link of the session. -/
theorem Accounted.send (h : Accounted seen s) (hs : s.sender = some link) (text : String) :
    Accounted (seen ++ [.queued link text]) (s.modifyLink link (·.request (.text text))) := by
  obtain ⟨l, hl⟩ : ∃ l, s.links[link]? = some l :=
    ⟨_, List.getElem?_eq_getElem (h.sender_lt link hs)⟩
  have hself : (s.modifyLink link (·.request (.text text))).requests link =
      s.requests link ++ [.text text] := by
    rw [requests_modifyLink_self _ hl, requests_eq hl, Link.requests_request]
  refine
    { orderly := fun k => ?_
      balance := fun k => ?_
      dismissed := fun k hd => ?_
      sender_lt := fun k hk => by simpa [modifyLink] using h.sender_lt k hk }
  · by_cases hk : link = k
    · subst hk
      rw [hself]
      exact ((h.orderly link).request hs text).mono id
    · rw [requests_modifyLink_other _ hk]
      exact (h.orderly k).mono id
  · by_cases hk : link = k
    · subst hk
      rw [hself]
      simp [h.balance, Request.text?]
    · rw [requests_modifyLink_other _ hk]
      simp [h.balance, hk]
  · have hd : .dismissed k ∈ seen := by simpa using hd
    obtain ⟨hq, hne, hlt⟩ := h.dismissed k hd
    have hk : link ≠ k := fun hk => hne (hk ▸ hs)
    exact ⟨(requests_modifyLink_other _ hk).trans hq, hne, by simpa [modifyLink] using hlt⟩

/-- The first text of a queue goes out. -/
theorem Accounted.write (h : Accounted seen s) {text : String} {rest : List Request}
    {fate : Fate} (hq : s.requests link = .text text :: rest) (hself : t.requests link = rest)
    (hother : ∀ k, link ≠ k → t.requests k = s.requests k)
    (hl : t.links.length = s.links.length) (hs : t.sender = s.sender) :
    Accounted (seen ++ [.write link text fate]) t := by
  refine
    { orderly := fun k => ?_
      balance := fun k => ?_
      dismissed := fun k hd => ?_
      sender_lt := fun k hk => by rw [hl]; exact h.sender_lt k (hs ▸ hk) }
  · by_cases hk : link = k
    · subst hk
      rw [hself]
      exact (hq ▸ h.orderly link).of_text.mono (hs ▸ ·)
    · rw [hother k hk]
      exact (h.orderly k).mono (hs ▸ ·)
  · by_cases hk : link = k
    · subst hk
      simp [hself, h.balance, hq, Request.text?]
    · simp [hother k hk, h.balance, hk]
  · have hd : .dismissed k ∈ seen := by simpa using hd
    obtain ⟨hk, hne, hlt⟩ := h.dismissed k hd
    have hlk : link ≠ k := fun hlk => by simp [← hlk, hq] at hk
    exact ⟨(hother k hlk).trans hk, hs ▸ hne, hl ▸ hlt⟩

/-- The wish to close a link is taken from its queue. -/
theorem Accounted.dismiss (h : Accounted seen s) {rest : List Request}
    (hq : s.requests link = .close :: rest) (hself : t.requests link = rest)
    (hother : ∀ k, link ≠ k → t.requests k = s.requests k)
    (hl : t.links.length = s.links.length) (hs : t.sender = s.sender)
    (hlt : link < s.links.length) : Accounted (seen ++ [.dismissed link]) t := by
  obtain ⟨rfl, hne⟩ := (hq ▸ h.orderly link).of_close
  refine
    { orderly := fun k => ?_
      balance := fun k => ?_
      dismissed := fun k hd => ?_
      sender_lt := fun k hk => by rw [hl]; exact h.sender_lt k (hs ▸ hk) }
  · by_cases hk : link = k
    · subst hk
      rw [hself]
      exact .texts []
    · rw [hother k hk]
      exact (h.orderly k).mono (hs ▸ ·)
  · by_cases hk : link = k
    · subst hk
      simp [hself, h.balance, hq, Request.text?]
    · simp [hother k hk, h.balance]
  · by_cases hk : link = k
    · subst hk
      exact ⟨hself, hs ▸ hne, hl ▸ hlt⟩
    · have hd : .dismissed k ∈ seen := by simpa [Ne.symm hk] using hd
      obtain ⟨hr, hnk, hlk⟩ := h.dismissed k hd
      exact ⟨(hother k hk).trans hr, hs ▸ hnk, hl ▸ hlk⟩

end Accounted

section Shift

variable {s : Socket} {seen : List Happening} {m : Move}

theorem requests_append (s : Socket) {l : Link} (hl : l.requests = []) (t : Socket)
    (ht : t.links = s.links ++ [l]) (link : Nat) : t.requests link = s.requests link := by
  simp only [requests, ht, List.getElem?_append]
  split
  next => rfl
  next hlt =>
    rw [List.getElem?_eq_none (Nat.le_of_not_lt hlt)]
    cases hk : link - s.links.length <;> simp [hl]

theorem Accounted.step (h : Accounted seen s) {now i : Nat} (hs : Stepped now i s m) :
    Accounted (seen ++ m.seen) m.socket := by
  cases hs
  case opened hp plan machine hm =>
    refine h.quiet (by simp [Happening.isQueueing]) (requests_append s rfl _ rfl)
      (by simp [setPhase, modifyDriver]) fun link ht => .inr ?_
    obtain rfl : s.links.length = link := by simpa [setPhase, modifyDriver] using ht
    simp [setPhase, modifyDriver]
  case superseded hp plan hm =>
    exact h.quiet (by simp [Happening.isQueueing]) (requests_append s rfl _ rfl)
      (by simp [setPhase, modifyDriver]) fun link ht => .inl ht
  case write link l text rest hp hl hr =>
    -- the queue is taken from first, then the write is counted
    let u := s.modifyLink link fun l => { l with requests := rest }
    have hu : ∀ k, (u.modifyLink link fun l => { l with writes := l.writes + 1 }).requests k =
        u.requests k := requests_modifyLink_of u link fun _ => rfl
    refine h.write ((requests_eq hl).trans hr) ?_ (fun k hk => ?_)
      (by simp [modifyLink, setPhase, modifyDriver]) rfl
    · exact (hu link).trans (requests_modifyLink_self _ hl)
    · exact (hu k).trans (requests_modifyLink_other _ hk)
  case dismissed link l rest hp hl hr =>
    have hd := h.dismiss (t := s.modifyLink link fun l => { l with requests := rest })
      ((requests_eq hl).trans hr) (requests_modifyLink_self _ hl)
      (fun k hk => requests_modifyLink_other _ hk) (by simp [modifyLink]) rfl
      (List.getElem?_eq_some_iff.mp hl).1
    have hc : Accounted (seen ++ [.dismissed link] ++ [.close link])
        ((s.modifyLink link fun l => { l with requests := rest }).leave now i link
          [.dismissed link]).socket :=
      hd.still (by simp [Happening.isQueueing]) (fun _ => rfl) rfl (.inr rfl)
    simpa [leave] using hc
  case read link l f rest c hp hl hin hc =>
    exact h.still (by simp [Happening.isQueueing]) (requests_modifyLink_of s link fun _ => rfl)
      (by simp [modifyLink]) (.inr rfl)
  case readLast link l item rest seen hp hl hin hc hlogs =>
    refine h.still ?_ (requests_modifyLink_of s link fun _ => rfl)
      (by simp [modifyLink, leave, setPhase, modifyDriver]) (.inr rfl)
    simpa [leave, Happening.isQueueing, or_imp, forall_and] using hlogs.eq_false fun _ => rfl
  case unwritten hp hlogs =>
    refine h.still ?_ (fun _ => rfl) rfl (.inr rfl)
    simpa [leave, Happening.isQueueing, or_imp, forall_and] using hlogs.eq_false fun _ => rfl
  case closed hp hm hlogs =>
    refine h.still ?_ (fun _ => rfl) rfl (.inl rfl)
    simpa [Happening.isQueueing] using hlogs.eq_false fun _ => rfl
  case release link answer deadline hp =>
    exact h.still (by simp [Socket.release, Happening.isQueueing])
      (requests_modifyLink_of s link fun _ => rfl)
      (by simp [Socket.release, modifyLink, setPhase, modifyDriver]) (.inr rfl)
  all_goals
    refine h.still ?_ (fun _ => rfl) rfl (.inr rfl)
    simp [Happening.isQueueing, Socket.attempt, Socket.rest, leave, Move.silent, logInfo]

/-- A teardown asks for the link of the session to be closed, if it is held. -/
theorem requests_teardown (now : Nat) (s : Socket) (link : Nat) :
    (s.teardown now).socket.requests link =
      s.requests link ++ if s.sender.filter s.isHeld = some link then [.close] else [] := by
  rw [requests, links_teardown]
  split
  next asked ha =>
    by_cases hk : asked = link
    · subst hk
      have hh : s.isHeld asked = true := (Option.filter_eq_some_iff.mp ha).2
      obtain ⟨l, hl⟩ : ∃ l, s.links[asked]? = some l := by
        cases hl : s.links[asked]? with
        | none => simp [isHeld, hl] at hh
        | some l => exact ⟨l, rfl⟩
      simp [ha, requests, hl]
    · simp [ha, requests, hk]
  next ha => simp [ha, requests]

theorem Accounted.teardown (h : Accounted seen s) (now : Nat) :
    Accounted (seen ++ (s.teardown now).seen) (s.teardown now).socket := by
  have hm : ∀ e ∈ (s.teardown now).seen, e.isQueueing = false := by
    simp only [Socket.teardown]
    split
    · simp
    · simp [logInfo, Happening.isQueueing]
  refine
    { orderly := fun k => ?_
      balance := fun k => ?_
      dismissed := fun k hd => ?_
      sender_lt := by simp [Socket.teardown] }
  · rw [requests_teardown]
    split
    next ha =>
      have hs : s.sender = some k := (Option.filter_eq_some_iff.mp ha).1
      have ho := h.orderly k
      generalize s.requests k = queue at ho
      cases ho with
      | texts ts => exact .closing ts (by simp [Socket.teardown])
      | closing ts hne => exact absurd hs hne
    next =>
      rw [List.append_nil]
      exact (h.orderly k).mono (by simp [Socket.teardown])
  · rw [requests_teardown, acceptedOn_append, writtenOn_append, acceptedOn_eq_nil hm,
      writtenOn_eq_nil hm, List.append_nil, List.append_nil, h.balance k]
    split <;> simp [Request.text?]
  · have hd : .dismissed k ∈ seen := by
      rcases List.mem_append.mp hd with hd | hd
      · exact hd
      · exact absurd (hm _ hd) (by simp [Happening.isQueueing])
    obtain ⟨hq, hne, hlt⟩ := h.dismissed k hd
    have ha : s.sender.filter s.isHeld ≠ some k := fun ha =>
      hne (Option.filter_eq_some_iff.mp ha).1
    refine ⟨by simp [requests_teardown, hq, ha], by simp [Socket.teardown], ?_⟩
    rw [length_links_teardown]
    exact hlt

theorem requests_arrive (s : Socket) (i : Nat) (item : Inbound) (link : Nat) :
    (s.arrive i item).requests link = s.requests link := by
  refine requests_modifyLink_of s i (fun l => ?_) link
  unfold Link.arrive
  split <;> rfl

/-- What can happen to a socket keeps the account of its queues. -/
theorem Accounted.shift (h : Accounted seen s) {b : Option Bool} (hs : Shift s b m) :
    Accounted (seen ++ m.seen) m.socket := by
  cases hs with
  | stay => exact h.still (by simp [Move.silent]) (fun _ => rfl) rfl (.inr rfl)
  | connect hc =>
    rw [connect_of_closed hc]
    exact h.still (by simp [Move.silent]) (fun _ => rfl) rfl (.inr rfl)
  | teardown now => exact h.teardown now
  | send hl => exact h.send hl _
  | step hm => exact h.step hm
  | discard ha =>
    unfold Socket.discard
    split
    next link hl =>
      exact h.still (by simp [Happening.isQueueing])
        (requests_modifyLink_of s link fun _ => rfl)
        (by simp [modifyLink, setPhase, modifyDriver]) (.inr rfl)
    next => exact h.still (by simp [Move.silent]) (fun _ => rfl) rfl (.inr rfl)
  | reap hr =>
    exact h.still (by simp [Socket.reap, logWarn, Happening.isQueueing]) (fun _ => rfl) rfl
      (.inr rfl)
  | arrive link item =>
    exact h.still (by simp [Move.silent]) (requests_arrive s link item)
      (by simp [Move.silent, Socket.arrive, modifyLink]) (.inr rfl)
  | hangUp link =>
    exact h.still (by simp [Move.silent]) (requests_modifyLink_of s link fun _ => rfl)
      (by simp [Move.silent, Socket.hangUp, modifyLink]) (.inr rfl)

end Shift

end Socket

end TwinLink
