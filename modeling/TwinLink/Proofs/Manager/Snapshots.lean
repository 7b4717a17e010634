import TwinLink.Proofs.Manager.Attendance

/-! Snapshots are delivered exactly once and in order. The frames that a driver hands over
while the live channel counts as connected, and that hold a snapshot, are emitted one by one,
over all links and sessions of a run; a frame that holds none is counted and nothing else
comes of it. With what listeners are called with, this is the whole way of a snapshot from its
frame to those who are registered. -/

namespace TwinLink

/-- What a frame holds for the live channel: a snapshot, or what is none. A text and the same
text in bytes hold the same. The frame that closes a link is not handed over. -/
def Frame.content? : Frame → Option (Option Snapshot)
  | text s => some (Snapshot.decode s).toOption
  | binary bytes =>
    match Text.Utf8.decode bytes with
    | .ok s => some (Snapshot.decode s).toOption
    | .error _ => some none
  | close => none

/-- The frame is handed over and holds no snapshot. -/
def Frame.isUndecodable (f : Frame) : Bool :=
  match f.content? with
  | some none => true
  | _ => false

/-- The snapshot that a callback of the live channel stands for. -/
def Feed.Meaning.snapshot? : Feed.Meaning → Option Snapshot
  | snapshot x => some x
  | _ => none

def Feed.Meaning.isFailure : Feed.Meaning → Bool
  | failure .. => true
  | _ => false

/-- The live channel hears of what a frame holds. -/
theorem Frame.content_meaning {f : Frame} {c : Socket.Callback} (h : f.callback? = some c) :
    f.content? = some (Feed.meaning c).snapshot? ∧
      f.isUndecodable = (Feed.meaning c).isFailure := by
  have htext (s : String) : (Snapshot.decode s).toOption =
      (Feed.meaning (.message s)).snapshot? ∧
        (match some (Snapshot.decode s).toOption with
          | some none => true
          | _ => false) = (Feed.meaning (.message s)).isFailure := by
    simp only [Feed.meaning]
    cases Snapshot.decode s <;> exact ⟨rfl, rfl⟩
  cases f with
  | close => cases h
  | text s =>
    cases h
    exact ⟨congrArg some (htext s).1, (htext s).2⟩
  | binary bytes =>
    simp only [callback?] at h
    simp only [isUndecodable, content?]
    cases hs : Text.Utf8.decode bytes with
    | ok s =>
      rw [hs] at h
      cases h
      exact ⟨congrArg some (htext s).1, (htext s).2⟩
    | error fault =>
      rw [hs] at h
      cases h
      exact ⟨rfl, rfl⟩

theorem Frame.content_of_silent {f : Frame} (h : f.callback? = none) : f.content? = none := by
  cases f with
  | text s => cases h
  | close => rfl
  | binary bytes =>
    simp only [callback?] at h
    split at h <;> cases h

namespace Socket

/-- A driver hands over one frame, or none; then only changes of status are told. -/
theorem Stepped.handed {now i : Nat} {s : Socket} {m : Move} (hs : Stepped now i s m) :
    (∃ link f c, f.callback? = some c ∧ m.seen = [.read link (.frame f)] ∧ m.callback = some c) ∨
      (∀ link f, .read link (.frame f) ∈ m.seen → f.callback? = none) ∧
        ∀ c ∈ m.callback, ∃ b, c = .status b := by
  cases hs
  case read link l f rest c _ _ _ hc => exact .inl ⟨link, f, c, hc, rfl, rfl⟩
  all_goals right
  case readLast hc hlogs =>
    refine ⟨fun link f hmem => ?_, by simp [leave]⟩
    have hitem := by simpa [leave, hlogs.not_mem] using hmem
    exact hc f hitem.2.symm
  case unwritten hlogs => exact ⟨by simp [leave, hlogs.not_mem], by simp [leave]⟩
  case closed hlogs => exact ⟨by simp [hlogs.not_mem], by simp⟩
  all_goals
    simp [Socket.attempt, Socket.rest, Socket.release, leave, Move.silent, logInfo]

end Socket

namespace Manager

open Socket World

variable {κ γ τ ν : Type} {C : Client κ γ τ ν}

/-- What a run tells of its own accord. -/
def notes (past : List (System κ γ τ ν × Entry (Note ν κ))) : List (Note ν κ) :=
  past.filterMap fun
    | (_, .note n) => some n
    | _ => none

/-- The frames that are read on the live channel, each with the state in which it is read. -/
def frames (past : List (System κ γ τ ν × Entry (Note ν κ))) : List (System κ γ τ ν × Frame) :=
  past.filterMap fun
    | (v, .socket .live (.read _ (.frame f))) => some (v, f)
    | _ => none

/-- The snapshots that are read while the live channel counts as connected. -/
def due (past : List (System κ γ τ ν × Entry (Note ν κ))) : List Snapshot :=
  (frames past).filterMap fun (v, f) =>
    if v.state.hub.liveConnected then f.content?.join else none

/-- The number of frames that are handed over and hold no snapshot. -/
def undecodable (past : List (System κ γ τ ν × Entry (Note ν κ))) : Nat :=
  (frames past).countP fun (_, f) => f.isUndecodable

/-- What the live channel hears first. -/
def heard : List (Task (Item κ γ)) → Option Feed.Meaning
  | .work (.heard .live c) :: _ => some (Feed.meaning c)
  | _ => none

/-- The snapshot that has been read and is to be emitted. -/
def pending (h : Hub κ) (tasks : List (Task (Item κ γ))) : List Snapshot :=
  if h.liveConnected then ((heard tasks).bind Feed.Meaning.snapshot?).toList else []

/-- The failures that are to be counted. -/
def failing (tasks : List (Task (Item κ γ))) : Nat :=
  ((heard tasks).filter Feed.Meaning.isFailure).toList.length

/-- A snapshot is the latest from its emission to the next one or to a disconnection. -/
def Note.latest : Option Snapshot → Note ν κ → Option Snapshot
  | _, emitted _ (.snapshot e) _ => some e.snapshot
  | _, disconnected => none
  | x, _ => x

/-- What becomes of the frames of the live channel in a run that has the history `past` and
ends in `w`. -/
structure Fed (past : List (System κ γ τ ν × Entry (Note ν κ))) (w : System κ γ τ ν) : Prop where
  /-- The snapshots that are due are emitted, one by one and in order. -/
  frames : due past =
    (snapshots (notes past)).map SnapshotEvent.snapshot ++ pending w.state.hub w.agenda
  /-- The other frames are counted, and nothing else. -/
  failures : undecodable past = w.state.hub.decodeFailures + failing w.agenda
  latest : w.state.hub.latest = (notes past).foldl Note.latest none
  /-- An emission calls those who are registered for it, each once and in order. -/
  audience : Audience (notes past) w.state.hub (calls w.agenda)
  /-- The snapshots are numbered, and a listener gets those of an interval. -/
  attended : Attended (notes past) w.state.hub (calls w.agenda)

section Heard

variable {v : View} {s : State κ τ} {item : Item κ γ}
  {o : Outcome (State κ τ) (Item κ γ) (Note ν κ)}

theorem Performed.snapshots (hp : Performed C v s item o) (rest : List (Task (Item κ γ))) :
    (Manager.snapshots o.notes).map SnapshotEvent.snapshot =
      pending s.hub (.work item :: rest) := by
  cases hp with
  | @changed k b =>
    cases k <;>
      simp [Manager.snapshots, emit, onHub, pending, heard, Feed.meaning, Feed.Meaning.snapshot?]
  | @known k b =>
    cases k <;>
      simp [Manager.snapshots, onHub, pending, heard, Feed.meaning, Feed.Meaning.snapshot?]
  | received hd hf =>
    simp [Manager.snapshots, emit, onHub, pending, heard, Feed.meaning, Feed.Meaning.snapshot?, hd,
      hf]
  | late hd hf => simp [Manager.snapshots, onHub, pending, hf]
  | failed h => simp [Manager.snapshots, onHub, pending, heard, h, Feed.Meaning.snapshot?]
  | unencoded | sent =>
    simp [Manager.snapshots, conclude, onHub, pending, heard, List.filterMap_map]
  | consulted | called =>
    simp [Manager.snapshots, consult, pending, heard, List.filterMap_map]
  | _ => simp [Manager.snapshots, onHub, pending, heard]

theorem Performed.decodeFailures (hp : Performed C v s item o) (rest : List (Task (Item κ γ))) :
    o.state.hub.decodeFailures = s.hub.decodeFailures + failing (.work item :: rest) := by
  cases hp with
  | @changed k b => cases k <;> rfl
  | @known k b => cases k <;> rfl
  | received hd | late hd =>
    simp [emit, onHub, failing, heard, Feed.meaning, hd, Feed.Meaning.isFailure]
  | failed h =>
    simp only [onHub, failing, heard, h]
    rfl
  | @watched k => cases k <;> rfl
  | _ => rfl

theorem foldl_latest {ns : List (Note ν κ)} (h : ∀ n ∈ ns, ∀ x, Note.latest x n = x)
    (x : Option Snapshot) : ns.foldl Note.latest x = x := by
  induction ns with
  | nil => rfl
  | cons n ns ih =>
    rw [List.foldl_cons, h n List.mem_cons_self]
    exact ih fun m hm => h m (List.mem_cons_of_mem n hm)

theorem Performed.latest (hp : Performed C v s item o) :
    o.state.hub.latest = o.notes.foldl Note.latest s.hub.latest := by
  cases hp with
  | @changed k b => cases k <;> rfl
  | @watched k => cases k <;> rfl
  | consulted | called =>
    exact (foldl_latest (by simp [consult, Note.latest]) _).symm
  | unencoded | sent =>
    exact (foldl_latest (by simp [conclude, onHub, Note.latest, or_imp, forall_and]) _).symm
  | _ => rfl

end Heard

section Step

variable {past : List (System κ γ τ ν × Entry (Note ν κ))} {w w' : System κ γ τ ν}
  {t : Turn κ γ} {done : Option (Task (Item κ γ))} {es : List (Entry (Note ν κ))}
  {tasks rest : List (Task (Item κ γ))}

/-- At most a change of status is to be heard first. -/
def Quiet (tasks : List (Task (Item κ γ))) : Prop := ∀ m ∈ heard tasks, ∃ b, m = .status b

theorem Quiet.pending (h : Quiet tasks) (hub : Hub κ) : pending hub tasks = [] := by
  unfold Manager.pending
  cases hm : heard tasks with
  | none => simp
  | some m =>
    obtain ⟨b, rfl⟩ := h m hm
    simp [Feed.Meaning.snapshot?]

theorem Quiet.failing (h : Quiet tasks) : failing tasks = 0 := by
  unfold Manager.failing
  cases hm : heard tasks with
  | none => rfl
  | some m =>
    obtain ⟨b, rfl⟩ := h m hm
    rfl

theorem quiet_of_not_heard (h : ∀ t ∈ tasks, isHeard t = false) : Quiet tasks := by
  cases tasks with
  | nil => simp [Quiet, heard]
  | cons t tasks =>
    have ht := h t List.mem_cons_self
    cases t with
    | work item => cases item <;> simp_all [Quiet, heard, isHeard]
    | _ => simp [Quiet, heard]

theorem quiet_hearing {k : ChannelKind} {c : Option Callback} (hc : ∀ c' ∈ c, ∃ b, c' = .status b)
    (h : ∀ t ∈ tasks, isHeard t = false) : Quiet (hearing (consumer C) k c ++ tasks) := by
  cases c with
  | none => exact quiet_of_not_heard h
  | some c =>
    obtain ⟨b, rfl⟩ := hc c rfl
    cases k <;> simp [Quiet, hearing, consumer, heard, Feed.meaning]

theorem calls_hearing (k : ChannelKind) (c : Option Callback) :
    calls (hearing (consumer C) k c ++ tasks) = calls tasks := by
  cases c <;> rfl

theorem notes_append (m : List (System κ γ τ ν × Entry (Note ν κ))) :
    notes (past ++ m) = notes past ++ notes m := List.filterMap_append

theorem frames_append (m : List (System κ γ τ ν × Entry (Note ν κ))) :
    Manager.frames (past ++ m) = Manager.frames past ++ Manager.frames m := List.filterMap_append

theorem notes_of_notes (ns : List (Note ν κ)) :
    notes ((ns.map Entry.note).map (w, ·)) = ns := by
  induction ns with
  | nil => rfl
  | cons n ns ih => exact congrArg (n :: ·) ih

theorem frames_of_notes (ns : List (Note ν κ)) :
    Manager.frames ((ns.map Entry.note).map (w, ·)) = [] := by
  simp [Manager.frames]

theorem notes_ofMove (k : ChannelKind) (m : Move) :
    notes ((Entry.ofMove (ε := Note ν κ) k m).map (w, ·)) = [] := by
  simp only [notes, Entry.ofMove, List.map_append, List.filterMap_append, List.append_eq_nil_iff]
  cases m.callback <;> simp

/-- A turn does an item, or it leaves the manager and its listeners alone. -/
theorem Took.item (ht : Took C w w' t done es) :
    (∃ item rest o, w.agenda = .work item :: rest ∧ Performed C w.view w.state item o ∧
      w'.state = o.state ∧ w'.agenda = o.next ++ rest ∧ notes (es.map (w, ·)) = o.notes) ∨
      w'.state = w.state ∧ calls w'.agenda = calls w.agenda ∧ notes (es.map (w, ·)) = [] ∧
        ∀ item, done ≠ some (.work item) := by
  cases ht with
  | outside hs ha => exact .inr ⟨hs, by rw [ha], rfl, by simp⟩
  | ask _ ha hw =>
    right
    rw [hw, ha]
    exact ⟨rfl, rfl, rfl, by simp⟩
  | work ha hp hw =>
    refine .inl ⟨_, _, _, ha, hp, ?_, ?_, notes_of_notes _⟩
    · rw [hw]
    · rw [hw]
  | connect ha hw | teardown ha hw =>
    right
    rw [hw, state_settle, agenda_settle, calls_hearing, ha]
    exact ⟨rfl, rfl, notes_ofMove _ _, by simp⟩
  | sent ha _ _ hw =>
    right
    rw [hw, state_settle, agenda_settle, calls_hearing, ha]
    exact ⟨rfl, rfl, notes_ofMove _ _, by simp⟩
  | refused ha _ _ hw =>
    right
    rw [hw, ha]
    exact ⟨rfl, rfl, rfl, by simp⟩
  | drive ha _ hu hw =>
    right
    rw [hw, state_settle, agenda_settle, calls_hearing, ha]
    rcases hu with rfl | rfl
    · exact ⟨rfl, by rw [ha], notes_ofMove _ _, by simp⟩
    · exact ⟨rfl, by rw [ha], notes_ofMove _ _, by simp⟩

theorem Took.callees (ht : Took C w w' t done es) (hn : ∀ item, done ≠ some (.work item)) :
    Manager.callees w'.agenda = Manager.callees w.agenda := by
  have hhearing (k : ChannelKind) (c : Option Callback) (tasks : List (Task (Item κ γ))) :
      Manager.callees (hearing (consumer C) k c ++ tasks) = Manager.callees tasks := by
    cases c <;> rfl
  cases ht with
  | outside _ ha => rw [ha]
  | work => exact absurd rfl (hn _)
  | ask _ ha hw | refused ha _ _ hw =>
    rw [hw, ha]
    rfl
  | connect ha hw | teardown ha hw | sent ha _ _ hw =>
    rw [hw, agenda_settle, hhearing, ha]
    rfl
  | drive _ _ hu hw =>
    rw [hw, agenda_settle, hhearing]
    rcases hu with rfl | rfl <;> rfl

/-- A turn keeps all this. -/
theorem Voices.took (h : Voices (notes past) w.state.hub w.agenda) (ht : Took C w w' t done es) :
    Voices (notes (past ++ es.map (w, ·))) w'.state.hub w'.agenda := by
  rcases ht.item with ⟨item, rest, o, hagenda, hp, hs, hagenda', hn⟩ | ⟨hs, -, hn, hd⟩
  · rw [hagenda] at h
    rw [notes_append, hn, hs, hagenda']
    exact hp.effect.voices h
  · rw [notes_append, hn, List.append_nil, hs]
    exact { h with waiting := fun x hx => h.waiting x (ht.callees hd ▸ hx) }

/-- The frames of a move are those that it reads, on the live channel. -/
theorem mem_frames_ofMove {k : ChannelKind} {m : Move} {x : System κ γ τ ν × Frame}
    (h : x ∈ Manager.frames ((Entry.ofMove (ε := Note ν κ) k m).map (w, ·))) :
    k = .live ∧ ∃ link, .read link (.frame x.2) ∈ m.seen := by
  obtain ⟨⟨v, e⟩, hmem, hx⟩ := List.mem_filterMap.mp h
  obtain ⟨e', he, hpair⟩ := List.mem_map.mp hmem
  cases hpair
  rcases List.mem_append.mp he with he | he
  · obtain ⟨y, hy, rfl⟩ := List.mem_map.mp he
    cases k with
    | command => simp at hx
    | live =>
      split at hx
      next link f heq =>
        cases heq
        cases hx
        exact ⟨rfl, link, hy⟩
      next => cases hx
  · cases hc : m.callback with
    | none => simp [hc] at he
    | some c =>
      obtain rfl : e = .callback k c := by simpa [hc] using he
      cases hx

/-- Where nothing is handed over and nothing told, all stays as it is. -/
theorem Fed.quiet (h : Fed past w) (hs : w'.state = w.state) (hn : notes (es.map (w, ·)) = [])
    (hf : ∀ x ∈ Manager.frames (es.map (w, ·)), x.2.callback? = none)
    (hc : calls w'.agenda = calls w.agenda) (hq : Quiet w.agenda) (hq' : Quiet w'.agenda) :
    Fed (past ++ es.map (w, ·)) w' := by
  have hnotes : notes (past ++ es.map (w, ·)) = notes past := by
    rw [notes_append, hn, List.append_nil]
  have hframes : due (past ++ es.map (w, ·)) = due past := by
    have hnone : (Manager.frames (es.map (w, ·))).filterMap (fun (v, f) =>
        if v.state.hub.liveConnected then f.content?.join else none) = [] := by
      rw [List.filterMap_eq_nil_iff]
      intro x hx
      simp [Frame.content_of_silent (hf x hx)]
    rw [due, frames_append, List.filterMap_append, hnone, List.append_nil]
    rfl
  have hundecodable : undecodable (past ++ es.map (w, ·)) = undecodable past := by
    have hnone : (Manager.frames (es.map (w, ·))).countP (fun (_, f) => f.isUndecodable) = 0 := by
      rw [List.countP_eq_zero]
      intro x hx
      simp [Frame.isUndecodable, Frame.content_of_silent (hf x hx)]
    rw [undecodable, frames_append, List.countP_append, hnone]
    rfl
  refine
    { frames := ?_
      failures := ?_
      latest := by rw [hs, hnotes]; exact h.latest
      audience := by rw [hs, hnotes, hc]; exact h.audience
      attended := by rw [hs, hnotes, hc]; exact h.attended }
  · rw [hframes, hnotes, hq'.pending, ← hq.pending w.state.hub]
    exact h.frames
  · rw [hundecodable, hs, hq'.failing, ← hq.failing]
    exact h.failures

/-- Only a message that has been heard makes a snapshot be emitted. -/
theorem Performed.of_snapshot {v : View} {s : State κ τ} {item : Item κ γ}
    {o : Outcome (State κ τ) (Item κ γ) (Note ν κ)} (hp : Performed C v s item o) {n : Nat}
    {e : SnapshotEvent} {ids : List Nat} (h : .emitted n (.snapshot e) ids ∈ o.notes) :
    ∃ text, item = .heard .live (.message text) := by
  cases hp with
  | received => exact ⟨_, rfl⟩
  | _ => simp [emit, onHub, consult, conclude] at h

theorem Fed.work (h : Fed past w) (hs : Shaped w.agenda) {item : Item κ γ}
    {o : Outcome (State κ τ) (Item κ γ) (Note ν κ)} (ha : w.agenda = .work item :: rest)
    (hp : Performed C w.view w.state item o)
    (hw : w' = { w.record (o.notes.map .note) with state := o.state, agenda := o.next ++ rest }) :
    Fed (past ++ (o.notes.map Entry.note).map (w, ·)) w' := by
  rw [ha] at hs
  have hagenda : w'.agenda = o.next ++ rest := by rw [hw]
  have hstate : w'.state = o.state := by rw [hw]
  have hnotes : notes (past ++ (o.notes.map Entry.note).map (w, ·)) = notes past ++ o.notes := by
    rw [notes_append, notes_of_notes]
  have hframes : Manager.frames (past ++ (o.notes.map Entry.note).map (w, ·)) =
      Manager.frames past := by
    rw [frames_append, frames_of_notes, List.append_nil]
  have hquiet : Quiet (o.next ++ rest) :=
    quiet_of_not_heard (List.forall_mem_append.mpr ⟨hp.not_heard, hs.tail_not_heard⟩)
  have haudience := h.audience
  have hattended := h.attended
  rw [ha] at haudience hattended
  obtain ⟨hnew, hnew'⟩ := hp.effect.kept haudience hattended fun n e ids hmem => by
    obtain ⟨text, rfl⟩ := hp.of_snapshot hmem
    rw [hs.of_heard (by simp)]
    rfl
  refine
    { frames := ?_
      failures := ?_
      latest := by rw [hstate, hnotes, List.foldl_append, ← h.latest]; exact hp.latest
      audience := by rw [hnotes, hstate, hagenda]; exact hnew
      attended := by rw [hnotes, hstate, hagenda]; exact hnew' }
  · rw [due, hframes, hnotes, snapshots_append, List.map_append, hp.snapshots rest, hagenda,
      hquiet.pending, List.append_nil, ← ha]
    exact h.frames
  · rw [undecodable, hframes, hstate, hagenda, hquiet.failing, hp.decodeFailures rest, ← ha]
    exact h.failures

/-- A frame is handed over; it is to be heard next. -/
theorem Fed.read (h : Fed past w) (ha : w.agenda = []) {link : Nat} {f : Frame} {c : Callback}
    (hc : f.callback? = some c) (hs : w'.state = w.state)
    (ha' : w'.agenda = [.work (.heard .live c)]) :
    Fed (past ++ [(w, .socket .live (.read link (.frame f))), (w, .callback .live c)]) w' := by
  obtain ⟨hcontent, hundecodable⟩ := Frame.content_meaning hc
  have hnotes : notes (past ++
      [(w, .socket .live (.read link (.frame f))), (w, .callback .live c)]) = notes past := by
    rw [notes_append]
    exact List.append_nil _
  have hframes : Manager.frames (past ++
      [(w, .socket .live (.read link (.frame f))), (w, .callback .live c)]) =
        Manager.frames past ++ [(w, f)] := frames_append _
  have hheard : heard w'.agenda = some (Feed.meaning c) := by rw [ha']; rfl
  have hq : Quiet w.agenda := by simp [Quiet, ha, heard]
  refine
    { frames := ?_
      failures := ?_
      latest := by rw [hs, hnotes]; exact h.latest
      audience := ?_
      attended := ?_ }
  · have hold := h.frames
    rw [hq.pending, List.append_nil] at hold
    rw [due, hframes, List.filterMap_append, hnotes, ← hold, due, pending, hheard, hs]
    congr 1
    cases hl : w.state.hub.liveConnected <;> cases hx : (Feed.meaning c).snapshot? <;>
      simp [hl, hcontent, hx]
  · have hold := h.failures
    rw [hq.failing, Nat.add_zero] at hold
    rw [undecodable, hframes, List.countP_append, hs, ← hold, undecodable, failing, hheard]
    congr 1
    cases hm : (Feed.meaning c).isFailure <;> simp [hundecodable, hm, Option.filter]
  · rw [hnotes, hs, ha']
    have haud := h.audience
    rwa [ha] at haud
  · rw [hnotes, hs, ha']
    have hatt := h.attended
    rwa [ha] at hatt

theorem not_read_of_connect (s : Socket) (link : Nat) (item : Inbound) :
    .read link item ∉ s.connect.seen := by
  unfold Socket.connect
  split <;> simp [Move.silent]

theorem not_read_of_teardown (now : Nat) (s : Socket) (link : Nat) (item : Inbound) :
    .read link item ∉ (s.teardown now).seen := by
  simp only [Socket.teardown]
  split <;> simp [logInfo]

theorem Driven.handed {k : ChannelKind} {m : Move} (h : Driven w k m) :
    (∃ link f c, f.callback? = some c ∧ m.seen = [.read link (.frame f)] ∧ m.callback = some c) ∨
      (∀ link f, .read link (.frame f) ∈ m.seen → f.callback? = none) ∧
        ∀ c ∈ m.callback, ∃ b, c = .status b := by
  cases h with
  | step hr hs => exact hs.handed
  | reap => exact .inr ⟨by simp [Socket.reap, logWarn], by simp [Socket.reap]⟩
  | discard =>
    right
    unfold Socket.discard
    split <;> exact ⟨by simp [Move.silent], by simp [Move.silent]⟩

theorem Fed.took (h : Fed past w) (hs : Shaped w.agenda) (ht : Took C w w' t done es) :
    Fed (past ++ es.map (w, ·)) w' := by
  have hnone {k : ChannelKind} {m : Move}
      (hm : ∀ link f, .read link (.frame f) ∈ m.seen → f.callback? = none) :
      ∀ x ∈ Manager.frames ((Entry.ofMove (ε := Note ν κ) k m).map (w, ·)),
        x.2.callback? = none := by
    intro x hx
    obtain ⟨-, link, hmem⟩ := mem_frames_ofMove hx
    exact hm link _ hmem
  cases ht with
  | outside hstate ha =>
    rw [List.map_nil, List.append_nil]
    exact
      { frames := by rw [hstate, ha]; exact h.frames
        failures := by rw [hstate, ha]; exact h.failures
        latest := by rw [hstate]; exact h.latest
        audience := by rw [hstate, ha]; exact h.audience
        attended := by rw [hstate, ha]; exact h.attended }
  | ask r ha hw =>
    refine h.quiet (by rw [hw]) rfl (by simp [Manager.frames]) ?_ (by simp [Quiet, ha, heard]) ?_
    · rw [hw, ha]
      rfl
    · simp [Quiet, hw, request, heard]
  | work ha hp hw => exact h.work hs ha hp hw
  | @connect _ k rest ha hw =>
    rw [ha] at hs
    have hagenda : w'.agenda = rest := by
      rw [hw, agenda_settle, callback_connect]
      rfl
    refine h.quiet (by rw [hw, state_settle]) (notes_ofMove _ _)
      (hnone fun link f hmem => absurd hmem (not_read_of_connect _ _ _)) ?_ ?_ ?_
    · rw [hagenda, ha]
      rfl
    · simp [Quiet, ha, heard]
    · rw [hagenda]
      exact quiet_of_not_heard hs.tail_not_heard
  | @teardown _ k rest ha hw =>
    rw [ha] at hs
    have hagenda : w'.agenda =
        hearing (consumer C) k ((w.socket k).teardown w.now).callback ++ rest := by
      rw [hw, agenda_settle]
    refine h.quiet (by rw [hw, state_settle]) (notes_ofMove _ _)
      (hnone fun link f hmem => absurd hmem (not_read_of_teardown _ _ _ _)) ?_ ?_ ?_
    · rw [hagenda, calls_hearing, ha]
      rfl
    · simp [Quiet, ha, heard]
    · rw [hagenda]
      exact quiet_hearing (fun c hc => ⟨false, (callback_teardown hc).2⟩) hs.tail_not_heard
  | @sent _ c text rest m ha he hm hw =>
    rw [ha] at hs
    have hagenda : w'.agenda = .work (.sent c (.ok ())) :: rest := by
      rw [hw, agenda_settle, send_callback hm]
      rfl
    obtain ⟨link, -, -, -, rfl⟩ := send_eq_ok.mp hm
    refine h.quiet (by rw [hw, state_settle]) (notes_ofMove _ _) (hnone (by simp)) ?_ ?_ ?_
    · rw [hagenda, ha]
      rfl
    · simp [Quiet, ha, heard]
    · simp [Quiet, hagenda, heard]
  | @refused _ c text rest e ha he hm hw =>
    refine h.quiet (by rw [hw]) rfl (by simp [Manager.frames]) ?_ ?_ ?_
    · rw [hw, ha]
      rfl
    · simp [Quiet, ha, heard]
    · simp [Quiet, hw, heard]
  | @drive _ u k m ha hd hu hw =>
    have hu' : u.agenda = [] ∧ u.state = w.state := by
      rcases hu with rfl | rfl <;> exact ⟨ha, rfl⟩
    have hagenda : w'.agenda = hearing (consumer C) k m.callback := by
      rw [hw, agenda_settle, hu'.1, List.append_nil]
    have hstate : w'.state = w.state := by rw [hw, state_settle, hu'.2]
    have hq : Quiet w.agenda := by simp [Quiet, ha, heard]
    have hcalls : calls w'.agenda = calls w.agenda := by
      rw [hagenda, ha, ← List.append_nil (hearing (consumer C) k m.callback)]
      exact calls_hearing k m.callback
    rcases hd.handed with ⟨link, f, c, hc, hseen, hcall⟩ | ⟨hread, hstatus⟩
    · rw [hcall] at hagenda
      cases k with
      | live =>
        have hes : Entry.ofMove (ε := Note ν κ) .live m =
            [.socket .live (.read link (.frame f)), .callback .live c] := by
          rw [Entry.ofMove, hseen, hcall]
          rfl
        rw [hes]
        exact h.read ha hc hstate hagenda
      | command =>
        refine h.quiet hstate (notes_ofMove _ _) (fun x hx => ?_) hcalls hq ?_
        · cases (mem_frames_ofMove hx).1
        · rw [hagenda]
          simp [Quiet, hearing, consumer, heard]
    · refine h.quiet hstate (notes_ofMove _ _) (hnone hread) hcalls hq ?_
      rw [hagenda, ← List.append_nil (hearing (consumer C) k m.callback)]
      exact quiet_hearing hstatus (by simp)

end Step

/-- Nobody is called but who is registered, by the number of the registration. -/
theorem run_voices (C : Client κ γ τ ν) (c : Config) (live command : List (Reply Answer))
    (client : τ) (turns : List (Turn κ γ)) :
    let w : System κ γ τ ν := ofConfig c live command client
    Voices (notes (history C turns w)) (run C turns w).state.hub (run C turns w).agenda := by
  intro w
  refine run_invariant C (P := fun _ past w => Voices (notes past) w.state.hub w.agenda)
    (fun _ past w w' t done es _ ht _ h => h.took ht) turns w
    (shaped_ofConfig c live command client)
    ?_
  rw [agenda_ofConfig c live command client, state_ofConfig c live command client]
  exact voices_empty

/-- Whatever happens in a run, in any order and over any number of links, every snapshot that
is due is emitted once, with its number, to those who are registered for it, and every listener
gets the snapshots of an interval. Who is called is the listener that was registered. -/
theorem run_fed (C : Client κ γ τ ν) (c : Config) (live command : List (Reply Answer)) (client : τ)
    (turns : List (Turn κ γ)) :
    let w : System κ γ τ ν := ofConfig c live command client
    Fed (history C turns w) (run C turns w) ∧
      Voices (notes (history C turns w)) (run C turns w).state.hub (run C turns w).agenda := by
  intro w
  refine ⟨?_, run_voices C c live command client turns⟩
  have ha : w.agenda = [] := agenda_ofConfig c live command client
  have hs : w.state = ⟨.empty, client⟩ := state_ofConfig c live command client
  have hempty (topic : Option ChannelKind) : ((Hub.empty : Hub κ).roster topic).ids = [] := by
    rcases topic with _ | k
    · rfl
    · cases k <;> rfl
  refine run_invariant C (P := fun _ => Fed) (fun _ past w w' t done es hshape ht _ h =>
    h.took hshape ht) turns w (shaped_ofConfig c live command client) ?_
  exact
    { frames := by rw [ha, hs]; rfl
      failures := by rw [ha, hs]; rfl
      latest := by rw [hs]; rfl
      audience :=
        { roster := fun topic => by rw [hs, hempty]; rfl
          known := fun topic => by rw [hs, hempty]; simp
          nodup := fun topic => by rw [hs, hempty]; simp
          numbers := by rw [hs]; rfl
          addressed := each_nil _
          complete := by simp [Manager.notes, Manager.emitted]
          sound := fun n _ => by rw [ha]; rfl }
      attended :=
        { numbers := by rw [hs]; rfl
          unknown := by simp [Manager.notes]
          present := fun id => by rw [hs]; simp [Manager.notes, since, Hub.empty]
          interval := fun id => by rw [ha]; rfl } }

end Manager

end TwinLink
