import Mathlib.Data.List.Induction
import TwinLink.Machine

/-! The sessions of a machine, over all runs of its calls. A session begins on a closed machine
and has a generation that no session before it had, as long as generations do not wrap around.
Main statement: whatever generations calls come with, late or made up, only those of the session
are accepted; what is accepted for one session goes round the cycle of connecting, being open
and being closed, and what is refused changes nothing. -/

namespace TwinLink.Machine

/-- The generation that a call is made with. -/
def Call.generation? : Call → Option UInt64
  | onOpen g | onClose g | onRetry g => some g
  | beginOpen | teardown => none

/-- A call that may begin or end a session, and use up a generation. -/
def Call.renews : Call → Bool
  | beginOpen | teardown => true
  | _ => false

/-- The state in which a call of the session is accepted. -/
def Call.fits : Call → State → Bool
  | onOpen _, s => s == .connecting
  | onClose _, s => s != .closed
  | onRetry _, s | beginOpen, s => s == .closed
  | teardown, _ => true

/-- The calls of a run with their answers. -/
def transcript : List Call → Machine → List (Call × Answer)
  | [], _ => []
  | c :: calls, m => (c, (c.run m).2) :: transcript calls (c.run m).1

/-- The generations of the sessions that have begun. -/
def begun (past : List (Call × Answer)) : List UInt64 :=
  past.filterMap fun
    | (_, .began g) => some g
    | _ => none

/-- The session that has begun last, unless a teardown has come since. -/
def session (past : List (Call × Answer)) : Option UInt64 :=
  past.foldl (fun current e => match e.2 with
    | .began g => some g
    | .tornDown _ => none
    | _ => current) none

/-- What a session passes through once it has begun. -/
inductive Passage where
  | opened
  | lost (wasOpen : Bool)
  | retried
  deriving DecidableEq

/-- The passage for which an accepted call stands. -/
def passage? : Call × Answer → Option Passage
  | (.onOpen _, .accepted) => some .opened
  | (.onClose _, .reconnect closing) => some (.lost closing.wasOpen)
  | (.onRetry _, .accepted) => some .retried
  | _ => none

/-- What has been accepted with the generation `g`. -/
def passages (g : UInt64) (past : List (Call × Answer)) : List Passage :=
  (past.filter fun e => e.1.generation? == some g).filterMap passage?

/-- The cycle of a session: it connects, is open, is closed and connects again. An attempt that
fails is closed without having been open. -/
def State.pass : State → Passage → Option State
  | connecting, .opened => some opened
  | opened, .lost true | connecting, .lost false => some closed
  | closed, .retried => some connecting
  | _, _ => none

/-- Where a session has come that has passed through all this, if the cycle allows it. -/
def travel (ps : List Passage) : Option State := ps.foldlM State.pass .connecting

/-- How a machine keeps to its sessions. It has come to be `m` in a run with the transcript
`past`, and `c` is what is asked next. -/
structure Disciplined (past : List (Call × Answer)) (m : Machine) (c : Call) : Prop where
  /-- A session begins exactly on a closed machine, and is newer than all before. -/
  begins : c = .beginOpen →
    if m.state = .closed then ∃ g, (c.run m).2 = .began g ∧ ∀ g' ∈ begun past, g' < g
    else (c.run m).2 = .refused
  /-- Only the session is heeded, and only where it stands. -/
  heeded : ∀ g, c.generation? = some g →
    ((c.run m).2 ≠ .refused ↔ session past = some g ∧ c.fits m.state = true)
  refused : (c.run m).2 = .refused → (c.run m).1 = m
  cycle : ∀ g ∈ begun past, ∃ s, travel (passages g past) = some s ∧
    (session past = some g → s = m.state)
  unknown : ∀ g, g ∉ begun past → g ≠ 0 → passages g past = []
  /-- A session was open when it was closed exactly if it had just opened. -/
  wasOpen : ∀ g ∈ begun past, ∀ before b after, passages g past = before ++ .lost b :: after →
    (b = true ↔ before.getLast? = some .opened)
  /-- Without a session a machine is closed, and it is without one once it has been torn down. -/
  idle : session past = none → m.state = .closed
  tornDown : m.tornDown = true → session past = none
  /-- A second teardown changes nothing. -/
  again : run [.teardown, .teardown] m = run [.teardown] m

/-! ### Transcripts -/

section Transcript

variable {past : List (Call × Answer)} {c : Call} {a : Answer}

theorem transcript_append_one (calls : List Call) (m : Machine) :
    transcript (calls ++ [c]) m = transcript calls m ++ [(c, (c.run (run calls m)).2)] := by
  induction calls generalizing m with
  | nil => rfl
  | cons c' calls ih =>
    rw [List.cons_append, transcript, ih, transcript]
    rfl

theorem begun_append_one (past : List (Call × Answer)) (e : Call × Answer) :
    begun (past ++ [e]) = begun past ++ begun [e] := List.filterMap_append

theorem passages_append_one (g : UInt64) (past : List (Call × Answer)) (e : Call × Answer) :
    passages g (past ++ [e]) = passages g past ++ passages g [e] := by
  rw [passages, List.filter_append, List.filterMap_append, passages, passages]

theorem session_append_one (past : List (Call × Answer)) (e : Call × Answer) :
    session (past ++ [e]) = match e.2 with
      | .began g => some g
      | .tornDown _ => none
      | _ => session past := by
  rw [session, List.foldl_append]
  rfl

theorem passages_other {g : UInt64} (h : c.generation? ≠ some g) : passages g [(c, a)] = [] := by
  have hne : (c.generation? == some g) = false := beq_false_of_ne h
  simp [passages, hne]

theorem passages_self {g : UInt64} (h : c.generation? = some g) :
    passages g [(c, a)] = (passage? (c, a)).toList := by
  cases hp : passage? (c, a) <;> simp [passages, h, hp]

/-- The session is one of those that have begun. -/
theorem mem_begun_of_session {g : UInt64} (h : session past = some g) : g ∈ begun past := by
  induction past using List.reverseRecOn with
  | nil => cases h
  | append_singleton past e ih =>
    rw [session_append_one] at h
    rw [begun_append_one, List.mem_append]
    split at h
    next g' he =>
      obtain rfl := Option.some.inj h
      obtain ⟨c, a⟩ := e
      cases he
      exact .inr List.mem_cons_self
    next => cases h
    next => exact .inl (ih h)

end Transcript

/-! ### The cycle -/

section Cycle

variable {ps : List Passage} {p : Passage} {s s' : State}

theorem travel_append_one (ps : List Passage) (p : Passage) :
    travel (ps ++ [p]) = (travel ps).bind (·.pass p) := by
  rw [travel, List.foldlM_append]
  cases h : travel ps <;> simp [travel] at h <;> simp [h]

theorem pass_eq_opened (h : s'.pass p = some s) : s = .opened ↔ p = .opened := by
  rcases p with _ | b | _ <;> cases s' <;> try cases b
  all_goals simp_all [State.pass] <;> simp [← h]

theorem pass_lost {b : Bool} (h : s'.pass (.lost b) = some s) : b = true ↔ s' = .opened := by
  cases s' <;> cases b <;> simp_all [State.pass]

/-- A session is open exactly when it has just opened. -/
theorem travel_eq_opened (h : travel ps = some s) : s = .opened ↔ ps.getLast? = some .opened := by
  rcases List.eq_nil_or_concat ps with rfl | ⟨qs, p, rfl⟩
  · obtain rfl : State.connecting = s := Option.some.inj h
    simp
  · rw [List.concat_eq_append] at h ⊢
    rw [travel_append_one, Option.bind_eq_some_iff] at h
    obtain ⟨s', -, hp⟩ := h
    rw [List.getLast?_concat, Option.some.injEq]
    exact pass_eq_opened hp

theorem travel_lost {before after : List Passage} {b : Bool}
    (h : travel (before ++ .lost b :: after) = some s) :
    b = true ↔ before.getLast? = some .opened := by
  rw [travel, List.foldlM_append, Option.bind_eq_bind, Option.bind_eq_some_iff] at h
  obtain ⟨s', hs', h⟩ := h
  rw [List.foldlM_cons, Option.bind_eq_bind, Option.bind_eq_some_iff] at h
  obtain ⟨s'', hp, -⟩ := h
  exact (pass_lost hp).trans (travel_eq_opened hs')

end Cycle

/-! ### What a call does -/

section Run

variable {m n : Machine} {c : Call} {past : List (Call × Answer)}

/-- What a call can do to a machine, and its answer. -/
inductive Asked (m : Machine) : Call → Machine → Answer → Prop where
  | refused {c : Call} (hc : c ≠ .teardown) (hb : c = .beginOpen → m.state ≠ .closed)
      (hg : ∀ g, c.generation? = some g → ¬(m.isCurrent g = true ∧ c.fits m.state = true)) :
      Asked m c m .refused
  | began (hs : m.state = .closed) :
      Asked m .beginOpen
        { m with state := .connecting, generation := m.generation + 1, tornDown := false }
        (.began (m.generation + 1))
  | passed {c : Call} {g n a p} (hc : c.generation? = some g) (hm : m.isCurrent g = true)
      (hf : c.fits m.state = true) (hp : passage? (c, a) = some p)
      (hs : m.state.pass p = some n.state) (hg : n.generation = m.generation)
      (ht : n.tornDown = m.tornDown) : Asked m c n a
  | tornDown : Asked m .teardown m.teardown (.tornDown m.state)

theorem run_asked (m : Machine) (c : Call) : Asked m c (c.run m).1 (c.run m).2 := by
  cases c with
  | teardown => exact .tornDown
  | beginOpen =>
    cases h : m.beginOpen with
    | none =>
      simp only [Call.run, h, Option.elim_none]
      refine .refused (by simp) (fun _ hs => ?_) (by simp [Call.generation?])
      simp [beginOpen, hs, State.isLive] at h
    | some n =>
      obtain ⟨hs, rfl⟩ := beginOpen_eq_some.mp h
      simp only [Call.run, h, Option.elim_some]
      exact .began hs
  | onOpen g =>
    cases h : m.onOpen g with
    | none =>
      simp only [Call.run, h, Option.elim_none]
      refine .refused (by simp) (by simp) fun g' hg => ?_
      obtain rfl := Option.some.inj hg
      simpa [onOpen, Call.fits] using h
    | some n =>
      obtain ⟨hc, hs, rfl⟩ := onOpen_eq_some.mp h
      simp only [Call.run, h, Option.elim_some]
      exact .passed rfl hc (by simp [Call.fits, hs]) rfl (by rw [hs]; rfl) rfl rfl
  | onClose g =>
    cases h : m.onClose g with
    | none =>
      simp only [Call.run, h, Option.elim_none]
      refine .refused (by simp) (by simp) fun g' hg => ?_
      obtain rfl := Option.some.inj hg
      simpa [onClose, Call.fits] using h
    | some r =>
      obtain ⟨hc, hs, rfl⟩ := onClose_eq_some.mp h
      simp only [Call.run, h, Option.elim_some]
      refine .passed rfl hc (by simpa [Call.fits] using hs) rfl ?_ rfl rfl
      cases hst : m.state with
      | closed => exact absurd hst hs
      | _ => rfl
  | onRetry g =>
    cases h : m.onRetry g with
    | none =>
      simp only [Call.run, h, Option.elim_none]
      refine .refused (by simp) (by simp) fun g' hg => ?_
      obtain rfl := Option.some.inj hg
      simpa [onRetry, Call.fits] using h
    | some n =>
      obtain ⟨hc, hs, rfl⟩ := onRetry_eq_some.mp h
      simp only [Call.run, h, Option.elim_some]
      exact .passed rfl hc (by simp [Call.fits, hs]) rfl (by rw [hs]; rfl) rfl rfl

/-- What the transcript of a run says about the machine. The generation 0 is that of a machine
of which nothing has been asked. -/
structure Recorded (past : List (Call × Answer)) (m : Machine) : Prop where
  bounded : m.generation.toNat ≤ past.countP fun e => e.1.renews
  older : ∀ g ∈ begun past, g ≤ m.generation
  session : session past = if m.tornDown ∨ m.generation = 0 then none else some m.generation
  idle : m.tornDown = true ∨ m.generation = 0 → m.state = .closed
  cycle : ∀ g ∈ begun past, ∃ s, travel (passages g past) = some s ∧
    (Machine.session past = some g → s = m.state)
  unknown : ∀ g, g ∉ begun past → g ≠ 0 → passages g past = []

theorem Recorded.isCurrent_iff (h : Recorded past m) {g : UInt64} (hg : g ≠ 0) :
    m.isCurrent g = true ↔ Machine.session past = some g := by
  rw [Machine.isCurrent_iff, h.session]
  split
  next hn =>
    rcases hn with ht | h0
    · simp [ht]
    · simp [h0, hg.symm]
  next hn => simp_all

/-- A call that neither begins a session nor ends one. -/
theorem Recorded.still {a : Answer} (h : Recorded past m)
    (hb : begun [(c, a)] = []) (hs : Machine.session (past ++ [(c, a)]) = Machine.session past)
    (hg : n.generation = m.generation) (ht : n.tornDown = m.tornDown)
    (hi : m.tornDown = true ∨ m.generation = 0 → n.state = .closed)
    (hc : ∀ g ∈ begun past, ∃ s, travel (passages g (past ++ [(c, a)])) = some s ∧
      (Machine.session past = some g → s = n.state))
    (hu : ∀ g, g ∉ begun past → g ≠ 0 → passages g [(c, a)] = []) :
    Recorded (past ++ [(c, a)]) n where
  bounded := by
    rw [hg, List.countP_append]
    exact Nat.le_add_right_of_le h.bounded
  older g hmem := by
    rw [begun_append_one, hb, List.append_nil] at hmem
    rw [hg]
    exact h.older g hmem
  session := by rw [hs, hg, ht, h.session]
  idle := by rw [hg, ht]; exact hi
  cycle g hmem := by
    rw [begun_append_one, hb, List.append_nil] at hmem
    rw [hs]
    exact hc g hmem
  unknown g hmem h0 := by
    rw [begun_append_one, hb, List.append_nil] at hmem
    rw [passages_append_one, h.unknown g hmem h0, hu g hmem h0, List.append_nil]

/-- A generation that is used up does not wrap around. -/
theorem Recorded.toNat_succ (h : Recorded past m)
    (hb : (past.countP fun e => e.1.renews) + 1 < UInt64.size) :
    (m.generation + 1).toNat = m.generation.toNat + 1 := by
  have hle := h.bounded
  rw [UInt64.toNat_add, UInt64.toNat_one]
  exact Nat.mod_eq_of_lt (by rw [UInt64.size] at hb; omega)

theorem Recorded.began (h : Recorded past m)
    (hb : (past.countP fun e => e.1.renews) + 1 < UInt64.size) :
    Recorded (past ++ [(.beginOpen, .began (m.generation + 1))])
      { m with state := .connecting, generation := m.generation + 1, tornDown := false } := by
  have hsucc := h.toNat_succ hb
  have hbegun : begun (past ++ [(.beginOpen, .began (m.generation + 1))]) =
      begun past ++ [m.generation + 1] := begun_append_one _ _
  have hsession : Machine.session (past ++ [(.beginOpen, .began (m.generation + 1))]) =
      some (m.generation + 1) := session_append_one _ _
  have hpassages (g : UInt64) : passages g (past ++ [(.beginOpen, .began (m.generation + 1))]) =
      passages g past := by
    rw [passages_append_one, passages_other (by simp [Call.generation?]), List.append_nil]
  -- it is the generation of no session before
  have hne : m.generation + 1 ≠ 0 := by
    intro h0
    rw [h0, UInt64.toNat_zero] at hsucc
    omega
  have hnew : m.generation + 1 ∉ begun past := by
    intro hmem
    have hle := UInt64.le_iff_toNat_le.mp (h.older _ hmem)
    omega
  refine
    { bounded := ?_
      older := fun g hmem => ?_
      session := by rw [hsession]; simp [hne]
      idle := by simp [hne]
      cycle := fun g hmem => ?_
      unknown := fun g hmem h0 => ?_ }
  · have hle := h.bounded
    rw [List.countP_append, hsucc]
    exact Nat.add_le_add_right hle 1
  · rw [hbegun, List.mem_append, List.mem_singleton] at hmem
    rw [UInt64.le_iff_toNat_le]
    rcases hmem with hmem | rfl
    · have hle := UInt64.le_iff_toNat_le.mp (h.older g hmem)
      show g.toNat ≤ (m.generation + 1).toNat
      omega
    · exact Nat.le_refl _
  · rw [hbegun, List.mem_append, List.mem_singleton] at hmem
    rw [hpassages, hsession]
    rcases hmem with hmem | rfl
    · obtain ⟨s, hs, -⟩ := h.cycle g hmem
      exact ⟨s, hs, fun heq => absurd hmem (Option.some.inj heq ▸ hnew)⟩
    · rw [h.unknown _ hnew hne]
      exact ⟨.connecting, rfl, fun _ => rfl⟩
  · rw [hbegun, List.mem_append, not_or] at hmem
    rw [hpassages, h.unknown g hmem.1 h0]

theorem Recorded.tornDown (h : Recorded past m)
    (hb : (past.countP fun e => e.1.renews) + 1 < UInt64.size) :
    Recorded (past ++ [(.teardown, .tornDown m.state)]) m.teardown := by
  have hsucc := h.toNat_succ hb
  have hbegun : begun (past ++ [(.teardown, .tornDown m.state)]) = begun past := by
    rw [begun_append_one]
    exact List.append_nil _
  have hsession : Machine.session (past ++ [(.teardown, .tornDown m.state)]) = none :=
    session_append_one _ _
  have hpassages (g : UInt64) : passages g (past ++ [(.teardown, .tornDown m.state)]) =
      passages g past := by
    rw [passages_append_one, passages_other (by simp [Call.generation?]), List.append_nil]
  have hgeneration : m.generation.toNat ≤ m.teardown.generation.toNat ∧
      m.teardown.generation.toNat ≤ m.generation.toNat + 1 := by
    simp only [teardown]
    split <;> omega
  refine
    { bounded := ?_
      older := fun g hmem => ?_
      session := by rw [hsession]; simp [teardown]
      idle := fun _ => rfl
      cycle := fun g hmem => ?_
      unknown := fun g hmem h0 => ?_ }
  · have hle := h.bounded
    rw [List.countP_append]
    exact Nat.le_trans hgeneration.2 (Nat.add_le_add_right hle 1)
  · rw [hbegun] at hmem
    rw [UInt64.le_iff_toNat_le]
    exact Nat.le_trans (UInt64.le_iff_toNat_le.mp (h.older g hmem)) hgeneration.1
  · rw [hbegun] at hmem
    obtain ⟨s, hs, -⟩ := h.cycle g hmem
    rw [hpassages, hsession]
    exact ⟨s, hs, by simp⟩
  · rw [hbegun] at hmem
    rw [hpassages, h.unknown g hmem h0]

/-- Whatever is asked of a machine, the transcript goes on to say what has become of it. -/
theorem Recorded.asked {a : Answer} (h : Recorded past m) (hs : Asked m c n a)
    (hz : c.generation? ≠ some 0)
    (hb : (past.countP fun e => e.1.renews) + (if c.renews then 1 else 0) < UInt64.size) :
    Recorded (past ++ [(c, a)]) n := by
  cases hs with
  | began => exact h.began hb
  | tornDown => exact h.tornDown hb
  | refused hc _ _ =>
    have hnone (g : UInt64) : passages g [(c, .refused)] = [] := by
      by_cases hg : c.generation? = some g
      · rw [passages_self hg]
        cases c <;> rfl
      · exact passages_other hg
    refine h.still rfl (session_append_one _ _) rfl rfl h.idle (fun g hmem => ?_)
      fun g _ _ => hnone g
    rw [passages_append_one, hnone, List.append_nil]
    exact h.cycle g hmem
  | @passed _ g _ _ p hc hm hf hp hstate hg ht =>
    have hg0 : g ≠ 0 := fun h0 => hz (h0 ▸ hc)
    have hcurrent := (h.isCurrent_iff hg0).mp hm
    have hself : passages g [(c, a)] = [p] := by
      rw [passages_self hc, hp]
      rfl
    -- only passages are answered like this
    have hanswer : begun [(c, a)] = [] ∧
        Machine.session (past ++ [(c, a)]) = Machine.session past := by
      rw [session_append_one]
      cases c <;> cases a <;> first | exact ⟨rfl, rfl⟩ | cases hp
    refine h.still hanswer.1 hanswer.2 hg ht (fun hnone => ?_) (fun g' hmem => ?_)
      fun g' hmem _ => ?_
    · rw [Machine.isCurrent_iff] at hm
      rcases hnone with hnone | hnone
      · simp [hm.2] at hnone
      · exact absurd (hm.1.symm.trans hnone) hg0
    · rw [passages_append_one]
      by_cases hgg : g = g'
      · subst hgg
        obtain ⟨s, htravel, heq⟩ := h.cycle g hmem
        rw [hself, travel_append_one, htravel, heq hcurrent]
        exact ⟨n.state, hstate, fun _ => rfl⟩
      · rw [passages_other (by simpa [hc] using hgg), List.append_nil, hcurrent]
        obtain ⟨s, htravel, -⟩ := h.cycle g' hmem
        exact ⟨s, htravel, fun heq => absurd (Option.some.inj heq) hgg⟩
    · refine passages_other fun heq => hmem ?_
      rw [← Option.some.inj (hc.symm.trans heq)]
      exact mem_begun_of_session hcurrent

/-- A run of fewer calls than there are generations is recorded in its transcript. -/
theorem recorded_run (b : Backoff.Bounds) (calls : List Call)
    (hz : ∀ c ∈ calls, c.generation? ≠ some 0) (hb : calls.countP Call.renews < UInt64.size) :
    Recorded (transcript calls (ofBounds b)) (run calls (ofBounds b)) ∧
      (transcript calls (ofBounds b)).countP (fun e => e.1.renews) = calls.countP Call.renews := by
  induction calls using List.reverseRecOn with
  | nil =>
    refine ⟨?_, rfl⟩
    exact
      { bounded := Nat.le_refl 0
        older := by simp [transcript, begun]
        session := rfl
        idle := fun _ => rfl
        cycle := by simp [transcript, begun]
        unknown := fun _ _ _ => rfl }
  | append_singleton calls c ih =>
    rw [List.countP_append, List.countP_singleton] at hb
    obtain ⟨h, hcount⟩ := ih (fun c' hc' => hz c' (List.mem_append_left _ hc')) (by omega)
    have hlast : c.generation? ≠ some 0 := hz c (List.mem_append_right _ List.mem_cons_self)
    rw [transcript_append_one, run_append, List.countP_append, List.countP_append, hcount,
      List.countP_singleton, List.countP_singleton]
    exact ⟨h.asked (run_asked _ c) hlast (by rw [hcount]; exact hb), rfl⟩

end Run

/-- Whatever is asked of a machine, in any order and with any generations but the one of the
time before the first session, it keeps to its sessions. -/
theorem run_disciplined (b : Backoff.Bounds) (calls : List Call) (c : Call)
    (hz : ∀ c' ∈ calls ++ [c], c'.generation? ≠ some 0)
    (hb : (calls ++ [c]).countP Call.renews < UInt64.size) :
    Disciplined (transcript calls (ofBounds b)) (run calls (ofBounds b)) c := by
  rw [List.countP_append, List.countP_singleton] at hb
  obtain ⟨h, hcount⟩ := recorded_run b calls (fun c' hc' => hz c' (List.mem_append_left _ hc'))
    (by omega)
  have hlast : c.generation? ≠ some 0 := hz c (List.mem_append_right _ List.mem_cons_self)
  generalize transcript calls (ofBounds b) = past at h hcount
  generalize run calls (ofBounds b) = m at h
  have hasked := run_asked m c
  refine
    { begins := fun hc => ?_
      heeded := fun g hg => ?_
      refused := fun hr => ?_
      cycle := h.cycle
      unknown := h.unknown
      wasOpen := fun g hmem before b after hps => ?_
      idle := fun hn => h.idle ?_
      tornDown := fun ht => by rw [h.session, if_pos (.inl ht)]
      again := teardown_teardown m }
  · subst hc
    generalize (Call.beginOpen.run m).1 = n at hasked
    generalize (Call.beginOpen.run m).2 = a at hasked ⊢
    cases hasked with
    | refused _ hs _ => rw [if_neg (hs rfl)]
    | began hs =>
      rw [if_pos hs]
      refine ⟨_, rfl, fun g hmem => ?_⟩
      have hle := UInt64.le_iff_toNat_le.mp (h.older g hmem)
      rw [UInt64.lt_iff_toNat_lt, h.toNat_succ (by rw [hcount]; exact hb)]
      omega
    | passed hc => cases hc
  · rw [← h.isCurrent_iff fun h0 => hlast (h0 ▸ hg)]
    generalize (c.run m).1 = n at hasked
    generalize (c.run m).2 = a at hasked ⊢
    cases hasked with
    | refused _ _ hn => exact iff_of_false (fun hr => hr rfl) (hn g hg)
    | began => cases hg
    | tornDown => cases hg
    | passed hc hm hf hp =>
      obtain rfl := Option.some.inj (hc.symm.trans hg)
      refine iff_of_true (fun hr => ?_) ⟨hm, hf⟩
      subst hr
      cases c <;> cases hp
  · generalize (c.run m).1 = n at hasked ⊢
    rw [hr] at hasked
    cases hasked with
    | refused => rfl
    | passed _ _ _ hp => cases c <;> cases hp
  · obtain ⟨s, hs, -⟩ := h.cycle g hmem
    exact travel_lost (hps ▸ hs)
  · rw [h.session] at hn
    by_contra hnot
    rw [if_neg hnot] at hn
    cases hn

/-- The timer of a session goes off that a teardown has ended, while the next one is open. -/
theorem run_disciplined_late :
    ((Call.onRetry 1).run (run [.beginOpen, .onOpen 1, .onClose 1, .teardown, .beginOpen, .onOpen 3]
        (ofBounds .usual))).2 = .refused ∧
      Disciplined
        (transcript [.beginOpen, .onOpen 1, .onClose 1, .teardown, .beginOpen, .onOpen 3]
          (ofBounds .usual))
        (run [.beginOpen, .onOpen 1, .onClose 1, .teardown, .beginOpen, .onOpen 3]
          (ofBounds .usual)) (.onRetry 1) :=
  ⟨by decide, run_disciplined .usual _ (.onRetry 1) (by decide) (by decide)⟩

end TwinLink.Machine
