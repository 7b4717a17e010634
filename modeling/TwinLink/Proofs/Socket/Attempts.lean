import Mathlib.Data.List.Induction
import Mathlib.Data.List.ModifyLast
import TwinLink.Proofs.Backoff.Doubling
import TwinLink.Proofs.Socket.Shift

/-! Attempts to connect and when they begin. A session makes one after another. Each is decided
by the answer of the network, or by the lack of one, and the next begins when the delay is over
that has been doubled since a link was last open. Main statements: what the driver of a session
does at an instant, and time that passes while it waits, keep its attempts to that schedule. -/

namespace TwinLink

/-! ### Delays -/

namespace Backoff

/-- The delay after `n` doublings, in milliseconds. -/
def Bounds.pause (b : Bounds) (n : Nat) : Nat := (advance^[n] (ofBounds b)).current.ticks

theorem ticks_of_nanos {d : Duration} {m : Nat} (h : d.nanos = m * nanosPerMilli) :
    d.ticks = m := by
  rw [Duration.ticks, h, nanosPerMilli]
  omega

/-- Whole milliseconds double up to the ceiling. -/
theorem pause_ofMillis {initial ceiling : Nat} (h : ceiling * nanosPerMilli ≤ longestSpan)
    (n : Nat) :
    Bounds.pause ⟨.ofMillis initial, .ofMillis ceiling⟩ n = min (initial * 2 ^ n) ceiling := by
  refine ticks_of_nanos ((nanos_iterate_advance _ n).trans ?_)
  have hceiling : (Duration.ofMillis ceiling).nanos = ceiling * nanosPerMilli :=
    Nat.min_eq_left h
  have hinitial : (Duration.ofMillis initial).nanos = min (initial * nanosPerMilli) longestSpan :=
    rfl
  have hlong : longestSpan ≤ longestSpan * 2 ^ n :=
    Nat.le_mul_of_pos_right _ (Nat.two_pow_pos n)
  rw [hceiling, hinitial, ← Nat.mul_min_mul_right, ← Nat.mul_min_mul_right, Nat.mul_right_comm]
  omega

end Backoff

/-! ### Answers -/

namespace Reply

variable {α : Type} {limit now t : Nat} {r : Reply α}

/-- The answer that comes within a limit, and after how long. -/
def within (limit : Nat) : Reply α → Option (Nat × α)
  | after delay answer => if delay ≤ limit then some (delay, answer) else none
  | never => none

/-- How long an answer is waited for. -/
def patience (limit : Nat) (r : Reply α) : Nat := (r.within limit).elim limit Prod.fst

theorem patience_of_within {delay : Nat} {a : α} (h : r.within limit = some (delay, a)) :
    r.patience limit = delay := by
  rw [patience, h]
  rfl

theorem patience_of_never (h : r.within limit = none) : r.patience limit = limit := by
  rw [patience, h]
  rfl

theorem within_of_le {delay : Nat} {a : α} (h : delay ≤ limit) :
    (after delay a).within limit = some (delay, a) := if_pos h

theorem within_of_lt {delay : Nat} {a : α} (h : limit < delay) :
    (after delay a).within limit = none := if_neg (Nat.not_le.mpr h)

/-- A wait that nobody has outstayed is over when the answer is there or the limit reached. -/
theorem settled_due (h : now ≤ t + r.patience limit) :
    Socket.settled now (r.due t) (t + limit) =
      if now = t + r.patience limit then some ((r.within limit).map Prod.snd) else none := by
  cases r with
  | never =>
    rw [patience_of_never rfl] at h ⊢
    simp only [Socket.settled, due, within, Option.map_none]
    grind
  | after delay a =>
    rcases Nat.lt_or_ge limit delay with hd | hd
    · rw [patience_of_never (within_of_lt hd)] at h ⊢
      simp only [Socket.settled, due, within_of_lt hd, Option.map_none]
      grind
    · rw [patience_of_within (within_of_le hd)] at h ⊢
      simp only [Socket.settled, due, within_of_le hd, Option.map_some]
      grind

/-- The instant at which time alone ends the wait. -/
theorem due?_connecting (t limit : Nat) (r : Reply Socket.Answer) :
    (Socket.Phase.connecting (r.due t) (t + limit)).due? = some (t + r.patience limit) := by
  cases r with
  | never => rfl
  | after delay a =>
    rcases Nat.lt_or_ge limit delay with hd | hd
    · rw [patience_of_never (within_of_lt hd)]
      simp only [due, Socket.Phase.due?, Option.elim_some, Option.some.injEq]
      omega
    · rw [patience_of_within (within_of_le hd)]
      simp only [due, Socket.Phase.due?, Option.elim_some, Option.some.injEq]
      omega

end Reply

namespace Socket

/-! ### Attempts -/

/-- An attempt to connect, with the instants at which it began, opened a link and ended. -/
structure Attempt where
  start : Nat
  opened : Option Nat
  ended : Option Nat
  deriving DecidableEq

/-- What a happening says about the attempts. -/
def Attempt.note (as : List Attempt) : Nat × Happening → List Attempt
  | (t, .attempt _) => as ++ [⟨t, none, none⟩]
  | (t, .opened _) => as.modifyLast ({ · with opened := some t })
  | (t, .ended) => as.modifyLast ({ · with ended := some t })
  | _ => as

/-- The attempts of which a history tells. -/
def attemptsIn (seen : List (Nat × Happening)) : List Attempt := seen.foldl Attempt.note []

/-- How often the delay that follows the last attempt has been doubled: once for each attempt
after the latest one that opened a link, or for each after the first if none did. -/
def doublings (as : List Attempt) : Nat :=
  match as.reverse.findIdx? fun x => x.opened.isSome with
  | some n => n
  | none => as.length - 1

/-- How the network answers the attempt after `i` others. -/
def replyTo (script : List (Reply Answer)) (i : Nat) : Reply Answer := script.getD i refusal

/-- What has become of an attempt, given how the network answers it. -/
inductive Verdict (limit : Nat) (r : Reply Answer) : Attempt → Prop where
  | pending (start : Nat) : Verdict limit r ⟨start, none, none⟩
  | unanswered (start : Nat) (h : r.within limit = none) :
      Verdict limit r ⟨start, none, some (start + limit)⟩
  | refused (start : Nat) {delay : Nat} {e : LinkError}
      (h : r.within limit = some (delay, .error e)) :
      Verdict limit r ⟨start, none, some (start + delay)⟩
  | opened (start : Nat) {delay : Nat} {plan : Link.Plan}
      (h : r.within limit = some (delay, .ok plan)) (ended : Option Nat) :
      Verdict limit r ⟨start, some (start + delay), ended⟩

/-- The law of the attempts of a session that began at the instant `begun`. -/
structure Timeline (pause : Nat → Nat) (limit : Nat) (reply : Nat → Reply Answer) (begun : Nat)
    (as : List Attempt) : Prop where
  first : ∀ x ∈ as.head?, x.start = begun
  next : ∀ before x y after, as = before ++ x :: y :: after →
    ∃ e, x.ended = some e ∧ y.start = e + pause (doublings (before ++ [x]))
  verdict : ∀ before x after, as = before ++ x :: after → Verdict limit (reply before.length) x

/-- The instant at which the next attempt is to begin, or the last one to be decided. Nothing is
due while a link is open. -/
def nextDue (pause : Nat → Nat) (limit : Nat) (reply : Nat → Reply Answer) (begun : Nat)
    (as : List Attempt) : Option Nat :=
  match as.getLast? with
  | none => some begun
  | some x =>
    match x.ended, x.opened with
    | some e, _ => some (e + pause (doublings as))
    | none, none => some (x.start + (reply (as.length - 1)).patience limit)
    | none, some _ => none

theorem doublings_opened (as : List Attempt) {x : Attempt} (h : x.opened.isSome = true) :
    doublings (as ++ [x]) = 0 := by
  simp [doublings, List.findIdx?_cons, h]

theorem doublings_unopened (as : List Attempt) {x : Attempt} (h : x.opened = none) :
    doublings (as ++ [x]) = if as = [] then 0 else doublings as + 1 := by
  simp only [doublings, List.reverse_append, List.reverse_singleton, List.singleton_append,
    List.findIdx?_cons, h, Option.isSome_none, Bool.false_eq_true, if_false, List.length_append,
    List.length_singleton]
  cases hf : as.reverse.findIdx? fun x => x.opened.isSome with
  | some n =>
    have hne : as ≠ [] := by
      rintro rfl
      cases hf
    simp [hne]
  | none => cases as <;> simp

/-- Only which attempts opened a link matters. -/
theorem doublings_congr (as : List Attempt) {x y : Attempt} (h : x.opened = y.opened) :
    doublings (as ++ [x]) = doublings (as ++ [y]) := by
  simp only [doublings, List.reverse_append, List.reverse_singleton, List.singleton_append,
    List.findIdx?_cons, h, List.length_append, List.length_singleton]

/-- An element of a list with one more is that one or has it behind. -/
theorem append_one_eq {α : Type} {l before after : List α} {x a : α}
    (h : l ++ [x] = before ++ a :: after) :
    (before = l ∧ a = x ∧ after = []) ∨ ∃ rest, after = rest ++ [x] ∧ l = before ++ a :: rest := by
  rcases List.eq_nil_or_concat after with rfl | ⟨rest, z, rfl⟩
  · obtain ⟨rfl, hx⟩ := List.append_inj' h rfl
    exact .inl ⟨rfl, (List.singleton_inj.mp hx).symm, rfl⟩
  · obtain ⟨rfl, hx⟩ : l = before ++ a :: rest ∧ [x] = [z] :=
      List.append_inj' (by simpa using h) rfl
    exact .inr ⟨rest, by rw [List.singleton_inj.mp hx, List.concat_eq_append], rfl⟩

section Timeline

variable {pause : Nat → Nat} {limit begun now : Nat} {reply : Nat → Reply Answer}
  {as : List Attempt} {x y : Attempt}

theorem timeline_nil : Timeline pause limit reply begun [] where
  first := by simp
  next := by simp
  verdict := by simp

/-- An attempt that begins when it is due. -/
theorem Timeline.begin (h : Timeline pause limit reply begun as)
    (hdue : nextDue pause limit reply begun as = some now)
    (hended : ∀ x ∈ as.getLast?, x.ended.isSome = true) :
    Timeline pause limit reply begun (as ++ [⟨now, none, none⟩]) where
  first := by
    cases as with
    | nil => simpa [nextDue, eq_comm] using hdue
    | cons x as => exact h.first
  next before a b after has := by
    rw [List.append_cons before] at has
    rcases append_one_eq has with ⟨rfl, rfl, -⟩ | ⟨rest, -, rfl⟩
    · obtain ⟨e, he⟩ := Option.isSome_iff_exists.mp (hended a (by simp))
      simp only [nextDue, List.getLast?_concat, he, Option.some.injEq] at hdue
      exact ⟨e, he, hdue.symm⟩
    · exact h.next before a b rest (by simp)
  verdict before a after has := by
    rcases append_one_eq has with ⟨rfl, rfl, -⟩ | ⟨rest, -, rfl⟩
    · exact .pending now
    · exact h.verdict before a rest rfl

/-- What becomes of the last attempt leaves the others as they are. -/
theorem Timeline.update (h : Timeline pause limit reply begun (as ++ [x]))
    (hs : y.start = x.start) (ho : Verdict limit (reply as.length) y) :
    Timeline pause limit reply begun (as ++ [y]) where
  first := by
    cases as with
    | nil =>
      rintro _ ⟨⟩
      exact hs.trans (h.first x rfl)
    | cons a as => exact h.first
  next before a b after has := by
    rw [List.append_cons before] at has
    rcases append_one_eq has with ⟨rfl, rfl, -⟩ | ⟨rest, -, rfl⟩
    · obtain ⟨e, he, hx⟩ := h.next before a x [] (by simp)
      exact ⟨e, he, hs.trans hx⟩
    · exact h.next before a b (rest ++ [x]) (by simp)
  verdict before a after has := by
    rcases append_one_eq has with ⟨rfl, rfl, -⟩ | ⟨rest, -, rfl⟩
    · exact ho
    · exact h.verdict before a (rest ++ [x]) (by simp)

end Timeline

/-! ### The driver of a session -/

/-- Where the driver of a session stands after some attempts, with the state of the machine and
the number of times that the delay has been doubled and that the wait for it was over. -/
inductive Station (b : Backoff.Bounds) (limit : Nat) (reply : Nat → Reply Answer)
    (begun now : Nat) : List Attempt → Phase → Machine.State → Nat → Nat → Prop where
  | first (h : now = begun) : Station b limit reply begun now [] .queued .connecting 0 0
  | again {as x e} (he : x.ended = some e) (h : now = e + b.pause (doublings (as ++ [x]))) :
      Station b limit reply begun now (as ++ [x]) .queued .connecting (doublings (as ++ [x]) + 1)
        (as.length + 1)
  | connecting {as start} (h : now ≤ start + (reply as.length).patience limit) :
      Station b limit reply begun now (as ++ [⟨start, none, none⟩])
        (.connecting ((reply as.length).due start) (start + limit)) .connecting
        (doublings (as ++ [⟨start, none, none⟩])) as.length
  | failed {as start} (h : now = start + (reply as.length).patience limit)
      (hr : ∀ delay plan, (reply as.length).within limit ≠ some (delay, .ok plan)) :
      Station b limit reply begun now (as ++ [⟨start, none, none⟩]) .ending .connecting
        (doublings (as ++ [⟨start, none, none⟩])) as.length
  | linked {as start delay plan phase}
      (hr : (reply as.length).within limit = some (delay, .ok plan))
      (hp : phase.link?.isSome = true ∨ phase = .ending) :
      Station b limit reply begun now (as ++ [⟨start, some (start + delay), none⟩]) phase .opened 0
        as.length
  | retiring {as x} (he : x.ended = some now) :
      Station b limit reply begun now (as ++ [x])
        (.retiring (Backoff.advance^[doublings (as ++ [x])] (.ofBounds b)).current) .closed
        (doublings (as ++ [x]) + 1) as.length
  | waiting {as x e} (he : x.ended = some e) (h : now ≤ e + b.pause (doublings (as ++ [x]))) :
      Station b limit reply begun now (as ++ [x])
        (.waiting (e + b.pause (doublings (as ++ [x])))) .closed (doublings (as ++ [x]) + 1)
        as.length

/-- The only session of a socket after some attempts: its driver and its machine. -/
structure Standing (settings : Settings) (script : List (Reply Answer)) (begun now : Nat)
    (as : List Attempt) (s : Socket) (phase : Phase) (state : Machine.State) (n : Nat) : Prop where
  configured : s.settings = settings
  answers : s.script = script.drop as.length
  drivers : s.drivers = [⟨1, phase, false, none⟩]
  machine : s.machine = ⟨state, Backoff.advance^[n] (.ofBounds settings.backoff), 1, false⟩
  station : Station settings.backoff settings.timeout.ticks (replyTo script) begun now as phase
    state n s.reconnects
  timeline : Timeline settings.backoff.pause settings.timeout.ticks (replyTo script) begun as

/-- The session goes on, and its attempts are as the timeline says. -/
def Ongoing (settings : Settings) (script : List (Reply Answer)) (begun now : Nat)
    (as : List Attempt) (s : Socket) : Prop :=
  ∃ phase state n, Standing settings script begun now as s phase state n

/-- Nothing of this concerns the attempts. -/
def Irrelevant (seen : List Happening) : Prop :=
  ∀ h ∈ seen, (∀ url, h ≠ .attempt url) ∧ (∀ link, h ≠ .opened link) ∧ h ≠ .ended

theorem Irrelevant.foldl {seen : List Happening} (h : Irrelevant seen) (t : Nat)
    (as : List Attempt) : (seen.map (t, ·)).foldl Attempt.note as = as := by
  induction seen with
  | nil => rfl
  | cons e seen ih =>
    have he : Attempt.note as (t, e) = as := by
      obtain ⟨ha, ho, hd⟩ := h e List.mem_cons_self
      cases e <;> simp_all [Attempt.note]
    rw [List.map_cons, List.foldl_cons, he]
    exact ih fun e he => h e (List.mem_cons_of_mem _ he)

theorem Logs.irrelevant {seen : List Happening} (h : Logs seen) : Irrelevant seen := by
  intro e he
  obtain ⟨record, rfl⟩ := h e he
  simp

section Standing

variable {settings : Settings} {script : List (Reply Answer)} {begun now : Nat} {as : List Attempt}
  {s : Socket} {m : Move} {phase : Phase} {state : Machine.State} {n : Nat}

theorem Standing.ongoing (h : Standing settings script begun now as s phase state n) :
    Ongoing settings script begun now as s :=
  ⟨phase, state, n, h⟩

theorem Standing.phase_eq (h : Standing settings script begun now as s phase state n) :
    s.phase 0 = phase := by
  simp [Socket.phase, h.drivers]

theorem Standing.generation (h : Standing settings script begun now as s phase state n) :
    s.generation 0 = 1 := by
  simp [Socket.generation, h.drivers]

theorem Standing.isCurrent (h : Standing settings script begun now as s phase state n) :
    s.machine.isCurrent 1 = true := by
  simp [h.machine, Machine.isCurrent]

theorem Standing.setPhase (h : Standing settings script begun now as s phase state n) (p : Phase) :
    (s.setPhase 0 p).drivers = [⟨1, p, false, none⟩] := by
  simp [Socket.setPhase, modifyDriver, h.drivers]

theorem Standing.timeout (h : Standing settings script begun now as s phase state n) :
    s.settings.timeout.ticks = settings.timeout.ticks := by
  rw [h.configured]

/-- An attempt begins when it is due, and with the delay that follows it if it fails. -/
theorem Station.queued {b : Backoff.Bounds} {limit r : Nat} {reply : Nat → Reply Answer}
    (h : Station b limit reply begun now as .queued state n r) :
    state = .connecting ∧ n = doublings (as ++ [⟨now, none, none⟩]) ∧ r = as.length ∧
      nextDue b.pause limit reply begun as = some now ∧
        ∀ x ∈ as.getLast?, x.ended.isSome = true := by
  cases h with
  | first h => simp [doublings, nextDue, h]
  | again he h =>
    rw [doublings_unopened _ (x := ⟨now, none, none⟩) rfl]
    simp [nextDue, he, h]
  | linked _ hp => simp [Phase.link?] at hp

/-- What is about to be reported is the end of an attempt that has failed or of its link. -/
theorem Station.ending {b : Backoff.Bounds} {limit r : Nat} {reply : Nat → Reply Answer}
    (h : Station b limit reply begun now as .ending state n r) :
    state ≠ .closed ∧ n = doublings as ∧ ∃ before x, as = before ++ [x] ∧ r = before.length ∧
      Verdict limit (reply before.length) { x with ended := some now } := by
  cases h with
  | @failed as start hdue hn =>
    refine ⟨by simp, rfl, as, _, rfl, rfl, ?_⟩
    cases hw : (reply as.length).within limit with
    | none =>
      rw [hdue, Reply.patience_of_never hw]
      exact .unanswered start hw
    | some decided =>
      obtain ⟨delay, e | plan⟩ := decided
      · rw [hdue, Reply.patience_of_within hw]
        exact .refused start hw
      · exact absurd hw (hn delay plan)
  | linked hw _ => exact ⟨by simp, (doublings_opened _ rfl).symm, _, _, rfl, rfl, .opened _ hw _⟩

theorem Standing.attempt (h : Standing settings script begun now as s .queued state n) :
    Standing settings script begun now (as ++ [⟨now, none, none⟩]) (s.attempt now 0).socket
      (.connecting ((replyTo script as.length).due now) (now + settings.timeout.ticks))
      .connecting (doublings (as ++ [⟨now, none, none⟩])) := by
  obtain ⟨rfl, rfl, hr, hdue, hended⟩ := h.station.queued
  have hreply : s.script.headD refusal = replyTo script as.length := by
    rw [h.answers, replyTo, List.headD_eq_head?_getD, List.head?_drop, List.getD_eq_getElem?_getD]
  exact
    { configured := h.configured
      answers := by
        simp only [Socket.attempt, h.answers, List.drop_drop, List.length_append,
          List.length_singleton]
      drivers := by
        simp only [Socket.attempt, hreply, h.timeout]
        exact h.setPhase _
      machine := h.machine
      station := by
        rw [show (s.attempt now 0).socket.reconnects = s.reconnects from rfl, hr]
        exact .connecting (Nat.le_add_right _ _)
      timeline := h.timeline.begin hdue hended }

/-- The attempt has failed, which is about to be reported. -/
theorem Standing.fail {start : Nat} {answer : Option (Nat × Answer)} {deadline : Nat}
    (h : Standing settings script begun now (as ++ [⟨start, none, none⟩]) s
      (.connecting answer deadline) .connecting (doublings (as ++ [⟨start, none, none⟩])))
    (hr : s.reconnects = as.length)
    (hdue : now = start + (replyTo script as.length).patience settings.timeout.ticks)
    (hw : ∀ delay plan,
      (replyTo script as.length).within settings.timeout.ticks ≠ some (delay, .ok plan)) :
    Standing settings script begun now (as ++ [⟨start, none, none⟩]) (s.setPhase 0 .ending) .ending
      .connecting (doublings (as ++ [⟨start, none, none⟩])) where
  configured := h.configured
  answers := h.answers
  drivers := h.setPhase _
  machine := h.machine
  station := by
    rw [show (s.setPhase 0 .ending).reconnects = s.reconnects from rfl, hr]
    exact .failed hdue hw
  timeline := h.timeline

/-- The attempt has opened a link. -/
theorem Standing.succeed {start delay : Nat} {plan : Link.Plan} {answer : Option (Nat × Answer)}
    {deadline : Nat} (h : Standing settings script begun now (as ++ [⟨start, none, none⟩]) s
      (.connecting answer deadline) .connecting (doublings (as ++ [⟨start, none, none⟩])))
    (hr : s.reconnects = as.length)
    (hw : (replyTo script as.length).within settings.timeout.ticks = some (delay, .ok plan))
    (links : List Link) (sender : Option Nat) (link : Nat) :
    Standing settings script begun now (as ++ [⟨start, some (start + delay), none⟩])
      (Socket.setPhase 0 (.announcing link) { s with
        machine := { s.machine with state := .opened, backoff := s.machine.backoff.reset }
        sender := sender
        links := links })
      (.announcing link) .opened 0 where
  configured := h.configured
  answers := by
    have hanswers := h.answers
    rwa [List.length_append] at hanswers ⊢
  drivers := h.setPhase _
  machine := by
    simp only [Socket.setPhase, modifyDriver, h.machine, Backoff.reset,
      Backoff.bounds_iterate_advance]
    rfl
  station := by
    simp only [Socket.setPhase, modifyDriver, hr]
    exact .linked hw (.inl rfl)
  timeline := h.timeline.update rfl (.opened start hw none)

/-- The network has answered, or has not in time. -/
theorem Standing.connected {answer : Option (Nat × Answer)} {deadline : Nat}
    (h : Standing settings script begun now as s (.connecting answer deadline) state n)
    (hm : (settled now answer deadline).map (s.connected 0 ·) = some m) :
    Ongoing settings script begun now ((m.seen.map (now, ·)).foldl Attempt.note as) m.socket := by
  have hstation := h.station
  generalize hr : s.reconnects = r at hstation
  cases hstation with
  | linked _ hp => simp [Phase.link?] at hp
  | @connecting as start hnow =>
    rw [Reply.settled_due hnow] at hm
    split at hm
    next hdue =>
      obtain rfl := Option.some.inj hm
      cases hw : (replyTo script as.length).within settings.timeout.ticks with
      | none => exact (h.fail hr hdue (by simp [hw])).ongoing
      | some decided =>
        obtain ⟨delay, e | plan⟩ := decided
        · have hnote : Attempt.note (as ++ [⟨start, none, none⟩]) (now, s.connectFailure e) =
              as ++ [⟨start, none, none⟩] := by
            cases e <;> rfl
          have hongoing := (h.fail hr hdue (by simp [hw])).ongoing
          simpa only [Option.map_some, Socket.connected, List.map_cons, List.map_nil,
            List.foldl_cons, List.foldl_nil, hnote] using hongoing
        · have hopen : s.machine.onOpen (s.generation 0) =
              some { s.machine with state := .opened, backoff := s.machine.backoff.reset } :=
            Machine.onOpen_eq_some.mpr
              ⟨by rw [h.generation]; exact h.isCurrent, by rw [h.machine], rfl⟩
          have hongoing := (h.succeed hr hw (s.links ++ [Link.ofPlan plan]) (some s.links.length)
            s.links.length).ongoing
          rw [Reply.patience_of_within hw] at hdue
          rw [Socket.generation] at hopen
          rw [← hdue] at hongoing
          simpa only [Option.map_some, Socket.connected, hopen, List.map_cons, List.map_nil,
            List.foldl_cons, List.foldl_nil, Attempt.note, List.modifyLast_concat] using hongoing
    next => cases hm

/-- What a driver with a link can do: use the link, and leave it in the end. -/
theorem Stepped.linked {i : Nat} (hs : Stepped now i s m) (hl : (s.phase i).link?.isSome = true) :
    ((m.socket.phase i).link?.isSome = true ∨ m.socket.phase i = .ending) ∧
      m.socket.settings = s.settings ∧ m.socket.script = s.script ∧
      m.socket.machine = s.machine ∧ m.socket.reconnects = s.reconnects ∧ Irrelevant m.seen := by
  obtain ⟨d, hd⟩ := hs.exists_driver
  have hleave {seen : List Happening} {link : Nat} (h : Irrelevant seen) :
      Irrelevant (seen ++ [.close link]) := by
    intro e he
    rcases List.mem_append.mp he with he | he
    · exact h e he
    · obtain rfl := List.mem_singleton.mp he
      simp
  cases hs
  case read hp _ _ _ => exact ⟨.inl hl, rfl, rfl, rfl, rfl, by simp [Irrelevant]⟩
  case release =>
    refine ⟨.inr ?_, rfl, rfl, rfl, rfl, by simp [Irrelevant, Socket.release]⟩
    simp [Socket.phase, Socket.release, Socket.setPhase, modifyDriver, modifyLink, hd]
  case readLast hlogs =>
    refine ⟨.inl ?_, rfl, rfl, rfl, rfl, hleave ?_⟩
    · simp [Socket.phase, leave, Socket.setPhase, modifyDriver, modifyLink, hd, Phase.link?]
    · intro e he
      rcases List.mem_cons.mp he with rfl | he
      · simp
      · exact hlogs.irrelevant e he
  case unwritten hlogs =>
    refine ⟨.inl ?_, rfl, rfl, rfl, rfl, hleave hlogs.irrelevant⟩
    simp [Socket.phase, leave, Socket.setPhase, modifyDriver, hd, Phase.link?]
  case attempt hp | unanswered hp _ | superseded hp _ _ | opened hp _ _ _ | closed hp _ _ |
      outdated hp _ | rest hp | retried hp _ _ | cancelled hp _ _ =>
    rw [hp] at hl
    cases hl
  all_goals
    refine ⟨.inl ?_, rfl, rfl, rfl, rfl, by simp [Irrelevant, leave, Move.silent, logInfo]⟩
    simp [Socket.phase, leave, Socket.setPhase, modifyDriver, modifyLink, hd, Phase.link?,
      Move.silent]

/-- The use of a link does not concern the attempts. -/
theorem Standing.linked (h : Standing settings script begun now as s phase .opened n)
    (hl : phase.link?.isSome = true) (hs : Stepped now 0 s m) :
    Ongoing settings script begun now ((m.seen.map (now, ·)).foldl Attempt.note as) m.socket := by
  obtain ⟨hp, hsettings, hscript, hmachine, hreconnects, hseen⟩ := hs.linked (h.phase_eq ▸ hl)
  obtain ⟨p, hdrivers⟩ := hs.exists_phase
  rw [h.drivers] at hdrivers
  have hphase : m.socket.phase 0 = p := by simp [Socket.phase, hdrivers]
  rw [hseen.foldl]
  have hstation := h.station
  generalize hr : s.reconnects = r at hstation
  cases hstation with
  | linked hw _ =>
    have hstanding : Standing settings script begun now _ m.socket p .opened 0 :=
      { configured := hsettings.trans h.configured
        answers := hscript.trans h.answers
        drivers := hdrivers
        machine := hmachine.trans h.machine
        station := by
          rw [hreconnects, hr]
          exact .linked hw (hphase ▸ hp)
        timeline := h.timeline }
    exact hstanding.ongoing

/-- The attempt ends, and the delay to the next is doubled for the one after that. -/
theorem Standing.report (h : Standing settings script begun now as s .ending state n) :
    Ongoing settings script begun now
      (((s.report 0).seen.map (now, ·)).foldl Attempt.note as) (s.report 0).socket := by
  obtain ⟨hstate, rfl, before, x, rfl, hr, hout⟩ := h.station.ending
  have hclose : s.machine.onClose (s.generation 0) =
      some ({ s.machine with state := .closed, backoff := s.machine.backoff.advance },
        ⟨s.machine.delay, s.machine.state == .opened⟩) :=
    Machine.onClose_eq_some.mpr
      ⟨by rw [h.generation]; exact h.isCurrent, by rw [h.machine]; exact hstate, rfl⟩
  have hlogs :
      Logs (if s.machine.state == .opened then [s.logInfo "channel closed" []] else []) := by
    split
    · exact logs_one _
    · exact logs_nil
  have hdoublings := doublings_congr before (x := { x with ended := some now }) (y := x) rfl
  rw [Socket.generation] at hclose
  simp only [Socket.report, hclose, List.map_cons, List.foldl_cons, Attempt.note,
    List.modifyLast_concat, hlogs.irrelevant.foldl]
  refine ⟨.retiring s.machine.delay, .closed, doublings (before ++ [x]) + 1, ?_⟩
  exact
    { configured := h.configured
      answers := by
        have hanswers := h.answers
        rwa [List.length_append] at hanswers ⊢
      drivers := h.setPhase _
      machine := by
        simp only [h.machine, Function.iterate_succ_apply']
      station := by
        simp only [Socket.setPhase, modifyDriver, hr, Machine.delay, h.machine, ← hdoublings]
        exact .retiring rfl
      timeline := h.timeline.update rfl hout }

theorem Standing.rest {delay : Duration}
    (h : Standing settings script begun now as s (.retiring delay) state n) :
    Ongoing settings script begun now
      (((s.rest now 0 delay).seen.map (now, ·)).foldl Attempt.note as)
      (s.rest now 0 delay).socket := by
  have hstation := h.station
  generalize hr : s.reconnects = r at hstation
  cases hstation with
  | linked _ hp => simp [Phase.link?] at hp
  | @retiring as x he =>
    refine ⟨.waiting (now + settings.backoff.pause (doublings (as ++ [x]))), .closed,
      doublings (as ++ [x]) + 1, ?_⟩
    exact
      { configured := h.configured
        answers := h.answers
        drivers := h.setPhase _
        machine := h.machine
        station := by
          rw [show (s.rest now 0 _).socket.reconnects = s.reconnects from rfl, hr]
          exact .waiting he (Nat.le_add_right _ _)
        timeline := h.timeline }

theorem Standing.retry {due : Nat}
    (h : Standing settings script begun now as s (.waiting due) state n) (hd : due ≤ now) :
    Ongoing settings script begun now
      (((s.retry 0).seen.map (now, ·)).foldl Attempt.note as) (s.retry 0).socket := by
  have hstation := h.station
  generalize hr : s.reconnects = r at hstation
  cases hstation with
  | linked _ hp => simp [Phase.link?] at hp
  | @waiting as x e he hnow =>
    have hretry : s.machine.onRetry (s.generation 0) =
        some { s.machine with state := .connecting } :=
      Machine.onRetry_eq_some.mpr
        ⟨by rw [h.generation]; exact h.isCurrent, by rw [h.machine], rfl⟩
    rw [Socket.generation] at hretry
    simp only [Socket.retry, hretry]
    refine ⟨.queued, .connecting, doublings (as ++ [x]) + 1, ?_⟩
    exact
      { configured := h.configured
        answers := h.answers
        drivers := h.setPhase _
        machine := by simp only [Move.silent, h.machine]
        station := by
          simp only [Move.silent, hr]
          exact .again he (Nat.le_antisymm hnow hd)
        timeline := h.timeline }

/-- There is one driver. -/
theorem Ongoing.eq_zero (h : Ongoing settings script begun now as s) {b : Bool} {i : Nat}
    (hm : s.step now b i = some m) : i = 0 := by
  obtain ⟨phase, state, n, h⟩ := h
  obtain ⟨d, hd⟩ := (step_stepped hm).exists_driver
  rw [h.drivers] at hd
  cases i with
  | zero => rfl
  | succ i => cases hd

/-- What the driver does at an instant keeps the attempts on their course. -/
theorem Ongoing.step (h : Ongoing settings script begun now as s) {b : Bool} {i : Nat}
    (hm : s.step now b i = some m) :
    Ongoing settings script begun now ((m.seen.map (now, ·)).foldl Attempt.note as) m.socket := by
  obtain rfl := h.eq_zero hm
  obtain ⟨phase, state, n, h⟩ := h
  have hs := step_stepped hm
  rw [Socket.step, h.phase_eq] at hm
  cases phase with
  | queued => cases hm; exact h.attempt.ongoing
  | connecting answer deadline => exact h.connected hm
  | ending => cases hm; exact h.report
  | retiring delay => cases hm; exact h.rest
  | waiting due =>
    replace hm : (if due ≤ now then some (s.retry 0) else none) = some m := hm
    obtain ⟨hd, hm⟩ := Option.ite_none_right_eq_some.mp hm
    cases hm
    exact h.retry hd
  | finished => cases hm
  | announcing link | pumping link | writing link | closing link =>
    have hopened : state = .opened := by
      have hstation := h.station
      generalize s.reconnects = r at hstation
      cases hstation
      rfl
    subst hopened
    exact h.linked rfl hs

/-- Where no driver can go on, that of the session has to wait. -/
theorem Standing.step_eq_none (h : Standing settings script begun now as s phase state n)
    (hs : s.isSettled now = true) (hf : phase.isFinished = false) : s.step now false 0 = none := by
  have hcan : s.canRun now 0 = false := by
    rw [isSettled, List.all_eq_true] at hs
    have h0 := hs 0 (by simp [h.drivers])
    simp_all
  simpa [canRun, h.phase_eq, hf, isAborted, h.drivers] using hcan

theorem Standing.mem_dues (h : Standing settings script begun now as s phase state n) {due : Nat}
    (hd : phase.due? = some due) : due ∈ s.dues := by
  have hf : phase.isFinished = false := by
    cases phase <;> simp_all [Phase.due?, Phase.isFinished]
  simp [dues, h.drivers, hf, hd]

/-- Where only time can pass, the next attempt or the decision of the last one is yet to come. -/
theorem Standing.lt_due (h : Standing settings script begun now as s phase state n)
    (hs : s.isSettled now = true) {due : Nat}
    (hd : due ∈ nextDue settings.backoff.pause settings.timeout.ticks (replyTo script) begun as) :
    now < due ∧ phase.due? = some due := by
  have hstep := h.step_eq_none hs
  rw [Socket.step, h.phase_eq] at hstep
  have hstation := h.station
  generalize s.reconnects = r at hstation
  cases hstation with
  | first | again | failed | retiring => cases hstep rfl
  | linked => simp [nextDue] at hd
  | @connecting as start hnow =>
    obtain rfl : start + (replyTo script as.length).patience settings.timeout.ticks = due := by
      simpa [nextDue] using hd
    refine ⟨Nat.lt_of_le_of_ne hnow fun hnow => ?_, Reply.due?_connecting ..⟩
    have hsettled := Reply.settled_due (Nat.le_of_eq hnow)
    rw [if_pos hnow] at hsettled
    have hstep := hstep rfl
    simp [hsettled] at hstep
  | @waiting as x e he hnow =>
    obtain rfl : e + settings.backoff.pause (doublings (as ++ [x])) = due := by
      simpa [nextDue, he] using hd
    refine ⟨Nat.lt_of_not_le fun hdue => ?_, rfl⟩
    have hstep := hstep rfl
    simp [hdue] at hstep

/-- Time passes only as long as nothing is due. -/
theorem Ongoing.elapse (h : Ongoing settings script begun now as s) {later : Nat}
    (hs : s.isSettled now = true) (hlater : ∀ due ∈ s.dues, now < due → later ≤ due) :
    Ongoing settings script begun later as s := by
  obtain ⟨phase, state, n, h⟩ := h
  have hdue : ∀ due ∈ nextDue settings.backoff.pause settings.timeout.ticks (replyTo script) begun
      as, later ≤ due := by
    intro due hd
    obtain ⟨hlt, hphase⟩ := h.lt_due hs hd
    exact hlater due (h.mem_dues hphase) hlt
  have hstep := h.step_eq_none hs
  rw [Socket.step, h.phase_eq] at hstep
  refine ⟨phase, state, n, { h with station := ?_ }⟩
  have hstation := h.station
  generalize s.reconnects = r at hstation ⊢
  cases hstation with
  | first | again | failed | retiring => cases hstep rfl
  | linked hw hp => exact .linked hw hp
  | connecting => exact .connecting (hdue _ (by simp [nextDue]))
  | waiting he => exact .waiting he (hdue _ (by simp [nextDue, he]))

/-- What is done with links does not concern the attempts. -/
theorem Ongoing.links (h : Ongoing settings script begun now as s)
    (links : List Link) : Ongoing settings script begun now as { s with links } := by
  obtain ⟨phase, state, n, h⟩ := h
  exact ⟨phase, state, n, h.configured, h.answers, h.drivers, h.machine, h.station, h.timeline⟩

/-- The driver of the session is neither to end nor limited. -/
theorem Ongoing.driver (h : Ongoing settings script begun now as s)
    (i : Nat) : s.isAborted i = false ∧ s.isReapDue now i = false := by
  obtain ⟨phase, state, n, h⟩ := h
  cases i <;> simp [isAborted, isReapDue, h.drivers]

/-- The next attempt, or the decision of the last one, is never late. -/
theorem Ongoing.le_due (h : Ongoing settings script begun now as s) {due : Nat}
    (hd : due ∈ nextDue settings.backoff.pause settings.timeout.ticks (replyTo script) begun as) :
    now ≤ due := by
  obtain ⟨phase, state, n, h⟩ := h
  have hstation := h.station
  generalize s.reconnects = r at hstation
  cases hstation with
  | first hnow =>
    simp only [nextDue, List.getLast?_nil, Option.mem_def, Option.some.injEq] at hd
    omega
  | linked => simp [nextDue] at hd
  | again he | retiring he | waiting he =>
    simp only [nextDue, List.getLast?_concat, he, Option.mem_def, Option.some.injEq] at hd
    omega
  | connecting | failed =>
    simp only [nextDue, List.getLast?_concat, List.length_append, List.length_singleton,
      Nat.add_sub_cancel, Option.mem_def, Option.some.injEq] at hd
    omega

/-- All attempts but the first are reconnects, and the one that is about to begin. -/
theorem Ongoing.reconnects (h : Ongoing settings script begun now as s) :
    s.reconnects = as.length - 1 ∨ s.phase 0 = .queued ∧ s.reconnects = as.length := by
  obtain ⟨phase, state, n, h⟩ := h
  rw [h.phase_eq]
  have hstation := h.station
  generalize s.reconnects = r at hstation ⊢
  cases hstation <;> simp

end Standing

end Socket

end TwinLink
