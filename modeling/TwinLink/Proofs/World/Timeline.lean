import TwinLink.Proofs.Socket.Attempts
import TwinLink.Proofs.World.Governance

/-! The timeline of a channel that is opened once. Whatever the program, the peers and the other
channel do, its attempts to connect begin when they are due, are decided in time and follow each
other after delays that only the attempts themselves determine. Main statement: so it is in every
run in which the channel is opened and then neither torn down nor opened again. -/

namespace TwinLink.World

open Socket

variable {σ ι ε : Type} {C : Consumer σ ι ε} {w w' : World σ ι ε}

/-- What happens on a socket, with the instants. -/
def timed (k : ChannelKind) (past : List (World σ ι ε × Entry ε)) : List (Nat × Happening) :=
  past.filterMap fun (v, e) => (e.happening? k).map (v.now, ·)

/-- The attempts of a channel in a run. -/
def attempts (C : Consumer σ ι ε) (k : ChannelKind) (labels : List (Label ι)) (w : World σ ι ε) :
    List Attempt :=
  attemptsIn (timed k (history C labels w))

/-- The attempts of a channel that was opened at the instant `begun` and lasts. -/
structure Punctual (pause : Nat → Nat) (limit : Nat) (reply : Nat → Reply Answer) (begun : Nat)
    (k : ChannelKind) (as : List Attempt) (w : World σ ι ε) : Prop where
  timeline : Timeline pause limit reply begun as
  /-- What is due is never late, and can happen when it is due. -/
  due : ∀ t ∈ nextDue pause limit reply begun as, w.now ≤ t ∧ (w.isSettled = true → w.now < t)
  /-- An attempt that the running driver is about to make counts already. -/
  reconnects : (w.socket k).reconnects = as.length - 1 ∨
    w.running = some (k, 0) ∧ (w.socket k).phase 0 = .queued ∧
      (w.socket k).reconnects = as.length

theorem timed_append (k : ChannelKind) (past news : List (World σ ι ε × Entry ε)) :
    timed k (past ++ news) = timed k past ++ timed k news := List.filterMap_append

theorem timed_news (k : ChannelKind) (es : List (Entry ε)) :
    timed k (es.map (w, ·)) = (es.filterMap (Entry.happening? k)).map (w.now, ·) :=
  filterMap_news (Entry.happening? k) (fun v h => (v.now, h)) w es

/-- A channel that has been opened, with its driver and its attempts so far. -/
structure OnCourse (settings : Settings) (script : List (Reply Answer)) (begun : Nat)
    (k : ChannelKind) (as : List Attempt) (w : World σ ι ε) : Prop where
  ongoing : Ongoing settings script begun w.now as (w.socket k)
  /-- It does not stop between the end of a delay and the next attempt. -/
  queued : (w.socket k).phase 0 = .queued → as = [] ∨ w.running = some (k, 0)

section Step

variable {settings : Settings} {script : List (Reply Answer)} {begun : Nat} {k : ChannelKind}
  {as : List Attempt} {l : Label ι}

/-- Nothing that concerns the attempts happens. -/
theorem OnCourse.stay (h : OnCourse settings script begun k as w) {es : List (Entry ε)}
    {links : List Link} (hs : w'.socket k = { w.socket k with links }) (hn : w'.now = w.now)
    (hq : (w.socket k).phase 0 = .queued → as = [] ∨ w'.running = some (k, 0))
    (he : Irrelevant (es.filterMap (Entry.happening? k))) :
    OnCourse settings script begun k
      (((es.filterMap (Entry.happening? k)).map (w.now, ·)).foldl Attempt.note as) w' where
  ongoing := by
    rw [he.foldl, hs, hn]
    exact h.ongoing.links links
  queued := by
    rw [he.foldl, hs]
    exact hq

theorem settled_of_elapse {ms : Nat} (h : (w.elapse ms).now ≠ w.now) (k : ChannelKind) :
    (w.socket k).isSettled w.now = true ∧
      ∀ due ∈ (w.socket k).dues, w.now < due → w.now + ms ≤ due := by
  simp only [elapse] at h
  split at h
  next hc =>
    simp only [Bool.and_eq_true, isSettled, List.all_eq_true, dues, List.mem_filter,
      List.mem_append, decide_eq_true_eq] at hc
    obtain ⟨⟨⟨-, hlive⟩, hcommand⟩, hdues⟩ := hc
    cases k with
    | live => exact ⟨hlive, fun due hd hlt => hdues due ⟨.inl hd, hlt⟩⟩
    | command => exact ⟨hcommand, fun due hd hlt => hdues due ⟨.inr hd, hlt⟩⟩
  next => exact absurd rfl h

/-- A driver that has no next step is not about to make an attempt. -/
theorem OnCourse.not_queued (h : OnCourse settings script begun k as w) {k' : ChannelKind} {i : Nat}
    {b : Bool} (hr : w.running = some (k', i)) (hm : (w.socket k').step w.now b i = none)
    (hq : (w.socket k).phase 0 = .queued) : as = [] := by
  rcases h.queued hq with has | hrun
  · exact has
  · obtain ⟨rfl, rfl⟩ := Prod.mk.inj (Option.some.inj (hr.symm.trans hrun))
    simp [Socket.step, hq] at hm

theorem OnCourse.act (h : OnCourse settings script begun k as w) (hl : w.session? k l = none) :
    OnCourse settings script begun k
      ((timed k ((news C l w).map (w, ·))).foldl Attempt.note as) (act C w l) := by
  rw [timed_news]
  have hacted := act_acted C w l
  generalize hw' : World.act C w l = w' at hacted
  generalize news C l w = es at hacted
  have hnothing : Irrelevant [] := by simp [Irrelevant]
  -- an operation on the other socket
  have hother {u : World σ ι ε} {k' : ChannelKind} {m : Move} (hk : k ≠ k')
      (hu : ∀ k, u.socket k = w.socket k) (hn : u.now = w.now)
      (hq : (w.socket k).phase 0 = .queued → as = [] ∨ u.running = some (k, 0)) :
      OnCourse settings script begun k
        ((((Entry.ofMove k' m).filterMap (Entry.happening? (ε := ε) k)).map (w.now, ·)).foldl
          Attempt.note as) (u.settle C k' m) := by
    obtain rfl := eq_other hk
    refine h.stay ((socket_settle_other C k' m u).trans (hu _)) ((now_settle C k' m u).trans hn)
      (by rwa [running_settle]) ?_
    rw [filterMap_ofMove_other]
    exact hnothing
  cases hacted with
  | stay => exact h.stay rfl rfl h.queued hnothing
  | call | refused => exact h.stay (socket_congr rfl rfl k) rfl h.queued hnothing
  | work =>
    exact h.stay (socket_congr rfl rfl k) rfl h.queued
      (by simp [Irrelevant, Function.comp_def, Entry.happening?])
  | @connect k' rest b hp =>
    by_cases hk : k = k'
    · subst hk
      have hlive : (w.socket k).state ≠ .closed := by
        intro hc
        simp [session?, performed, hp, hc] at hl
      rw [connect_of_live hlive]
      refine h.stay (socket_settle_self C k _ _) (now_settle C k _ _)
        (by rw [running_settle]; exact h.queued) ?_
      rw [filterMap_ofMove_self]
      exact hnothing
    · exact hother hk (socket_congr rfl rfl) rfl h.queued
  | @teardown k' rest b hp =>
    by_cases hk : k = k'
    · subst hk
      simp [session?, performed, hp] at hl
    · exact hother hk (socket_congr rfl rfl) rfl h.queued
  | @sent k' text reply rest m b hp hm =>
    by_cases hk : k = k'
    · subst hk
      obtain ⟨link, -, -, -, rfl⟩ := send_eq_ok.mp hm
      refine h.stay (socket_settle_self C k _ _) (now_settle C k _ _)
        (by rw [running_settle]; exact h.queued) ?_
      rw [filterMap_ofMove_self]
      simp [Irrelevant]
    · exact hother hk (socket_congr rfl rfl) rfl h.queued
  | @step k' i b m hp hr hm =>
    by_cases hk : k = k'
    · subst hk
      rw [filterMap_ofMove_self]
      exact
        { ongoing := by
            rw [now_settle, socket_settle_self]
            exact h.ongoing.step hm
          queued := fun _ => .inr (by rw [running_settle, hr, h.ongoing.eq_zero hm]) }
    · exact hother hk (socket_congr rfl rfl) rfl h.queued
  | @stop k' i b hp hr hm =>
    exact h.stay (socket_congr rfl rfl k) rfl (fun hq => .inl (h.not_queued hr hm hq)) hnothing
  | @discard k' i b hp hr hm ha =>
    by_cases hk : k = k'
    · subst hk
      rw [(h.ongoing.driver i).1] at ha
      cases ha
    · exact hother hk (socket_congr rfl rfl) rfl fun hq => .inl (h.not_queued hr hm hq)
  | poll hp hr =>
    refine h.stay (socket_congr rfl rfl k) rfl (fun hq => ?_) hnothing
    rcases h.queued hq with has | hrun
    · exact .inl has
    · cases hr.symm.trans hrun
  | @cancel k' i hp hr ha =>
    by_cases hk : k = k'
    · subst hk
      rw [(h.ongoing.driver i).1] at ha
      cases ha
    · exact hother hk (socket_congr rfl rfl) rfl h.queued
  | @reap k' i hp hr hd =>
    by_cases hk : k = k'
    · subst hk
      rw [(h.ongoing.driver i).2] at hd
      cases hd
    · exact hother hk (socket_congr rfl rfl) rfl h.queued
  | arrive k' link item =>
    have hlinks : (w.setSocket k' ((w.socket k').arrive link item)).socket k = { w.socket k with
        links := ((w.setSocket k' ((w.socket k').arrive link item)).socket k).links } := by
      cases k <;> cases k' <;> rfl
    exact h.stay hlinks (by cases k' <;> rfl) (by cases k' <;> exact h.queued) hnothing
  | hangUp k' link =>
    have hlinks : (w.setSocket k' ((w.socket k').hangUp link)).socket k = { w.socket k with
        links := ((w.setSocket k' ((w.socket k').hangUp link)).socket k).links } := by
      cases k <;> cases k' <;> rfl
    exact h.stay hlinks (by cases k' <;> rfl) (by cases k' <;> exact h.queued) hnothing
  | @elapse ms hp hr =>
    by_cases hms : ms = 0
    · subst hms
      exact h.stay (socket_congr rfl rfl k) rfl h.queued hnothing
    · have hne : (w.elapse ms).now ≠ w.now := by
        rw [show w.elapse ms = { w with now := w.now + ms } from hw']
        simp [hms]
      have hk : ({ w with now := w.now + ms } : World σ ι ε).socket k = w.socket k :=
        socket_congr rfl rfl k
      obtain ⟨hsettled, hdues⟩ := settled_of_elapse hne k
      exact
        { ongoing := by
            rw [hk]
            exact h.ongoing.elapse hsettled hdues
          queued := by
            rw [hk]
            exact h.queued }

end Step

/-! ### Runs -/

section Run

variable {settings : Settings} {script : List (Reply Answer)} {begun : Nat} {k : ChannelKind}
  {as : List Attempt} {l : Label ι}

theorem history_append (p q : List (Label ι)) (w : World σ ι ε) :
    history C (p ++ q) w = history C p w ++ history C q (run C p w) := by
  induction p generalizing w with
  | nil => rfl
  | cons l p ih =>
    rw [List.cons_append, history_cons, ih, history_cons, List.append_assoc, run_cons]

theorem sessions_cons (l : Label ι) (labels : List (Label ι)) (w : World σ ι ε) :
    sessions C k (l :: labels) w =
      (w.session? k l).toList ++ sessions C k labels (act C w l) := by
  rw [← sessionsOf_one, sessions, sessions, moments, ← sessionsOf_append]
  rfl

/-- A channel that is never opened does nothing. -/
theorem dormant_of_shift {m : Move} (h : Shift (Socket.ofSettings settings script) none m) :
    m.socket = .ofSettings settings script ∧ m.seen = [] := by
  cases h with
  | stay => exact ⟨rfl, rfl⟩
  | arrive | hangUp =>
    exact ⟨by simp [Move.silent, arrive, hangUp, modifyLink, Socket.ofSettings], rfl⟩
  | send hl => cases hl
  | step hm => exact absurd rfl hm.phase_ne
  | discard ha => cases ha
  | reap hr => cases hr

theorem run_dormant (labels : List (Label ι)) (w : World σ ι ε)
    (h : w.socket k = .ofSettings settings script) (hs : sessions C k labels w = []) :
    (run C labels w).socket k = .ofSettings settings script ∧
      timed k (history C labels w) = [] := by
  induction labels generalizing w with
  | nil => exact ⟨h, rfl⟩
  | cons l labels ih =>
    rw [sessions_cons, List.append_eq_nil_iff] at hs
    obtain ⟨m, hm⟩ := (act_acted C w l).exists_shifted k
    have hshift := hm.shift
    rw [h, Option.toList_eq_nil_iff.mp hs.1] at hshift
    obtain ⟨hsocket, hseen⟩ := dormant_of_shift hshift
    obtain ⟨hrun, htimed⟩ := ih _ (hm.socket.trans hsocket) hs.2
    refine ⟨hrun, ?_⟩
    rw [history_cons, timed_append, timed_news, hm.seen, hseen, htimed]
    rfl

theorem now_act_of_session {b : Bool} (h : w.session? k l = some b) :
    (act C w l).now = w.now := by
  have hacted := act_acted C w l
  generalize act C w l = w' at hacted
  generalize news C l w = es at hacted
  cases hacted with
  | elapse => cases h
  | arrive | hangUp => cases h
  | connect | teardown | sent | step | discard | cancel | reap => exact now_settle C _ _ _
  | _ => rfl

/-- A channel that is opened for the first time. -/
theorem onCourse_open (h : w.socket k = .ofSettings settings script)
    (hl : w.session? k l = some true) :
    OnCourse settings script w.now k [] (act C w l) ∧
      timed k ((news C l w).map (w, ·)) = [] := by
  obtain ⟨m, hm⟩ := (act_acted C w l).exists_shifted k
  have hshift := hm.shift
  rw [h, hl] at hshift
  cases hshift with
  | connect hc =>
    rw [connect_of_closed hc] at hm
    have hstanding : Standing settings script w.now w.now [] ((act C w l).socket k) .queued
        .connecting 0 := by
      rw [hm.socket]
      exact
        { configured := rfl
          answers := rfl
          drivers := rfl
          machine := rfl
          station := .first rfl
          timeline := timeline_nil }
    refine ⟨⟨?_, fun _ => .inl rfl⟩, ?_⟩
    · rw [now_act_of_session hl]
      exact hstanding.ongoing
    · rw [timed_news, hm.seen]
      rfl

theorem OnCourse.run (labels : List (Label ι)) (w : World σ ι ε)
    (h : OnCourse settings script begun k as w) (hs : sessions C k labels w = []) :
    OnCourse settings script begun k ((timed k (history C labels w)).foldl Attempt.note as)
      (run C labels w) := by
  induction labels generalizing w as with
  | nil => exact h
  | cons l labels ih =>
    rw [sessions_cons, List.append_eq_nil_iff] at hs
    rw [history_cons, timed_append, List.foldl_append, run_cons]
    exact ih _ (h.act (Option.toList_eq_nil_iff.mp hs.1)) hs.2

theorem OnCourse.punctual (h : OnCourse settings script begun k as w) :
    Punctual settings.backoff.pause settings.timeout.ticks (replyTo script) begun k as w where
  timeline := by
    obtain ⟨phase, state, n, hstanding⟩ := h.ongoing
    exact hstanding.timeline
  due t ht := by
    refine ⟨h.ongoing.le_due ht, fun hs => ?_⟩
    obtain ⟨phase, state, n, hstanding⟩ := h.ongoing
    simp only [isSettled, Bool.and_eq_true] at hs
    refine (hstanding.lt_due ?_ ht).1
    cases k with
    | live => exact hs.1.2
    | command => exact hs.2
  reconnects := by
    rcases h.ongoing.reconnects with hr | ⟨hq, hr⟩
    · exact .inl hr
    · rcases h.queued hq with rfl | hrun
      · exact .inl hr
      · exact .inr ⟨hrun, hq, hr⟩

end Run

/-- Every attempt of a channel that is opened once and lasts begins exactly when it is due, after
a delay that doubles from one failure to the next and is the first one again once a link was
open. -/
theorem run_punctual (C : Consumer σ ι ε) (k : ChannelKind) (kind : ChannelKind) (url : Url)
    (timeout : Duration) (script : List (Reply Answer)) (initial ceiling : Nat)
    (hceiling : ceiling * nanosPerMilli ≤ longestSpan) (w : World σ ι ε)
    (hw : w.socket k =
      .ofSettings ⟨kind, url, ⟨.ofMillis initial, .ofMillis ceiling⟩, timeout⟩ script)
    (before after : List (Label ι)) (l : Label ι) (hbefore : sessions C k before w = [])
    (hopen : (run C before w).session? k l = some true)
    (hafter : sessions C k after (act C (run C before w) l) = []) :
    Punctual (fun n => min (initial * 2 ^ n) ceiling) timeout.ticks (replyTo script)
      (run C before w).now k (attempts C k (before ++ l :: after) w)
      (run C (before ++ l :: after) w) := by
  obtain ⟨hsocket, htimed⟩ := run_dormant before w hw hbefore
  obtain ⟨hstart, hnews⟩ := onCourse_open (C := C) hsocket hopen
  have hrun := (hstart.run after _ hafter).punctual
  have hpause : Backoff.Bounds.pause ⟨.ofMillis initial, .ofMillis ceiling⟩ =
      fun n => min (initial * 2 ^ n) ceiling := funext (Backoff.pause_ofMillis hceiling)
  rw [attempts, attemptsIn, history_append, history_cons, timed_append, timed_append, htimed, hnews,
    run_append, run_cons]
  rwa [hpause] at hrun

/-- A network that refuses at first, then does not answer and then accepts. -/
def faltering : ChannelKind → List (Reply Answer) :=
  fun _ => [.now (.error (.connect "refused")), .never,
    .now (.ok ⟨fun _ => .now (.ok ()), .now ()⟩)]

/-- A channel that is opened after five milliseconds, and what its driver does until it has a
link. -/
def persisting : List (Label Unit) :=
  [.poll .live 0, .proceed false, .proceed false, .proceed false, .proceed false, .proceed false,
    .elapse 1000, .poll .live 0, .proceed false, .proceed false, .proceed false,
    .elapse 10000, .poll .live 0, .proceed false, .proceed false, .proceed false, .proceed false,
    .elapse 2000, .poll .live 0, .proceed false, .proceed false, .proceed false]

theorem run_punctual_faltering :
    let w : World Unit Unit Unit :=
      ofSettings (plainSettings .live) (plainSettings .command) faltering ()
    let as := attempts Consumer.idle .live
      ([.elapse 5, .call (.connect .live)] ++ .proceed false :: persisting) w
    as = [⟨5, none, some 5⟩, ⟨1005, none, some 11005⟩, ⟨13005, some 13005, none⟩] ∧
      Punctual (fun n => min (1000 * 2 ^ n) 30000) 10000 (replyTo (faltering .live)) 5 .live as
        (run Consumer.idle ([.elapse 5, .call (.connect .live)] ++ .proceed false :: persisting)
          w) := by
  intro w as
  refine ⟨by decide +kernel, ?_⟩
  exact run_punctual Consumer.idle .live .live (plainSettings .live).url (.ofMillis 10000)
    (faltering .live) 1000 30000 (by decide) w rfl [.elapse 5, .call (.connect .live)] persisting
    (.proceed false) (by decide +kernel) (by decide +kernel) (by decide +kernel)

end TwinLink.World
