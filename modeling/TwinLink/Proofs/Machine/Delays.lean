import TwinLink.Proofs.Backoff.Doubling
import TwinLink.Proofs.Machine.Sessions

/-! The delays of a machine, over all runs of its calls. A delay is doubled by each close that a
new attempt follows, and starts anew when the machine is created, when a session opens and when
it is torn down. Nothing else changes it, least of all what is refused. Main statement: whatever
the bounds, the delay is that of exact arithmetic for the number of closes since it started
anew; between two starts the delays do not fall, and none is above the ceiling. -/

namespace TwinLink.Machine

open Backoff (advance)

/-- Whether delays start anew: a session has opened, or the machine has been torn down. -/
def restarts : Call × Answer → Bool
  | (.onOpen _, .accepted) | (.teardown, _) => true
  | _ => false

/-- Whether a connection has ended or not come about, and another attempt is to follow. -/
def fails : Call × Answer → Bool
  | (.onClose _, .reconnect _) => true
  | _ => false

/-- The failures since delays have started anew. -/
def failures (past : List (Call × Answer)) : Nat :=
  (past.reverse.takeWhile fun e => !restarts e).countP fails

/-- How a machine with the bounds `b` keeps to its delays. It has come to be `m` in a run with
the transcript `past`; `c` is what is asked next, and `later` is a run that may follow. -/
structure Paced (b : Backoff.Bounds) (past : List (Call × Answer)) (m : Machine) (c : Call)
    (later : List Call) : Prop where
  delay : m.delay.nanos = min (b.initial.nanos * 2 ^ failures past) b.ceiling.nanos
  /-- Doubled in words, with a carry from the nanoseconds to the seconds, it is the same. -/
  words : m.delay.nanos = (b.wordDelay (failures past)).total
  /-- A close is answered with the delay as it was. -/
  closing : ∀ closing, (c.run m).2 = .reconnect closing → closing.delay = m.delay
  kept : (c = .beginOpen ∨ (∃ g, c = .onRetry g) ∨
    (∃ g, c = .onClose g ∨ c = .onOpen g) ∧ (c.run m).2 = .refused) → (c.run m).1.delay = m.delay
  /-- No delay is shorter than one before it, unless delays have started anew. -/
  rising : (∀ e ∈ transcript later m, restarts e = false) →
    m.delay.nanos ≤ (run later m).delay.nanos
  ceiling : m.delay.nanos ≤ b.ceiling.nanos

section Step

variable {past : List (Call × Answer)} {b : Backoff.Bounds} {m : Machine}

theorem failures_append_one (past : List (Call × Answer)) (e : Call × Answer) :
    failures (past ++ [e]) =
      if restarts e then 0 else failures past + if fails e then 1 else 0 := by
  rw [failures, List.reverse_append, List.reverse_singleton, List.singleton_append,
    List.takeWhile_cons]
  cases restarts e <;> simp [failures, List.countP_cons]

/-- What a call does to the delays: it starts them anew, doubles them or leaves them. -/
theorem backoff_run (m : Machine) (c : Call) :
    (c.run m).1.backoff =
      if restarts (c, (c.run m).2) then m.backoff.reset
      else if fails (c, (c.run m).2) then m.backoff.advance
      else m.backoff := by
  cases c with
  | teardown => rfl
  | beginOpen =>
    cases h : m.beginOpen with
    | none => simp [Call.run, h, restarts, fails]
    | some n =>
      obtain ⟨-, rfl⟩ := beginOpen_eq_some.mp h
      simp [Call.run, h, restarts, fails]
  | onOpen g =>
    cases h : m.onOpen g with
    | none => simp [Call.run, h, restarts, fails]
    | some n =>
      obtain ⟨-, -, rfl⟩ := onOpen_eq_some.mp h
      simp [Call.run, h, restarts]
  | onClose g =>
    cases h : m.onClose g with
    | none => simp [Call.run, h, restarts, fails]
    | some r =>
      obtain ⟨-, -, rfl⟩ := onClose_eq_some.mp h
      simp [Call.run, h, restarts, fails]
  | onRetry g =>
    cases h : m.onRetry g with
    | none => simp [Call.run, h, restarts, fails]
    | some n =>
      obtain ⟨-, -, rfl⟩ := onRetry_eq_some.mp h
      simp [Call.run, h, restarts, fails]

theorem delay_of_reconnect {c : Call} {closing : Closing} (h : (c.run m).2 = .reconnect closing) :
    closing.delay = m.delay := by
  cases c with
  | teardown => cases h
  | beginOpen => cases hm : m.beginOpen <;> simp [Call.run, hm] at h
  | onOpen g => cases hm : m.onOpen g <;> simp [Call.run, hm] at h
  | onRetry g => cases hm : m.onRetry g <;> simp [Call.run, hm] at h
  | onClose g =>
    cases hm : m.onClose g with
    | none => simp [Call.run, hm] at h
    | some r =>
      obtain ⟨-, -, rfl⟩ := onClose_eq_some.mp hm
      simp only [Call.run, hm, Option.elim_some, Answer.reconnect.injEq] at h
      rw [← h]

theorem delay_kept {c : Call} (h : c = .beginOpen ∨ (∃ g, c = .onRetry g) ∨
    (∃ g, c = .onClose g ∨ c = .onOpen g) ∧ (c.run m).2 = .refused) :
    (c.run m).1.delay = m.delay := by
  have hneither : restarts (c, (c.run m).2) = false ∧ fails (c, (c.run m).2) = false := by
    rcases h with rfl | ⟨g, rfl⟩ | ⟨-, hrefused⟩
    · exact ⟨rfl, rfl⟩
    · exact ⟨rfl, rfl⟩
    · rw [hrefused]
      cases c <;> simp_all [restarts, fails, Call.run]
  rw [delay, backoff_run, hneither.1, hneither.2]
  rfl

/-- The backoff after a run is that of its failures since delays last started anew. -/
theorem backoff_transcript (b : Backoff.Bounds) (calls : List Call) :
    (run calls (ofBounds b)).backoff =
      advance^[failures (transcript calls (ofBounds b))] (Backoff.ofBounds b) := by
  induction calls using List.reverseRecOn with
  | nil => rfl
  | append_singleton calls c ih =>
    rw [run_append, transcript_append_one, failures_append_one, run_cons, run_nil, backoff_run, ih]
    split
    · rw [Backoff.reset, Backoff.bounds_iterate_advance]
      rfl
    · split
      · exact (Function.iterate_succ_apply' ..).symm
      · rfl

/-- Without a start anew the failures only grow. -/
theorem failures_mono {later : List (Call × Answer)} (h : ∀ e ∈ later, restarts e = false) :
    failures past ≤ failures (past ++ later) := by
  have hall : ∀ e ∈ later.reverse, (!restarts e) = true := by simpa using h
  rw [failures, failures, List.reverse_append, List.takeWhile_append_of_pos hall,
    List.countP_append]
  exact Nat.le_add_left ..

end Step

theorem transcript_append (p q : List Call) (m : Machine) :
    transcript (p ++ q) m = transcript p m ++ transcript q (run p m) := by
  induction p generalizing m with
  | nil => rfl
  | cons c p ih => rw [List.cons_append, transcript, ih, transcript, run_cons, List.cons_append]

/-- In exact nanoseconds the delay after a run is the initial one, doubled for each failure since
delays last started anew, as far as the ceiling allows. -/
theorem nanos_delay_run (b : Backoff.Bounds) (calls : List Call) :
    (run calls (ofBounds b)).delay.nanos =
      min (b.initial.nanos * 2 ^ failures (transcript calls (ofBounds b)))
        b.ceiling.nanos := by
  rw [delay, backoff_transcript, Backoff.nanos_iterate_advance]

/-- Whatever its bounds and whatever is asked of it, a machine keeps to its delays. -/
theorem run_paced (b : Backoff.Bounds) (calls : List Call) (c : Call) (later : List Call) :
    Paced b (transcript calls (ofBounds b)) (run calls (ofBounds b)) c later where
  delay := nanos_delay_run b calls
  words := by rw [delay, backoff_transcript, Backoff.total_wordDelay]
  closing _ := delay_of_reconnect
  kept := delay_kept
  rising h := by
    have hpow : 2 ^ failures (transcript calls (ofBounds b)) ≤
        2 ^ failures (transcript (calls ++ later) (ofBounds b)) := by
      rw [transcript_append]
      exact Nat.pow_le_pow_right (by decide) (failures_mono h)
    rw [← run_append, nanos_delay_run, nanos_delay_run]
    have hle := Nat.mul_le_mul_left b.initial.nanos hpow
    omega
  ceiling := by
    rw [nanos_delay_run]
    exact Nat.min_le_right ..

end TwinLink.Machine
