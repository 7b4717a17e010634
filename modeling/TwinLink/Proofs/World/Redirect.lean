import TwinLink.Proofs.Socket.Redirect
import TwinLink.World

/-! Systems that differ in the addresses of their sockets alone. A consumer that does not look at
the addresses asks for the same over any of them, so that a run over other addresses is the same
run, but for the addresses and what it says of asking the network for them. -/

namespace TwinLink.World

open Socket

variable {σ ι ε : Type}

def View.redirect (us : ChannelKind → Url) (v : View) : View :=
  { v with live := v.live.redirect (us .live), command := v.command.redirect (us .command) }

/-- A consumer that does not look at the addresses of the sockets. -/
def Consumer.Oblivious (C : Consumer σ ι ε) : Prop :=
  ∀ us v item state, C.perform (View.redirect us v) item state = C.perform v item state

def Entry.redirect (us : ChannelKind → Url) : Entry ε → Entry ε
  | socket k h => socket k (h.redirect (us k))
  | e => e

/-- The system over other addresses. -/
def redirect (us : ChannelKind → Url) (w : World σ ι ε) : World σ ι ε :=
  { w with
    live := w.live.redirect (us .live)
    command := w.command.redirect (us .command)
    trace := w.trace.map fun e => (e.1, e.2.redirect us) }

section Redirect

variable (us : ChannelKind → Url) (w : World σ ι ε)

theorem socket_redirect (k : ChannelKind) :
    (w.redirect us).socket k = (w.socket k).redirect (us k) := by
  cases k <;> rfl

theorem redirect_redirect (vs : ChannelKind → Url) :
    (w.redirect vs).redirect us = w.redirect us := by
  have htrace : (w.trace.map fun e => (e.1, e.2.redirect vs)).map
      (fun e => (e.1, e.2.redirect us)) = w.trace.map fun e => (e.1, e.2.redirect us) := by
    rw [List.map_map]
    apply List.map_congr_left
    rintro ⟨t, e⟩ -
    cases e with
    | socket k h => cases h <;> rfl
    | callback | note => rfl
  simp only [redirect, htrace, Socket.redirect_redirect]

theorem setSocket_redirect (k : ChannelKind) (s : Socket) :
    (w.redirect us).setSocket k (s.redirect (us k)) = (w.setSocket k s).redirect us := by
  cases k <;> rfl

theorem record_redirect (entries : List (Entry ε)) :
    (w.redirect us).record (entries.map (Entry.redirect us)) = (w.record entries).redirect us := by
  simp [record, redirect, Function.comp_def]

/-- Notes and callbacks tell no address. -/
theorem record_note_redirect (notes : List ε) :
    (w.redirect us).record (notes.map .note) = (w.record (notes.map .note)).redirect us := by
  rw [← record_redirect, List.map_map]
  rfl

variable (C : Consumer σ ι ε)

theorem settle_redirect (k : ChannelKind) (m : Move) :
    (w.redirect us).settle C k (m.redirect (us k)) = (w.settle C k m).redirect us := by
  have hseen : ((w.redirect us).setSocket k (m.socket.redirect (us k))).record
        ((m.seen.map (Happening.redirect (us k))).map (.socket k)) =
      ((w.setSocket k m.socket).record (m.seen.map (.socket k))).redirect us := by
    rw [setSocket_redirect, ← record_redirect, List.map_map, List.map_map]
    rfl
  unfold settle
  dsimp only [Move.redirect]
  rw [hseen]
  cases m.callback with
  | none => rfl
  | some c =>
    dsimp only
    have hcallback := record_redirect us
      ((w.setSocket k m.socket).record (m.seen.map (.socket k))) [.callback k c]
    rw [show [Entry.callback k c].map (Entry.redirect us) = [Entry.callback k c] from rfl]
      at hcallback
    rw [hcallback]
    rfl

theorem canRun_redirect (u : Url) (s : Socket) (now i : Nat) :
    (s.redirect u).canRun now i = s.canRun now i := by
  unfold canRun
  rw [step_redirect, Option.isSome_map]
  rfl

theorem isSettled_redirect : (w.redirect us).isSettled = w.isSettled := by
  have h (k : ChannelKind) :
      ((w.socket k).redirect (us k)).isSettled w.now = (w.socket k).isSettled w.now := by
    unfold Socket.isSettled
    congr 1
    funext i
    rw [canRun_redirect]
    rfl
  have hlive : (w.redirect us).live.isSettled w.now = w.live.isSettled w.now := h .live
  have hcommand : (w.redirect us).command.isSettled w.now = w.command.isSettled w.now := h .command
  unfold World.isSettled
  rw [show (w.redirect us).now = w.now from rfl, hlive, hcommand]
  rfl

variable {C}

theorem perform_redirect (hC : C.Oblivious) (t : Task ι) :
    perform C t (w.redirect us) = (perform C t w).redirect us := by
  cases t with
  | work item =>
    have ho : C.perform (w.redirect us).view item w.state = C.perform w.view item w.state :=
      hC us w.view item w.state
    unfold perform
    dsimp only
    rw [show (w.redirect us).state = w.state from rfl, ho, record_note_redirect]
    rfl
  | connect k =>
    unfold perform
    dsimp only
    rw [socket_redirect, connect_redirect, settle_redirect]
  | teardown k =>
    unfold perform
    dsimp only
    rw [socket_redirect, teardown_redirect, show (w.redirect us).now = w.now from rfl,
      settle_redirect]
  | send k text reply =>
    unfold perform
    dsimp only
    rw [socket_redirect, send_redirect]
    cases (w.socket k).send text with
    | error e => rfl
    | ok m =>
      dsimp only [Except.map]
      rw [settle_redirect]
      rfl

theorem drive_redirect (b : Bool) (k : ChannelKind) (i : Nat) :
    (w.redirect us).drive C b k i = (w.drive C b k i).redirect us := by
  unfold drive
  dsimp only
  rw [socket_redirect, step_redirect, show (w.redirect us).now = w.now from rfl]
  cases (w.socket k).step w.now b i with
  | some m => exact settle_redirect us w C k m
  | none =>
    dsimp only [Option.map_none]
    rw [discard_redirect]
    have hsettle := settle_redirect us { w with running := none } C k ((w.socket k).discard i)
    by_cases ha : (w.socket k).isAborted i && !((w.socket k).phase i).isFinished
    · rw [if_pos ha]
      exact (if_pos ha).trans hsettle
    · rw [if_neg ha]
      exact if_neg ha

/-- A label does the same over any addresses. -/
theorem act_redirect (hC : C.Oblivious) (l : Label ι) :
    act C (w.redirect us) l = (act C w l).redirect us := by
  cases l with
  | call t =>
    unfold act
    dsimp only
    rw [show (w.redirect us).agenda = w.agenda from rfl]
    split <;> rfl
  | proceed b =>
    unfold act proceed
    dsimp only
    rw [show (w.redirect us).agenda = w.agenda from rfl,
      show (w.redirect us).running = w.running from rfl]
    cases w.agenda with
    | cons t rest => exact perform_redirect us { w with agenda := rest } hC t
    | nil =>
      cases w.running with
      | none => rfl
      | some r => exact drive_redirect us w b r.1 r.2
  | poll k i =>
    unfold act poll
    dsimp only
    rw [socket_redirect, discard_redirect, settle_redirect]
    by_cases hp : !w.isIdle || ((w.socket k).phase i).isFinished
    · rw [if_pos hp]
      exact if_pos hp
    · rw [if_neg hp]
      refine (if_neg hp).trans ?_
      by_cases ha : (w.socket k).isAborted i
      · rw [if_pos ha]
        exact if_pos ha
      · rw [if_neg ha]
        exact if_neg ha
  | reap k i =>
    unfold act reap
    dsimp only
    rw [socket_redirect, reap_redirect, settle_redirect]
    by_cases hd : w.isIdle && (w.socket k).isReapDue w.now i
    · rw [if_pos hd]
      exact if_pos hd
    · rw [if_neg hd]
      exact if_neg hd
  | arrive k link item =>
    unfold act
    dsimp only
    rw [socket_redirect]
    exact setSocket_redirect us w k ((w.socket k).arrive link item)
  | hangUp k link =>
    unfold act
    dsimp only
    rw [socket_redirect]
    exact setSocket_redirect us w k ((w.socket k).hangUp link)
  | elapse ms =>
    unfold act elapse
    dsimp only
    rw [isSettled_redirect, show (w.redirect us).dues = w.dues from rfl,
      show (w.redirect us).now = w.now from rfl]
    split <;> rfl

/-- A run over other addresses. -/
theorem run_redirect (hC : C.Oblivious) (labels : List (Label ι)) :
    run C labels (w.redirect us) = (run C labels w).redirect us := by
  induction labels generalizing w with
  | nil => rfl
  | cons l labels ih => rw [run_cons, run_cons, act_redirect us w hC, ih]

end Redirect

end TwinLink.World
