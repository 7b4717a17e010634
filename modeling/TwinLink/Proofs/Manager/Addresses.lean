import TwinLink.Proofs.Config.Lookup
import TwinLink.Proofs.Manager.Disconnect
import TwinLink.Proofs.Url.Parts

/-! Where the channels connect to. A socket keeps its settings in whatever happens to it and asks
the network for the URL in them, so a run asks for one URL a channel: the live endpoint as it was
given, and the command endpoint, to whose query the credential is added as one more pair. -/

namespace TwinLink

namespace Url

/-- The URL `v` is `u` with a pair behind the pairs of its query. -/
structure Extends (name value : String) (u v : Url) : Prop where
  /-- Scheme, credentials, host, port, path and fragment are those of `u`. -/
  frame : v = { u with query := v.query }
  pairs : Form.pairs (v.query.getD []) = Form.pairs (u.query.getD []) ++ [(name, value)]
  /-- The text of `v` has that query in its place, and the rest of it is that of `u`. -/
  text : Parts.read v.text.toList = { Parts.read u.text.toList with query := v.query }

theorem Clean.extends_withPair {u : Url} (h : u.Clean) (name value : String) :
    u.Extends name value (u.withPair name value) where
  frame := rfl
  pairs := by
    rw [Url.withPair, Option.getD_some]
    exact Form.pairs_append name value _
  text := by
    rw [h.parts_withPair, h.parts]
    rfl

end Url

/-- The command endpoint that is accepted is read from a text. -/
theorem Config.clean_of_ofEndpointsBy {naming : Url.Naming} {live command : String} {c : Config}
    (h : Config.ofEndpointsBy (Url.readBy naming) live command = .ok c) : c.commandUrl.Clean := by
  obtain ⟨liveUrl, -, h⟩ := Json.bind_eq_ok.mp h
  obtain ⟨commandUrl, hcommand, h⟩ := Json.bind_eq_ok.mp h
  cases h
  exact Url.clean_of_readBy (endpointBy_eq_ok.mp hcommand)

namespace Socket

variable {s : Socket} {m : Move}

theorem Stepped.settings {now i : Nat} (h : Stepped now i s m) :
    m.socket.settings = s.settings := by
  cases h <;> rfl

/-- A driver asks the network for the URL of the settings, and for nothing else. -/
theorem Stepped.attempt_eq {now i : Nat} (h : Stepped now i s m) {text : String}
    (ht : .attempt text ∈ m.seen) : text = s.settings.url.text := by
  cases h with
  | attempt =>
    cases List.mem_singleton.mp ht
    rfl
  | readLast _ _ _ _ hs | unwritten _ hs | closed _ _ hs =>
    exact absurd ht (by simp [leave, hs.not_mem])
  | dismissed | exhausted | release => simp [leave, Socket.release] at ht
  | _ => exact absurd ht (by simp [Move.silent, logInfo, Socket.rest])

theorem settings_teardown (now : Nat) (s : Socket) :
    (s.teardown now).socket.settings = s.settings := by
  cases hd : s.driver <;> cases ha : s.sender.filter s.isHeld <;> simp [teardown, hd, ha]

theorem settings_discard (s : Socket) (i : Nat) : (s.discard i).socket.settings = s.settings := by
  unfold discard
  split <;> rfl

theorem Shift.settings {b : Option Bool} (h : Shift s b m) : m.socket.settings = s.settings := by
  cases h with
  | connect => exact settings_connect s
  | teardown now => exact settings_teardown now s
  | step h => exact h.settings
  | discard => exact settings_discard s _
  | _ => rfl

/-- Only drivers ask the network for anything. -/
theorem Shift.attempt_eq {b : Option Bool} (h : Shift s b m) {text : String}
    (ht : .attempt text ∈ m.seen) : text = s.settings.url.text := by
  cases h with
  | step h => exact h.attempt_eq ht
  | connect => rw [seen_connect] at ht; cases ht
  | teardown now => exact absurd ht ((logs_teardown now s).not_mem (by simp))
  | @discard i =>
    rw [seen_discard] at ht
    cases hl : (s.phase i).link? <;> simp [hl] at ht
  | reap => exact absurd ht ((logs_one _).not_mem (by simp))
  | send => simp at ht
  | _ => cases ht

end Socket

namespace World

open Socket

variable {σ ι ε : Type} (C : Consumer σ ι ε)

/-- Whatever the client does, a channel connects to the URL that it was set up with. -/
theorem attempt_eq (k : ChannelKind) (labels : List (Label ι)) (w : World σ ι ε) {text : String}
    (h : .attempt text ∈ happenings C k labels w) : text = (w.socket k).settings.url.text := by
  have hrun := happenings_invariant C (P := fun seen s => s.settings = (w.socket k).settings ∧
      ∀ text, .attempt text ∈ seen → text = (w.socket k).settings.url.text)
    (fun seen s b m hm hp => by
      refine ⟨hm.settings.trans hp.1, fun text ht => ?_⟩
      rcases List.mem_append.mp ht with ht | ht
      · exact hp.2 text ht
      · rw [← hp.1]
        exact hm.attempt_eq ht)
    k labels w ⟨rfl, by simp⟩
  exact hrun.2 text h

end World

namespace Manager

open Socket World

variable {κ γ τ ν : Type}

theorem url_live_ofConfig (c : Config) (live command : List (Reply Answer)) (client : τ) :
    ((ofConfig c live command client : System κ γ τ ν).socket .live).settings.url = c.liveUrl := by
  unfold ofConfig
  split <;> rfl

theorem url_command_ofConfig (c : Config) (live command : List (Reply Answer)) (client : τ) :
    ((ofConfig c live command client : System κ γ τ ν).socket .command).settings.url =
      c.commandEndpoint := by
  unfold ofConfig
  split <;> rfl

/-- What the channels of a manager ask the network for. -/
def attempted (C : Client κ γ τ ν) (k : ChannelKind) (turns : List (Turn κ γ))
    (w : System κ γ τ ν) (text : String) : Prop :=
  .attempt text ∈ happenings (consumer C) k (turns.map Turn.label) w

/-- The credential reaches the command endpoint, whole and behind all that its query had, and
stands nowhere else. -/
theorem run_addressed (C : Client κ γ τ ν) {naming : Url.Naming} {liveText commandText : String}
    {given : Config}
    (hgiven : Config.ofEndpointsBy (Url.readBy naming) liveText commandText = .ok given)
    (token : Option String) (param : String) (liveBackoff commandBackoff : Backoff.Bounds)
    (timeout : Duration) (live command : List (Reply Answer)) (client : τ)
    (turns : List (Turn κ γ)) :
    let c : Config :=
      { given with
        token, tokenParam := param, liveBackoff, commandBackoff, connectTimeout := timeout }
    let w : System κ γ τ ν := ofConfig c live command client
    (∀ text, attempted C .live turns w text → text = given.liveUrl.text) ∧
      (∀ text, attempted C .command turns w text → ∃ url : Url, text = url.text ∧
        match token with
        | some value => given.commandUrl.Extends param value url
        | none => url = given.commandUrl) := by
  intro c w
  have hclean : given.commandUrl.Clean := Config.clean_of_ofEndpointsBy hgiven
  constructor
  · intro text ht
    rw [attempt_eq (consumer C) .live _ w ht]
    exact congrArg Url.text (url_live_ofConfig c live command client)
  · intro text ht
    refine ⟨c.commandEndpoint, ?_, ?_⟩
    · rw [attempt_eq (consumer C) .command _ w ht]
      exact congrArg Url.text (url_command_ofConfig c live command client)
    · cases token with
      | none => rfl
      | some value => exact hclean.extends_withPair param value

/-- Endpoints on one machine; the query of one of them ends in a separator. -/
def loopback : Config where
  liveUrl := ⟨false, [], [], .address6 [0, 0, 0, 0, 0, 0, 0, 1], none,
    ["ws".toList, "live".toList], none, none⟩
  commandUrl := ⟨false, [], [], .address6 [0, 0, 0, 0, 0, 0, 0, 1], some 8000,
    ["ws".toList, "command".toList], some "room=a+b&".toList, some "top".toList⟩
  token := none
  tokenParam := Config.usualTokenParam
  liveBackoff := .usual
  commandBackoff := .usual
  connectTimeout := Config.usualTimeout

/-- A client that has no listeners. -/
def unheard : Client Unit Unit Unit Unit where
  hear _ _ := ()
  perform _ _ _ _ := ⟨(), [], []⟩

/-- The command channel asks the network for a connection. -/
def attempting : List (Turn Unit Unit) :=
  [.ask .connect, .proceed false, .proceed false, .proceed false, .poll .command 0, .proceed false]

theorem run_addressed_loopback :
    Config.ofEndpoints "ws://[::1]/ws/live" "ws://[::1]:8000/ws/command?room=a+b&#top" =
        .ok loopback ∧
      happenings (consumer unheard) .command (attempting.map Turn.label)
          (ofConfig { loopback with token := some "a&b=c +\u00e9%", tokenParam := "to ken" }
            [] [] ()) =
        [.attempt "ws://[::1]:8000/ws/command?room=a+b&&to+ken=a%26b%3Dc+%2B%C3%A9%25#top"] ∧
      ∃ url : Url,
        "ws://[::1]:8000/ws/command?room=a+b&&to+ken=a%26b%3Dc+%2B%C3%A9%25#top" = url.text ∧
          loopback.commandUrl.Extends "to ken" "a&b=c +\u00e9%" url := by
  have hgiven : Config.ofEndpoints "ws://[::1]/ws/live"
      "ws://[::1]:8000/ws/command?room=a+b&#top" = .ok loopback := by rfl
  have hseen : happenings (consumer unheard) .command (attempting.map Turn.label)
      (ofConfig { loopback with token := some "a&b=c +\u00e9%", tokenParam := "to ken" } [] [] ()) =
      [.attempt "ws://[::1]:8000/ws/command?room=a+b&&to+ken=a%26b%3Dc+%2B%C3%A9%25#top"] := by
    decide
  obtain ⟨url, htext, hurl⟩ := (run_addressed unheard hgiven (some "a&b=c +\u00e9%") "to ken" .usual
    .usual Config.usualTimeout [] [] () attempting).2 _ (by
      rw [attempted]
      exact List.mem_of_mem_head? (congrArg List.head? hseen))
  exact ⟨hgiven, hseen, url, htext, hurl⟩

end Manager

end TwinLink
