import TwinLink.Manager.Basic
import TwinLink.Proofs.Config.Numbers

/-! Configurations out of variables. Each variable comes to something by itself: an endpoint to its
text or to the usual one, a number to the milliseconds that its text spells or to the usual ones,
and an empty credential, or an empty name for it, to none. Only then are they held against each
other. Main statement: however texts of URLs are read, a configuration comes about exactly if what
the variables come to is consistent, and it carries just that; so a text that spells no number may
as well not be there. -/

namespace TwinLink

namespace Url

def Location.scheme : Location → String
  | .endpoint url => String.ofList url.scheme
  | .foreign scheme _ => scheme

theorem isWebSocket_scheme_iff {l : Location} :
    isWebSocket l.scheme ↔ ∃ url, l = .endpoint url := by
  cases l with
  | endpoint url =>
    refine iff_of_true ?_ ⟨url, rfl⟩
    unfold Location.scheme Url.scheme
    dsimp only
    split
    · exact .inr rfl
    · exact .inl rfl
  | foreign scheme isForeign => exact iff_of_false isForeign nofun

end Url

theorem Duration.isZero_iff {d : Duration} : d.isZero = true ↔ ¬0 < d.nanos := by
  rw [isZero, beq_iff_eq, Nat.pos_iff_ne_zero, not_not]

theorem Backoff.Bounds.validate_eq_ok {b : Bounds} :
    b.validate = .ok () ↔ 0 < b.initial.nanos ∧ b.initial.nanos ≤ b.ceiling.nanos := by
  simp only [validate, Duration.isZero_iff]
  split_ifs with hpos hlow
  · exact iff_of_false (by simp) fun h => Nat.not_lt.mpr h.2 hlow
  · exact iff_of_true rfl ⟨hpos, Nat.not_lt.mp hlow⟩
  · exact iff_of_false (by simp) fun h => hpos h.1

namespace Config

variable {read : String → Except Url.Fault Url.Location} {c : Config}

/-! ### Checks -/

theorem endpointBy_eq_ok {text : String} {url : Url} :
    endpointBy read text = .ok url ↔ read text = .ok (.endpoint url) := by
  unfold endpointBy
  split <;> simp_all

theorem exists_endpointBy_iff {text : String} : (∃ url, endpointBy read text = .ok url) ↔
    ∃ l, read text = .ok l ∧ (l.scheme = "ws" ∨ l.scheme = "wss") := by
  simp only [endpointBy_eq_ok]
  constructor
  · rintro ⟨url, h⟩
    exact ⟨_, h, Url.isWebSocket_scheme_iff.mpr ⟨url, rfl⟩⟩
  · rintro ⟨l, h, hscheme⟩
    obtain ⟨url, rfl⟩ := Url.isWebSocket_scheme_iff.mp hscheme
    exact ⟨url, h⟩

def url (c : Config) : ChannelKind → Url
  | .live => c.liveUrl
  | .command => c.commandUrl

def backoff (c : Config) : ChannelKind → Backoff.Bounds
  | .live => c.liveBackoff
  | .command => c.commandBackoff

theorem validate_eq_ok : c.validate = .ok () ↔
    (∀ k, (c.backoff k).validate = .ok ()) ∧ 0 < c.connectTimeout.nanos := by
  have hmap {x : Except Backoff.Fault Unit} : x.mapError Fault.backoff = .ok () ↔ x = .ok () := by
    cases x <;> simp [Except.mapError]
  simp only [validate, Json.bind_eq_ok, hmap, Duration.isZero_iff, ite_not]
  constructor
  · rintro ⟨-, hlive, -, hcommand, h⟩
    refine ⟨fun k => by cases k <;> assumption, ?_⟩
    split at h
    · assumption
    · cases h
  · rintro ⟨h, htimeout⟩
    exact ⟨(), h .live, (), h .command, if_pos htimeout⟩

/-! ### What variables come to -/

namespace Variable

def endpoint : ChannelKind → Variable
  | .live => liveUrl
  | .command => commandUrl

def initial : ChannelKind → Variable
  | .live => liveInitial
  | .command => commandInitial

def ceiling : ChannelKind → Variable
  | .live => liveCeiling
  | .command => commandCeiling

end Variable

def usualEndpoint : ChannelKind → String
  | .live => usualLiveUrl
  | .command => usualCommandUrl

/-- What variables come to, each by itself. Numbers are milliseconds. -/
@[ext]
structure Effective where
  endpoint : ChannelKind → String
  token : Option String
  tokenParam : String
  initial : ChannelKind → UInt64
  ceiling : ChannelKind → UInt64
  timeout : UInt64

variable {lookup other : Variable → Option String} {e : Effective}

namespace Effective

/-- The variables come to `e`. -/
structure Of (lookup : Variable → Option String) (e : Effective) : Prop where
  endpoint : ∀ k, e.endpoint k = (lookup (.endpoint k)).getD (usualEndpoint k)
  token : ∀ t, e.token = some t ↔ lookup .token = some t ∧ t ≠ ""
  tokenParam : lookup .tokenParam = some e.tokenParam ∧ e.tokenParam ≠ "" ∨
    (∀ t, lookup .tokenParam = some t → t = "") ∧ e.tokenParam = "token"
  initial : ∀ k, Comes (lookup (.initial k)) 1000 (e.initial k)
  ceiling : ∀ k, Comes (lookup (.ceiling k)) 30000 (e.ceiling k)
  timeout : Comes (lookup .timeout) 10000 e.timeout

/-- Both endpoints are read as locations of a web socket, delays begin above zero and not above
their ceiling, and there is time to connect. -/
structure Consistent (read : String → Except Url.Fault Url.Location) (e : Effective) : Prop where
  endpoint : ∀ k, ∃ l, read (e.endpoint k) = .ok l ∧ (l.scheme = "ws" ∨ l.scheme = "wss")
  delays : ∀ k, 0 < e.initial k ∧ e.initial k ≤ e.ceiling k
  timeout : 0 < e.timeout

/-- What the variables come to, computed. -/
def ofLookup (lookup : Variable → Option String) : Effective where
  endpoint k := (lookup (.endpoint k)).getD (usualEndpoint k)
  token := (lookup .token).filter (!·.isEmpty)
  tokenParam := ((lookup .tokenParam).filter (!·.isEmpty)).getD usualTokenParam
  initial k := ((lookup (.initial k)).bind spelled?).getD 1000
  ceiling k := ((lookup (.ceiling k)).bind spelled?).getD 30000
  timeout := ((lookup .timeout).bind spelled?).getD 10000

theorem kept_eq_some {value : Option String} {t : String} :
    value.filter (!·.isEmpty) = some t ↔ value = some t ∧ t ≠ "" := by
  rw [Option.filter_eq_some_iff]
  simp

theorem token_iff {value token : Option String} :
    (∀ t, token = some t ↔ value = some t ∧ t ≠ "") ↔ token = value.filter (!·.isEmpty) := by
  simp only [← kept_eq_some]
  exact Option.ext_iff.symm

theorem tokenParam_iff {value : Option String} {param : String} :
    (value = some param ∧ param ≠ "" ∨ (∀ t, value = some t → t = "") ∧ param = "token") ↔
      param = (value.filter (!·.isEmpty)).getD usualTokenParam := by
  have hnone : (∀ t, value = some t → t = "") ↔ value.filter (!·.isEmpty) = none := by
    simp only [Option.eq_none_iff_forall_ne_some, ne_eq, kept_eq_some, not_and, not_not]
  rw [hnone, ← kept_eq_some]
  cases value.filter (!·.isEmpty) with
  | none => simp [usualTokenParam]
  | some t => simp [eq_comm]

theorem of_iff : Of lookup e ↔ e = ofLookup lookup := by
  constructor
  · intro h
    exact Effective.ext (funext h.endpoint) (token_iff.mp h.token) (tokenParam_iff.mp h.tokenParam)
      (funext fun k => comes_iff.mp (h.initial k)) (funext fun k => comes_iff.mp (h.ceiling k))
      (comes_iff.mp h.timeout)
  · rintro rfl
    exact ⟨fun k => rfl, token_iff.mpr rfl, tokenParam_iff.mpr rfl, fun k => comes_iff.mpr rfl,
      fun k => comes_iff.mpr rfl, comes_iff.mpr rfl⟩

/-- The configuration for two endpoints. -/
def config (e : Effective) (liveUrl commandUrl : Url) : Config where
  liveUrl := liveUrl
  commandUrl := commandUrl
  token := e.token
  tokenParam := e.tokenParam
  liveBackoff := ⟨.ofMillis (e.initial .live).toNat, .ofMillis (e.ceiling .live).toNat⟩
  commandBackoff := ⟨.ofMillis (e.initial .command).toNat, .ofMillis (e.ceiling .command).toNat⟩
  connectTimeout := .ofMillis e.timeout.toNat

def load (read : String → Except Url.Fault Url.Location) (e : Effective) :
    Except Fault Config := do
  let liveUrl ← endpointBy read (e.endpoint .live)
  let commandUrl ← endpointBy read (e.endpoint .command)
  let c := e.config liveUrl commandUrl
  c.validate
  .ok c

/-- The numbers are those of the variables, each read by itself. -/
theorem config_ofLookup (lookup : Variable → Option String) (liveUrl commandUrl : Url) :
    (ofLookup lookup).config liveUrl commandUrl =
      { liveUrl, commandUrl
        token := (lookup .token).filter (!·.isEmpty)
        tokenParam := ((lookup .tokenParam).filter (!·.isEmpty)).getD usualTokenParam
        liveBackoff := ⟨millis (lookup .liveInitial) Backoff.Bounds.usual.initial,
          millis (lookup .liveCeiling) Backoff.Bounds.usual.ceiling⟩
        commandBackoff := ⟨millis (lookup .commandInitial) Backoff.Bounds.usual.initial,
          millis (lookup .commandCeiling) Backoff.Bounds.usual.ceiling⟩
        connectTimeout := millis (lookup .timeout) usualTimeout } := by
  have hinitial (value : Option String) : millis value Backoff.Bounds.usual.initial =
      .ofMillis ((value.bind spelled?).getD 1000).toNat := millis_eq value 1000
  have hceiling (value : Option String) : millis value Backoff.Bounds.usual.ceiling =
      .ofMillis ((value.bind spelled?).getD 30000).toNat := millis_eq value 30000
  have htimeout (value : Option String) : millis value usualTimeout =
      .ofMillis ((value.bind spelled?).getD 10000).toNat := millis_eq value 10000
  simp only [hinitial, hceiling, htimeout]
  rfl

/-- A configuration depends only on what its variables come to. -/
theorem load_ofLookup (lookup : Variable → Option String) :
    (ofLookup lookup).load read = ofLookupBy read lookup := by
  unfold ofLookupBy ofEndpointsBy load
  simp only [config_ofLookup, bind_assoc]
  rfl

end Effective

/-! ### What configurations carry -/

/-- The configuration carries what variables come to, its numbers in nanoseconds. -/
structure Carries (read : String → Except Url.Fault Url.Location) (c : Config) (e : Effective) :
    Prop where
  url : ∀ k, read (e.endpoint k) = .ok (.endpoint (c.url k))
  token : c.token = e.token
  tokenParam : c.tokenParam = e.tokenParam
  initial : ∀ k, (c.backoff k).initial.nanos = (e.initial k).toNat * nanosPerMilli
  ceiling : ∀ k, (c.backoff k).ceiling.nanos = (e.ceiling k).toNat * nanosPerMilli
  timeout : c.connectTimeout.nanos = e.timeout.toNat * nanosPerMilli

theorem carries_iff : Carries read c e ↔ endpointBy read (e.endpoint .live) = .ok c.liveUrl ∧
    endpointBy read (e.endpoint .command) = .ok c.commandUrl ∧
      c = e.config c.liveUrl c.commandUrl := by
  simp only [endpointBy_eq_ok]
  constructor
  · intro h
    -- No number of milliseconds exceeds the longest span, so its nanoseconds tell a span.
    have hspan {d : Duration} {n : UInt64} (hd : d.nanos = n.toNat * nanosPerMilli) :
        d = .ofMillis n.toNat := Duration.ext_nanos (hd.trans (nanos_ofMillis n).symm)
    have hbounds (k : ChannelKind) : c.backoff k =
        ⟨.ofMillis (e.initial k).toNat, .ofMillis (e.ceiling k).toNat⟩ := by
      rw [← hspan (h.initial k), ← hspan (h.ceiling k)]
    refine ⟨h.url .live, h.url .command, ?_⟩
    rw [Effective.config, ← h.token, ← h.tokenParam, ← hspan h.timeout, ← hbounds .live,
      ← hbounds .command]
    rfl
  · rintro ⟨hlive, hcommand, h⟩
    generalize c.liveUrl = live, c.commandUrl = command at *
    subst h
    exact {
      url := fun k => by cases k <;> assumption
      token := rfl
      tokenParam := rfl
      initial := fun k => by cases k <;> exact nanos_ofMillis _
      ceiling := fun k => by cases k <;> exact nanos_ofMillis _
      timeout := nanos_ofMillis _ }

theorem Carries.valid_iff (h : Carries read c e) : c.validate = .ok () ↔
    (∀ k, 0 < e.initial k ∧ e.initial k ≤ e.ceiling k) ∧ 0 < e.timeout := by
  have hpos : 0 < nanosPerMilli := by decide
  simp only [Config.validate_eq_ok, Backoff.Bounds.validate_eq_ok, h.initial, h.ceiling, h.timeout,
    Nat.mul_pos_iff_of_pos_right hpos, Nat.mul_le_mul_right_iff hpos, UInt64.lt_iff_toNat_lt,
    UInt64.le_iff_toNat_le, UInt64.toNat_zero]

/-- The first delay of a channel is the initial one, if the configuration is valid. -/
theorem Carries.delay (h : Carries read c e) (hvalid : c.validate = .ok ()) {κ γ τ ν : Type}
    (live command : List (Reply Socket.Answer)) (client : τ) (k : ChannelKind) :
    ((Manager.ofConfig c live command client : Manager.System κ γ τ ν).socket
      k).machine.delay.nanos = (e.initial k).toNat * nanosPerMilli := by
  have hfirst : ((Manager.ofConfig c live command client : Manager.System κ γ τ ν).socket
      k).machine.delay = (c.backoff k).first := by
    unfold Manager.ofConfig
    split <;> cases k <;> rfl
  have hbounds := (validate_eq_ok.mp hvalid).1 k
  rw [Backoff.Bounds.validate_eq_ok] at hbounds
  rw [hfirst, Backoff.Bounds.first, Duration.nanos_lesser, Nat.min_eq_left hbounds.2, h.initial]

namespace Effective

theorem load_eq_ok : e.load read = .ok c ↔ Carries read c e ∧ c.validate = .ok () := by
  rw [carries_iff, load]
  simp only [Json.bind_eq_ok]
  constructor
  · rintro ⟨liveUrl, hlive, commandUrl, hcommand, ⟨⟩, hvalid, h⟩
    cases h
    exact ⟨⟨hlive, hcommand, rfl⟩, hvalid⟩
  · rintro ⟨⟨hlive, hcommand, h⟩, hvalid⟩
    rw [h] at hvalid
    exact ⟨_, hlive, _, hcommand, (), hvalid, congrArg Except.ok h.symm⟩

theorem exists_load_iff : (∃ c, e.load read = .ok c) ↔ e.Consistent read := by
  constructor
  · rintro ⟨c, h⟩
    obtain ⟨h, hvalid⟩ := load_eq_ok.mp h
    obtain ⟨hdelays, htimeout⟩ := h.valid_iff.mp hvalid
    exact ⟨fun k => exists_endpointBy_iff.mp ⟨_, endpointBy_eq_ok.mpr (h.url k)⟩, hdelays, htimeout⟩
  · intro h
    obtain ⟨liveUrl, hlive⟩ := exists_endpointBy_iff.mpr (h.endpoint .live)
    obtain ⟨commandUrl, hcommand⟩ := exists_endpointBy_iff.mpr (h.endpoint .command)
    have hcarries : Carries read (e.config liveUrl commandUrl) e :=
      carries_iff.mpr ⟨hlive, hcommand, rfl⟩
    exact ⟨_, load_eq_ok.mpr ⟨hcarries, hcarries.valid_iff.mpr ⟨h.delays, h.timeout⟩⟩⟩

end Effective

/-! ### Variables that are as good as not set -/

/-- Texts that count as not set. -/
def Idle : Variable → String → Prop
  | .liveUrl, _ | .commandUrl, _ => False
  | .token, s | .tokenParam, s => s = ""
  | _, s => ∀ n, ¬Spells s n

/-- Some variables whose texts count as not set are not set. -/
def Spares (lookup other : Variable → Option String) : Prop :=
  ∀ v, other v = lookup v ∨ other v = none ∧ ∃ s, lookup v = some s ∧ Idle v s

theorem Spares.eq {α : Type} (h : Spares lookup other) (v : Variable) (f : Option String → α)
    (hf : ∀ s, Idle v s → f (some s) = f none) : f (other v) = f (lookup v) := by
  rcases h v with h | ⟨ho, s, hl, hs⟩
  · rw [h]
  · rw [ho, hl, hf s hs]

theorem Spares.ofLookup (h : Spares lookup other) :
    Effective.ofLookup other = Effective.ofLookup lookup := by
  have hnumber (v : Variable) (usual : UInt64) (hv : ∀ s, Idle v s → ∀ n, ¬Spells s n) :
      ((other v).bind spelled?).getD usual = ((lookup v).bind spelled?).getD usual := by
    refine congrArg (·.getD usual) (h.eq v (·.bind spelled?) fun s hs => ?_)
    exact Option.eq_none_iff_forall_ne_some.mpr fun n hn => hv s hs n (spelled?_eq_some.mp hn)
  have htext (v : Variable) (hv : ∀ s, Idle v s → s = "") :
      (other v).filter (!·.isEmpty) = (lookup v).filter (!·.isEmpty) :=
    h.eq v (·.filter (!·.isEmpty)) fun s hs => by
      rw [hv s hs]
      rfl
  refine Effective.ext (funext fun k => ?_) ?_ ?_ (funext fun k => ?_) (funext fun k => ?_) ?_
  · exact h.eq (.endpoint k) (·.getD (usualEndpoint k)) fun s hs => by cases k <;> cases hs
  · exact htext .token fun s hs => hs
  · exact congrArg (·.getD usualTokenParam) (htext .tokenParam fun s hs => hs)
  · exact hnumber (.initial k) 1000 fun s hs => by cases k <;> exact hs
  · exact hnumber (.ceiling k) 30000 fun s hs => by cases k <;> exact hs
  · exact hnumber .timeout 10000 fun s hs => hs

/-- Variables come to one thing each, and a configuration comes of them exactly if those things are
consistent. It carries them and nothing else, so that the first delay of each channel is the one
that its variable comes to, and texts that count as not set make no difference. All of this holds
of any reading of URLs. -/
theorem lookup_consistent (read : String → Except Url.Fault Url.Location)
    (lookup : Variable → Option String) {κ γ τ ν : Type} (live command : List (Reply Socket.Answer))
    (client : τ) :
    ∃ e : Effective, (∀ e', Effective.Of lookup e' ↔ e' = e) ∧
      ((∃ c, ofLookupBy read lookup = .ok c) ↔ e.Consistent read) ∧
      (∀ c, ofLookupBy read lookup = .ok c → Carries read c e ∧ c.validate = .ok () ∧
        ∀ k, ((Manager.ofConfig c live command client : Manager.System κ γ τ ν).socket
          k).machine.delay.nanos = (e.initial k).toNat * nanosPerMilli) ∧
      ∀ other, Spares lookup other → ofLookupBy read other = ofLookupBy read lookup := by
  refine ⟨.ofLookup lookup, fun e' => Effective.of_iff, ?_, fun c h => ?_, fun other h => ?_⟩
  · rw [← Effective.load_ofLookup]
    exact Effective.exists_load_iff
  · rw [← Effective.load_ofLookup, Effective.load_eq_ok] at h
    obtain ⟨hcarries, hvalid⟩ := h
    exact ⟨hcarries, hvalid, hcarries.delay hvalid live command client⟩
  · rw [← Effective.load_ofLookup, ← Effective.load_ofLookup, h.ofLookup]

/-- Endpoints on one machine and a timeout. The credential and the initial delay count as not
set. -/
def sparse : Variable → Option String
  | .liveUrl => some "ws://[::1]/ws/live"
  | .commandUrl => some "ws://[::1]:8000/ws/command"
  | .token => some ""
  | .liveInitial => some "1 s"
  | .timeout => some " +250\t"
  | _ => none

def spared : Variable → Option String
  | .token | .liveInitial => none
  | v => sparse v

theorem lookup_consistent_sparse :
    (∃ c, ofLookup sparse = .ok c ∧ c.connectTimeout.nanos = 250 * nanosPerMilli ∧
      ((Manager.ofConfig c [] [] () : Manager.System Unit Unit Unit Unit).socket
        .live).machine.delay.nanos = 1000 * nanosPerMilli) ∧
      Spares sparse spared ∧ ofLookup spared = ofLookup sparse := by
  obtain ⟨e, he, haccepted, hcarried, hspared⟩ :=
    lookup_consistent Url.read sparse (κ := Unit) (γ := Unit) (ν := Unit) [] [] ()
  obtain rfl : Effective.ofLookup sparse = e := (he _).mp (Effective.of_iff.mpr rfl)
  have hspares : Spares sparse spared := by
    have hnumber (n : UInt64) : ¬Spells "1 s" n := by
      rw [← spelled?_eq_some, show spelled? "1 s" = none by rfl]
      exact nofun
    intro v
    cases v with
    | token => exact .inr ⟨rfl, _, rfl, rfl⟩
    | liveInitial => exact .inr ⟨rfl, _, rfl, hnumber⟩
    | _ => exact .inl rfl
  have hconsistent : (Effective.ofLookup sparse).Consistent Url.read := by
    refine ⟨fun k => ?_, fun k => ?_, ?_⟩
    · cases k
      · exact ⟨_, rfl, .inl rfl⟩
      · exact ⟨_, rfl, .inl rfl⟩
    · cases k <;> decide
    · decide
  obtain ⟨c, hc⟩ := haccepted.mpr hconsistent
  obtain ⟨hcarries, -, hdelay⟩ := hcarried c hc
  exact ⟨⟨c, hc, hcarries.timeout, hdelay .live⟩, hspares, hspared _ hspares⟩

end Config

end TwinLink
