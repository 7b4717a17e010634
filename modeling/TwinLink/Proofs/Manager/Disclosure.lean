import TwinLink.Proofs.Manager.Addresses
import TwinLink.Proofs.World.Redirect

/-! What diagnostics tell of a credential. A configuration does not show it. A manager shows the
address of its command socket, and there the credential stands as the query has it; nothing else
that is shown depends on it. So two managers that differ in the credential are told apart by what
they show, and by nothing else that they do. -/

namespace TwinLink

namespace Text

set_option maxRecDepth 4000 in
theorem silentRanges_apart : ∀ r ∈ silentRanges, r.2 < 0x20 ∨ 0x7F ≤ r.1 := by decide

theorem isPrintable_of_ascii {c : Char} (hlow : 0x20 ≤ c.toNat) (hhigh : c.toNat < 0x7F) :
    isPrintable c = true := by
  rw [isPrintable, Bool.not_eq_true', List.any_eq_false]
  intro r hr
  have hapart := silentRanges_apart r hr
  rw [Bool.and_eq_true, decide_eq_true_eq, decide_eq_true_eq]
  omega

namespace Quoted

/-- What prints and has no meaning in quotes stands for itself there. -/
theorem escape_of_printable {c : Char} (hq : c ≠ '"') (hb : c ≠ '\\') (hlow : 0x20 ≤ c.toNat)
    (hp : isPrintable c = true) : escape c = [c] := by
  unfold escape
  split
  · exact absurd rfl hq
  · exact absurd rfl hb
  · cases (by decide : ¬ 0x20 ≤ '\x00'.toNat) hlow
  · cases (by decide : ¬ 0x20 ≤ '\t'.toNat) hlow
  · cases (by decide : ¬ 0x20 ≤ '\n'.toNat) hlow
  · cases (by decide : ¬ 0x20 ≤ '\r'.toNat) hlow
  · rw [if_pos hp]

end Quoted

/-- A text is quoted from one end to the other. -/
theorem toList_quoted (s : String) :
    (quoted s).toList = '"' :: s.toList.flatMap Quoted.escape ++ ['"'] := by
  rw [quoted, String.toList_ofList, Quoted.encode]

end Text

namespace Url

namespace Form

theorem toNat_of_isAlphanum {c : Char} (h : c.isAlphanum = true) :
    0x20 < c.toNat ∧ c.toNat < 0x7F := by
  have hrange {low high : Char} (hlow : low.val ≤ c.val) (hhigh : c.val ≤ high.val)
      (h : 0x20 < low.toNat ∧ high.toNat < 0x7F) : 0x20 < c.toNat ∧ c.toNat < 0x7F :=
    ⟨Nat.lt_of_lt_of_le h.1 (UInt32.le_iff_toNat_le.mp hlow),
      Nat.lt_of_le_of_lt (UInt32.le_iff_toNat_le.mp hhigh) h.2⟩
  rcases Bool.or_eq_true_iff.mp h with h | h
  · rcases Bool.or_eq_true_iff.mp h with h | h
    · obtain ⟨hlow, hhigh⟩ := of_decide_eq_true h
      exact hrange hlow hhigh (by decide)
    · obtain ⟨hlow, hhigh⟩ := Bool.and_eq_true_iff.mp h
      exact hrange (of_decide_eq_true hlow) (of_decide_eq_true hhigh) (by decide)
  · obtain ⟨hlow, hhigh⟩ := Bool.and_eq_true_iff.mp h
    exact hrange (of_decide_eq_true hlow) (of_decide_eq_true hhigh) (by decide)

theorem toNat_of_written {c : Char} (h : isWritten c = true) :
    0x20 < c.toNat ∧ c.toNat < 0x7F := by
  simp only [isWritten, isPlain, Bool.or_eq_true, beq_iff_eq] at h
  rcases h with ((h | h) | rfl) | rfl
  · exact toNat_of_isAlphanum h
  · rw [List.contains_iff_mem] at h
    have hsigns : ∀ c ∈ "*-._".toList, 0x20 < c.toNat ∧ c.toNat < 0x7F := by simp
    exact hsigns c h
  · decide
  · decide

/-- What is written of a name or a value is quoted as it stands. -/
theorem escape_of_written {c : Char} (h : isWritten c = true) : Text.Quoted.escape c = [c] := by
  obtain ⟨hlow, hhigh⟩ := toNat_of_written h
  apply Text.Quoted.escape_of_printable _ _ (by omega)
    (Text.isPrintable_of_ascii (by omega) hhigh)
  · rintro rfl
    cases h
  · rintro rfl
    cases h

theorem flatMap_escape_encode (s : String) :
    (encode s).flatMap Text.Quoted.escape = encode s := by
  have hid : ∀ t : List Char, (∀ c ∈ t, isWritten c = true) →
      t.flatMap Text.Quoted.escape = t := by
    intro t ht
    induction t with
    | nil => rfl
    | cons c t ih =>
      rw [List.flatMap_cons, escape_of_written (ht c List.mem_cons_self),
        ih fun d hd => ht d (List.mem_cons_of_mem _ hd), List.singleton_append]
  exact hid _ fun c hc => written_of_mem_encode hc

/-- Between the same texts the written form tells what is written. -/
theorem eq_of_append {before after s t : String}
    (h : before ++ String.ofList (encode s) ++ after =
      before ++ String.ofList (encode t) ++ after) : s = t := by
  have hlist := congrArg String.toList h
  simp only [String.toList_append, String.toList_ofList] at hlist
  have hencode := List.append_cancel_left (List.append_cancel_right hlist)
  rw [← word_encode s, hencode, word_encode]

end Form

/-- Behind everything that stands before it a value is written, and before the rest. -/
theorem exists_chars_withPair (u : Url) (name : String) : ∃ before after : List Char,
    ∀ value, (u.withPair name value).text.toList = before ++ Form.encode value ++ after := by
  refine ⟨u.front ++ '?' :: (if (u.query.getD []).isEmpty then [] else u.query.getD [] ++ ['&']) ++
    Form.encode name ++ ['='], u.fragment.elim [] ('#' :: ·), fun value => ?_⟩
  rw [text, String.toList_ofList]
  unfold withPair chars Form.append Form.pair front
  dsimp only [Option.elim_some]
  split <;> simp [scheme, userinfo]

/-- In quotes too. -/
theorem exists_quoted_withPair (u : Url) (name : String) : ∃ before after : String,
    ∀ value, Text.quoted (u.withPair name value).text =
      before ++ String.ofList (Form.encode value) ++ after := by
  obtain ⟨before, after, h⟩ := u.exists_chars_withPair name
  refine ⟨String.ofList ('"' :: before.flatMap Text.Quoted.escape),
    String.ofList (after.flatMap Text.Quoted.escape ++ ['"']), fun value => ?_⟩
  apply String.toList_injective
  rw [Text.toList_quoted, h, List.flatMap_append, List.flatMap_append, Form.flatMap_escape_encode]
  simp

end Url

namespace Manager

open Socket World

variable {κ γ τ ν : Type}

/-- A client that does not look at the addresses of the sockets. -/
def Client.Oblivious (C : Client κ γ τ ν) : Prop :=
  ∀ us v h item state, C.perform (View.redirect us v) h item state = C.perform v h item state

theorem Client.Oblivious.consumer {C : Client κ γ τ ν} (h : C.Oblivious) :
    (consumer C).Oblivious := by
  intro us v item state
  have hconsult (item : γ) (notes : List (Note ν κ)) :
      consult C (View.redirect us v) item notes state = consult C v item notes state := by
    unfold consult
    rw [h us v]
  change Manager.perform C _ item state = Manager.perform C _ item state
  cases item with
  | request r =>
    cases r with
    | own item => exact hconsult item []
    | _ => rfl
  | call emission id listener e => exact hconsult (C.hear listener e) _
  | _ => rfl

/-- The addresses of a configuration with a credential. -/
def addresses (c : Config) (token : String) : ChannelKind → Url
  | .live => c.liveUrl
  | .command => c.commandUrl.withPair c.tokenParam token

/-- A text that shows an address in one place, between what does not depend on it. -/
def Shows (f : Url → String) : Prop :=
  ∃ before after : String, ∀ u, f u = before ++ Text.quoted u.text ++ after

theorem shows_quoted : Shows fun u => Text.quoted u.text :=
  ⟨"", "", fun u => by rw [String.empty_append, String.append_empty]⟩

theorem Shows.prepend {f : Url → String} (h : Shows f) (lead : String) :
    Shows fun u => lead ++ f u := by
  obtain ⟨before, after, h⟩ := h
  exact ⟨lead ++ before, after, fun u => by simp only [h, String.append_assoc]⟩

theorem Shows.append {f : Url → String} (h : Shows f) (rest : String) :
    Shows fun u => f u ++ rest := by
  obtain ⟨before, after, h⟩ := h
  exact ⟨before, after ++ rest, fun u => by simp only [h, String.append_assoc]⟩

theorem shows_socket (s : Socket) : Shows fun u => (s.redirect u).debug := by
  unfold Socket.debug
  dsimp only
  simp only [kind_redirect, state_redirect, url_redirect]
  apply Shows.append
  apply Shows.append
  apply Shows.append
  exact shows_quoted.prepend _

/-- The address of the command socket shows once in what a manager shows of itself. -/
theorem shows_manager (v : View) (h : Hub κ) :
    Shows fun u => Manager.debug { v with command := v.command.redirect u } h := by
  have hstats (u : Url) : stats { v with command := v.command.redirect u } h = stats v h := rfl
  unfold Manager.debug Tally.debug
  simp only [hstats]
  apply Shows.append
  apply Shows.append
  apply Shows.append
  apply Shows.prepend
  apply Shows.append
  apply Shows.append
  exact (shows_socket v.command).prepend _

theorem ofConfig_redirect (c : Config) (live command : List (Reply Answer)) (client : τ)
    (t₁ t₂ : String) :
    (ofConfig { c with token := some t₂ } live command client : System κ γ τ ν) =
      (ofConfig { c with token := some t₁ } live command client).redirect (addresses c t₂) := rfl

section Credential

variable {C : Client κ γ τ ν} (hC : C.Oblivious) (c : Config) (live command : List (Reply Answer))
  (client : τ) (turns : List (Turn κ γ))

include hC in
/-- With another credential the same is done, over an address of its own. -/
theorem run_credited (t₁ t₂ : String) :
    run C turns (ofConfig { c with token := some t₂ } live command client) =
      (run C turns (ofConfig { c with token := some t₁ } live command client)).redirect
        (addresses c t₂) :=
  (congrArg (run C turns) (ofConfig_redirect c live command client t₁ t₂)).trans
    (run_redirect _ _ hC.consumer _)

include hC in
/-- What a manager shows around the credential is the same for every credential. -/
theorem exists_debug_credited : ∃ before after : String, ∀ token,
    let w := run C turns (ofConfig { c with token := some token } live command client)
    Manager.debug w.view w.state.hub =
      before ++ String.ofList (Url.Form.encode token) ++ after := by
  let w := run C turns (ofConfig { c with token := some "" } live command client)
  obtain ⟨before, after, hdebug⟩ :=
    shows_manager { w.view with live := w.live.redirect c.liveUrl } w.state.hub
  obtain ⟨lead, rest, hquoted⟩ := c.commandUrl.exists_quoted_withPair c.tokenParam
  refine ⟨before ++ lead, rest ++ after, fun token => ?_⟩
  dsimp only
  rw [run_credited hC c live command client turns "" token]
  calc Manager.debug (w.redirect (addresses c token)).view w.state.hub
      = before ++ Text.quoted (c.commandUrl.withPair c.tokenParam token).text ++ after :=
        hdebug (c.commandUrl.withPair c.tokenParam token)
    _ = before ++ lead ++ String.ofList (Url.Form.encode token) ++ (rest ++ after) := by
        rw [hquoted]
        simp only [String.append_assoc]

end Credential

/-- A manager shows the credential of its configuration, as it is written in a query, between
two texts that do not depend on it. Its configuration does not show it, and neither does the
manager otherwise: managers with different credentials do the same, over addresses of their own. -/
theorem run_debug_eq_iff {C : Client κ γ τ ν} (hC : C.Oblivious) (c : Config)
    (live command : List (Reply Answer)) (client : τ) (turns : List (Turn κ γ)) :
    let w (token : String) : System κ γ τ ν :=
      run C turns (ofConfig { c with token := some token } live command client)
    let shown (token : String) : String := Manager.debug (w token).view (w token).state.hub
    (∃ before after : String, ∀ token,
      shown token = before ++ String.ofList (Url.Form.encode token) ++ after) ∧
    ∀ t₁ t₂ : String,
      (shown t₁ = shown t₂ ↔ t₁ = t₂) ∧
      Config.debug { c with token := some t₁ } = Config.debug { c with token := some t₂ } ∧
      w t₂ = (w t₁).redirect (addresses c t₂) ∧
      Feed.debug (w t₁).live = Feed.debug (w t₂).live ∧
      stats (w t₁).view (w t₁).state.hub = stats (w t₂).view (w t₂).state.hub := by
  intro w shown
  have hw (t₁ t₂ : String) : w t₂ = (w t₁).redirect (addresses c t₂) :=
    run_credited hC c live command client turns t₁ t₂
  obtain ⟨before, after, hshown⟩ := exists_debug_credited hC c live command client turns
  refine ⟨⟨before, after, hshown⟩, fun t₁ t₂ =>
    ⟨⟨fun h => ?_, fun h => h ▸ rfl⟩, rfl, hw t₁ t₂, ?_, ?_⟩⟩
  · exact Url.Form.eq_of_append (((hshown t₁).symm.trans h).trans (hshown t₂))
  · rw [hw "" t₁, hw "" t₂]
    rfl
  · rw [hw t₁ t₂]
    rfl

/-- A manager on one machine, with the credential `token`. -/
abbrev credited (token : String) : System Unit Unit Unit Unit :=
  ofConfig { loopback with token := some token } [] [] ()

theorem run_debug_eq_iff_loopback :
    unheard.Oblivious ∧
      (Manager.debug (run unheard attempting (credited "a")).view
          (run unheard attempting (credited "a")).state.hub =
        Manager.debug (run unheard attempting (credited "b")).view
          (run unheard attempting (credited "b")).state.hub ↔ "a" = "b") := by
  have hC : unheard.Oblivious := fun _ _ _ _ _ => rfl
  obtain ⟨-, heq⟩ := run_debug_eq_iff hC loopback [] [] () attempting
  exact ⟨hC, (heq "a" "b").1⟩

/-- Before anything has been asked of them, two managers show different credentials. -/
theorem debug_credited_ne :
    Config.debug { loopback with token := some "a" } =
        Config.debug { loopback with token := some "b" } ∧
      Manager.debug (credited "a").view (credited "a").state.hub ≠
        Manager.debug (credited "b").view (credited "b").state.hub := by
  refine ⟨rfl, fun h => ?_⟩
  obtain ⟨before, after, hshown⟩ :=
    exists_debug_credited (C := unheard) (fun _ _ _ _ _ => rfl) loopback [] [] () []
  have hab := Url.Form.eq_of_append (((hshown "a").symm.trans h).trans (hshown "b"))
  exact absurd hab (by decide)

end Manager

end TwinLink
