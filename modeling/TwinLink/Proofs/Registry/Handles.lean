import TwinLink.Registry.Stage

/-! The handles of registrations. A handle is active until it is used, whatever becomes of its
registration and of its list; it can be used until it is given up. -/

namespace TwinLink.Registry

variable {κ ε : Type}

/-- The handle that is made, used or given up. -/
def Note.handle : Note κ ε → Option Nat
  | asked (.grant _ _) (.number h) => some h
  | asked (.unsubscribe h) .done => some h
  | asked (.forget h) .done => some h
  | _ => none

/-- A handle that was made for a registration and has not been given up. -/
structure Held (h k id : Nat) (t : List (Note κ ε)) : Prop where
  made : .asked (.grant k id) (.number h) ∈ t
  kept : .asked (.forget h) .done ∉ t

def Used (h : Nat) (t : List (Note κ ε)) : Prop := .asked (.unsubscribe h) .done ∈ t

/-- What the notes tell about the handles. -/
structure Granted (g : Registry κ) (t : List (Note κ ε)) : Prop where
  held : ∀ h k id, Held h k id t ↔ ∃ b, g.grant? h = some ⟨k, ⟨id, b⟩⟩
  active : ∀ h s, g.grant? h = some s → (s.handle.active = true ↔ ¬Used h t)
  below : ∀ n ∈ t, ∀ h, n.handle = some h → h < g.grants.length

section Grants

variable {g g' : Registry κ} {t m : List (Note κ ε)} {h k id : Nat}

theorem Granted.empty : Granted (.empty : Registry κ) ([] : List (Note κ ε)) where
  held _ _ _ := by
    refine iff_of_false (fun h => List.not_mem_nil h.made) ?_
    rintro ⟨_, ⟨⟩⟩
  active _ _ h := by cases h
  below _ h := by cases h

theorem Granted.held_of (hg : Granted g t) {s : Grant} (hs : g.grant? h = some s) :
    Held h s.list s.handle.id t :=
  (hg.held h s.list s.handle.id).mpr ⟨s.handle.active, hs⟩

/-- Nothing has been noted of the next handle. -/
theorem Granted.not_mem (hg : Granted g t) {n : Note κ ε} (hn : n.handle = some g.grants.length) :
    n ∉ t :=
  fun hmem => Nat.lt_irrefl _ (hg.below n hmem _ hn)

/-- Notes on other handles do not concern a handle. -/
theorem held_append_iff (hm : ∀ n ∈ m, n.handle ≠ some h) :
    Held h k id (t ++ m) ↔ Held h k id t := by
  have hother {n : Note κ ε} (hn : n.handle = some h) : n ∈ t ++ m ↔ n ∈ t := by
    rw [List.mem_append, or_iff_left fun hmem => hm n hmem hn]
  exact ⟨fun hh => ⟨(hother rfl).mp hh.made, fun hf => hh.kept ((hother rfl).mpr hf)⟩,
    fun hh => ⟨(hother rfl).mpr hh.made, fun hf => hh.kept ((hother rfl).mp hf)⟩⟩

theorem used_append_iff (hm : ∀ n ∈ m, n.handle ≠ some h) : Used h (t ++ m) ↔ Used h t := by
  rw [Used, List.mem_append, or_iff_left fun hmem => hm _ hmem rfl]
  rfl

/-- What is noted of one handle leaves the others alone. -/
theorem Granted.frame (hg : Granted g t) (h : Nat)
    (hother : ∀ h', h' ≠ h → g'.grant? h' = g.grant? h')
    (hlen : g.grants.length ≤ g'.grants.length) (hlt : h < g'.grants.length)
    (hm : ∀ n ∈ m, ∀ h', n.handle = some h' → h' = h)
    (hheld : ∀ k id, Held h k id (t ++ m) ↔ ∃ b, g'.grant? h = some ⟨k, ⟨id, b⟩⟩)
    (hactive : ∀ s, g'.grant? h = some s → (s.handle.active = true ↔ ¬Used h (t ++ m))) :
    Granted g' (t ++ m) := by
  have hapart (h' : Nat) (hne : h' ≠ h) : ∀ n ∈ m, n.handle ≠ some h' :=
    fun n hn heq => hne (hm n hn h' heq)
  refine
    { held := fun h' k id => ?_
      active := fun h' s hs => ?_
      below := fun n hn h' heq => ?_ }
  · by_cases hne : h' = h
    · subst hne
      exact hheld k id
    · rw [held_append_iff (hapart h' hne), hother h' hne]
      exact hg.held h' k id
  · by_cases hne : h' = h
    · subst hne
      exact hactive s hs
    · rw [used_append_iff (hapart h' hne)]
      exact hg.active h' s ((hother h' hne).symm.trans hs)
  · rcases List.mem_append.mp hn with hn | hn
    · exact Nat.lt_of_lt_of_le (hg.below n hn h' heq) hlen
    · exact hm n hn h' heq ▸ hlt

theorem Granted.quiet (hg : Granted g t) (hgrants : g'.grants = g.grants)
    (hm : ∀ n ∈ m, n.handle = none) : Granted g' (t ++ m) := by
  have hapart (h : Nat) : ∀ n ∈ m, n.handle ≠ some h := fun n hn => by simp [hm n hn]
  have hsame (h : Nat) : g'.grant? h = g.grant? h := by rw [grant?, hgrants, grant?]
  refine
    { held := fun h k id => by rw [held_append_iff (hapart h), hsame]; exact hg.held h k id
      active := fun h s hs => by
        rw [used_append_iff (hapart h)]
        exact hg.active h s ((hsame h).symm.trans hs)
      below := fun n hn h heq => ?_ }
  rw [hgrants]
  rcases List.mem_append.mp hn with hn | hn
  · exact hg.below n hn h heq
  · simp [hm n hn] at heq

theorem grant?_grant (g : Registry κ) (s : Option Grant) (h : Nat) :
    ({ g with grants := g.grants ++ [s] } : Registry κ).grant? h =
      if h = g.grants.length then s else g.grant? h := by
  rcases Nat.lt_trichotomy h g.grants.length with hlt | rfl | hgt
  · rw [if_neg (by omega), grant?, List.getElem?_append_left hlt, grant?]
  · simp [grant?]
  · rw [if_neg (by omega), grant?, grant?, List.getElem?_eq_none (Nat.le_of_lt hgt),
      List.getElem?_eq_none (by rw [List.length_append]; exact hgt)]

theorem Granted.grant (hg : Granted g t) (k id : Nat) :
    Granted { g with grants := g.grants ++ [some ⟨k, .ofId id⟩] }
      (t ++ [.asked (.grant k id) (.number g.grants.length)]) := by
  have hself := grant?_grant g (some ⟨k, .ofId id⟩) g.grants.length
  rw [if_pos rfl] at hself
  refine hg.frame g.grants.length (fun h hne => by rw [grant?_grant, if_neg hne]) (by simp)
    (by simp) (fun n hn h hh => ?_) (fun k' id' => ?_) fun s hs => ?_
  · cases List.mem_singleton.mp hn
    exact (Option.some.inj hh).symm
  · rw [hself]
    constructor
    · intro hh
      rcases List.mem_append.mp hh.made with hmem | hmem
      · exact absurd hmem (hg.not_mem rfl)
      · cases List.mem_singleton.mp hmem
        exact ⟨true, rfl⟩
    · rintro ⟨b, hb⟩
      cases hb
      refine ⟨List.mem_append_right _ (List.mem_singleton.mpr rfl), ?_⟩
      rw [List.mem_append, not_or]
      exact ⟨hg.not_mem rfl, by simp⟩
  · cases hself.symm.trans hs
    refine iff_of_true rfl ?_
    rw [Used, List.mem_append, not_or]
    exact ⟨hg.not_mem rfl, by simp⟩

theorem Granted.use (hg : Granted g t) {s : Grant} (hs : g.grant? h = some s) :
    Granted (g.setGrant h (some { s with handle := s.handle.release }))
      (t ++ [.asked (.unsubscribe h) .done]) := by
  have hself := grant?_setGrant_self hs (some { s with handle := s.handle.release })
  refine hg.frame h (fun h' hne => grant?_setGrant_other g (Ne.symm hne) _) (by simp [setGrant])
    (by simpa [setGrant] using lt_length_of_grant? hs) (fun n hn h' hh => ?_)
    (fun k id => ?_) fun s' hs' => ?_
  · cases List.mem_singleton.mp hn
    exact (Option.some.inj hh).symm
  · have hsame : Held h k id (t ++ [.asked (.unsubscribe h) .done]) ↔ Held h k id t :=
      ⟨fun hh => ⟨by simpa using hh.made, fun hf => hh.kept (List.mem_append_left _ hf)⟩,
        fun hh => ⟨List.mem_append_left _ hh.made, by simpa using hh.kept⟩⟩
    rw [hsame, hg.held, hself, hs]
    constructor
    · rintro ⟨b, hb⟩
      cases hb
      exact ⟨false, rfl⟩
    · rintro ⟨b, hb⟩
      cases hb
      exact ⟨s.handle.active, rfl⟩
  · cases hself.symm.trans hs'
    simp [Used, Roster.Handle.release]

theorem Granted.forget (hg : Granted g t) {s : Grant} (hs : g.grant? h = some s) :
    Granted (g.setGrant h none) (t ++ [.asked (.forget h) .done]) := by
  have hself := grant?_setGrant_self hs none
  refine hg.frame h (fun h' hne => grant?_setGrant_other g (Ne.symm hne) _) (by simp [setGrant])
    (by simpa [setGrant] using lt_length_of_grant? hs) (fun n hn h' hh => ?_)
    (fun k id => ?_) fun s' hs' => ?_
  · cases List.mem_singleton.mp hn
    exact (Option.some.inj hh).symm
  · rw [hself]
    refine iff_of_false (fun hh => hh.kept (by simp)) ?_
    rintro ⟨_, ⟨⟩⟩
  · cases hself.symm.trans hs'

end Grants

end TwinLink.Registry
