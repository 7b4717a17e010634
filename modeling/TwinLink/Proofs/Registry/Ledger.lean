import TwinLink.Proofs.Registry.Entries
import TwinLink.Proofs.Registry.Handles
import TwinLink.Proofs.World.Moments

/-! Operations on lists and handles, and runs of them. Removing a registration leaves all others
where they are. A handle removes at most its own registration, at its first use, and its list may be
gone by then. -/

namespace TwinLink.Registry

open World (Each each_nil each_append each_append_of_forall)

variable {κ ε γ τ : Type}

/-- What can come of an operation. -/
inductive Ran (g : Registry κ) : Op κ → Outcome κ → Prop where
  | missing (op : Op κ) : Ran g op (g.still .missing)
  | create : Ran g .create
    ⟨{ g with lists := g.lists ++ [some .empty] }, .number g.lists.length, none⟩
  | discard {k : Nat} {r : Roster κ} (hk : g.list? k = some r) :
    Ran g (.discard k) ⟨g.setList k none, .done, none⟩
  | insert {k : Nat} {r : Roster κ} (hk : g.list? k = some r) (l : κ) :
    Ran g (.insert k l) ⟨{ g.setList k (some (r.insert g.registrations l)) with
      registrations := g.registrations + 1 }, .number g.registrations, none⟩
  | remove {k : Nat} {r : Roster κ} (hk : g.list? k = some r) (id : Nat) :
    Ran g (.remove k id) ⟨g.setList k (some (r.remove id)), .flag (r.contains id), some (k, id)⟩
  | size {k : Nat} {r : Roster κ} (hk : g.list? k = some r) :
    Ran g (.size k) (g.still (.number r.size))
  | grant {k : Nat} {r : Roster κ} (hk : g.list? k = some r) (id : Nat) :
    Ran g (.grant k id)
      ⟨{ g with grants := g.grants ++ [some ⟨k, .ofId id⟩] }, .number g.grants.length, none⟩
  /-- The list is gone, or the handle has been used before. -/
  | spent {h : Nat} {s : Grant} (hs : g.grant? h = some s)
    (hspent : g.list? s.list = none ∨ s.handle.active = false) :
    Ran g (.unsubscribe h)
      ((g.setGrant h (some { s with handle := s.handle.release })).still .done)
  | use {h : Nat} {s : Grant} {r : Roster κ} (hs : g.grant? h = some s)
    (ha : s.handle.active = true) (hk : g.list? s.list = some r) :
    Ran g (.unsubscribe h)
      ⟨(g.setGrant h (some { s with handle := s.handle.release })).setList s.list
        (some (r.remove s.handle.id)), .done, some (s.list, s.handle.id)⟩
  | isActive {h : Nat} {s : Grant} (hs : g.grant? h = some s) :
    Ran g (.isActive h) (g.still (.flag s.handle.active))
  | forget {h : Nat} {s : Grant} (hs : g.grant? h = some s) :
    Ran g (.forget h) ⟨g.setGrant h none, .done, none⟩

section Operations

variable {g : Registry κ} {t : List (Note κ ε)} {k h id : Nat} {r : Roster κ}

theorem onList_of_some (hk : g.list? k = some r) (f : Roster κ → Outcome κ) :
    g.onList k f = f r := by
  rw [onList, hk, Option.elim_some]

theorem onGrant_of_some {s : Grant} (hs : g.grant? h = some s) (f : Grant → Outcome κ) :
    g.onGrant h f = f s := by
  rw [onGrant, hs, Option.elim_some]

theorem onList_ran {op : Op κ} {f : Roster κ → Outcome κ}
    (hf : ∀ r, g.list? k = some r → Ran g op (f r)) : Ran g op (g.onList k f) := by
  cases hk : g.list? k with
  | none => rw [onList, hk]; exact .missing op
  | some r => rw [onList_of_some hk]; exact hf r hk

theorem onGrant_ran {op : Op κ} {f : Grant → Outcome κ}
    (hf : ∀ s, g.grant? h = some s → Ran g op (f s)) : Ran g op (g.onGrant h f) := by
  cases hs : g.grant? h with
  | none => rw [onGrant, hs]; exact .missing op
  | some s => rw [onGrant_of_some hs]; exact hf s hs

theorem release_of_spent {s : Grant} (hspent : g.list? s.list = none ∨ s.handle.active = false) :
    g.release h s =
      (g.setGrant h (some { s with handle := s.handle.release })).still .done := by
  rcases hspent with hnone | hused
  · simp [release, hnone]
  · simp [release, hused]

theorem release_of_active {s : Grant} (ha : s.handle.active = true)
    (hk : g.list? s.list = some r) : g.release h s =
      ⟨(g.setGrant h (some { s with handle := s.handle.release })).setList s.list
        (some (r.remove s.handle.id)), .done, some (s.list, s.handle.id)⟩ := by
  simp [release, hk, ha, Roster.unsubscribe, Option.filter]

/-- A new list has no registrations. -/
theorem list?_create (hk : (g.run .create).registry.list? k = some r) :
    g.list? k = some r ∨ g.lists.length ≤ k ∧ r.entries = [] := by
  rw [run, list?_concat] at hk
  split at hk
  · next hnew =>
    cases hk
    exact .inr ⟨Nat.le_of_eq hnew.symm, rfl⟩
  · exact .inl hk

theorem run_ran (g : Registry κ) (op : Op κ) : Ran g op (g.run op) := by
  cases op with
  | create => exact .create
  | discard k => exact onList_ran fun _ hk => .discard hk
  | insert k l => exact onList_ran fun _ hk => .insert hk l
  | remove k id => exact onList_ran fun _ hk => .remove hk id
  | size k => exact onList_ran fun _ hk => .size hk
  | grant k id => exact onList_ran fun _ hk => .grant hk id
  | isActive h => exact onGrant_ran fun _ hs => .isActive hs
  | forget h => exact onGrant_ran fun _ hs => .forget hs
  | unsubscribe h =>
    refine onGrant_ran fun s hs => ?_
    cases ha : s.handle.active with
    | false => rw [release_of_spent (.inr ha)]; exact .spent hs (.inr ha)
    | true =>
      cases hk : g.list? s.list with
      | none => rw [release_of_spent (.inl hk)]; exact .spent hs (.inl hk)
      | some r => rw [release_of_active ha hk]; exact .use hs ha hk

end Operations

/-! ### Runs -/

/-- What makes a list be asked to remove a registration: that operation or the first use of a
handle. -/
inductive Cause (k id : Nat) (t : List (Note κ ε)) : Note κ ε → Prop where
  | remove (b : Bool) : Cause k id t (.asked (.remove k id) (.flag b))
  | unsubscribe {h : Nat} (hh : Held h k id t) (hu : ¬Used h t) :
    Cause k id t (.asked (.unsubscribe h) .done)

/-- A removal has its cause right before it. -/
def Caused (before : List (Note κ ε)) (n : Note κ ε) : Prop :=
  ∀ k id, n = .removed k id → ∃ earlier m, before = earlier ++ [m] ∧ Cause k id earlier m

/-- What the notes tell about lists and handles. -/
structure Ledger (g : Registry κ) (t : List (Note κ ε)) : Prop where
  opened : Opened g t
  listed : Listed g t
  granted : Granted g t
  caused : Each Caused t

section Runs

variable {g : Registry κ} {t m : List (Note κ ε)}

theorem caused_append (h : Each Caused t) (hm : removals m = []) : Each Caused (t ++ m) := by
  refine each_append_of_forall h fun n hn before k id heq => ?_
  have hnone := List.filterMap_eq_nil_iff.mp hm n hn
  rw [heq] at hnone
  cases hnone

theorem caused_append_removed {n : Note κ ε} {k id : Nat} (h : Each Caused t)
    (hn : Cause k id t n) : Each Caused (t ++ [n, .removed k id]) := by
  refine each_append h fun before x after hsplit k' id' hx => ?_
  subst hx
  rcases before with _ | ⟨y, _ | ⟨z, before⟩⟩
  · cases hsplit
    cases hn
  · cases hsplit
    exact ⟨t, n, rfl, hn⟩
  · simp at hsplit

/-- Only making and giving up lists changes which there are. -/
theorem Opened.ran (h : Opened g t) {op : Op κ} {o : Outcome κ} (hran : Ran g op o) :
    Opened o.registry (t ++ o.notes ε op) := by
  cases hran with
  | create => exact h.create .empty
  | discard hk => exact h.discard hk
  | missing =>
    refine h.quiet (fun _ => rfl) (Nat.le_refl _) fun n hn => ?_
    cases List.mem_singleton.mp hn
    cases op <;> rfl
  | insert hk listener =>
    exact h.quiet (isSome_setList hk _) (by simp [setList]) (by simp [Outcome.notes, Note.list])
  | remove hk id =>
    exact h.quiet (isSome_setList hk _) (by simp [setList]) (by simp [Outcome.notes, Note.list])
  | use hs ha hk =>
    exact h.quiet (isSome_setList hk _) (by simp [setList, setGrant])
      (by simp [Outcome.notes, Note.list])
  | _ => exact h.quiet (fun _ => rfl) (Nat.le_refl _) (by simp [Outcome.notes, still, Note.list])

namespace Ledger

theorem empty : Ledger (.empty : Registry κ) ([] : List (Note κ ε)) :=
  ⟨.empty, .empty, .empty, each_nil _⟩

theorem quiet (l : Ledger g t) (hl : ∀ n ∈ m, n.list = none) (hi : insertions m = [])
    (hr : removals m = []) (hm : ∀ n ∈ m, n.handle = none) : Ledger g (t ++ m) :=
  ⟨l.opened.quiet (fun _ => rfl) (Nat.le_refl _) hl, l.listed.quiet hi hr, l.granted.quiet rfl hm,
    caused_append l.caused hr⟩

theorem run (l : Ledger g t) (op : Op κ) :
    Ledger (g.run op).registry (t ++ (g.run op).notes ε op) := by
  generalize ho : g.run op = o
  have hran : Ran g op o := ho ▸ run_ran g op
  have hopened := l.opened.ran hran
  cases hran with
  | missing =>
    refine l.quiet (fun n hn => ?_) ?_ ?_ fun n hn => ?_
    · cases List.mem_singleton.mp hn
      cases op <;> rfl
    · cases op <;> rfl
    · cases op <;> rfl
    · cases List.mem_singleton.mp hn
      cases op <;> rfl
  | create =>
    exact ⟨hopened, l.listed.frame (fun _ _ hk => list?_create hk) (by simp) rfl rfl rfl,
      l.granted.quiet rfl (by simp [Outcome.notes, Note.handle]), caused_append l.caused rfl⟩
  | @discard k r hk =>
    refine ⟨hopened, l.listed.frame (fun k' r' hk' => ?_) (by simp [setList]) rfl rfl rfl,
      l.granted.quiet rfl (by simp [Outcome.notes, Note.handle]), caused_append l.caused rfl⟩
    by_cases hne : k = k'
    · subst hne
      rw [list?_setList_self hk] at hk'
      cases hk'
    · exact .inl ((list?_setList_other g hne _).symm.trans hk')
  | insert hk listener =>
    exact ⟨hopened, l.listed.insert hk listener,
      l.granted.quiet rfl (by simp [Outcome.notes, Note.handle]), caused_append l.caused rfl⟩
  | @remove k r hk id =>
    have hasked : Listed g (t ++ [.asked (.remove k id) (.flag (r.contains id))]) :=
      l.listed.quiet rfl rfl
    have hlisted := hasked.remove hk id
    rw [List.append_assoc] at hlisted
    exact ⟨hopened, hlisted, l.granted.quiet rfl (by simp [Outcome.notes, Note.handle]),
      caused_append_removed l.caused (.remove _)⟩
  | size hk =>
    exact l.quiet (by simp [Outcome.notes, still, Note.list]) rfl rfl
      (by simp [Outcome.notes, still, Note.handle])
  | grant hk id =>
    exact ⟨hopened, l.listed.frame (fun _ _ => .inl) (Nat.le_refl _) rfl rfl rfl,
      l.granted.grant _ id, caused_append l.caused rfl⟩
  | spent hs _ =>
    exact ⟨hopened, l.listed.frame (fun _ _ => .inl) (Nat.le_refl _) rfl rfl rfl, l.granted.use hs,
      caused_append l.caused rfl⟩
  | @use h s r hs ha hk =>
    have hused : Listed (g.setGrant h (some { s with handle := s.handle.release }))
        (t ++ [.asked (.unsubscribe h) .done]) :=
      l.listed.frame (fun _ _ => .inl) (Nat.le_refl _) rfl rfl rfl
    have hlisted := hused.remove hk s.handle.id
    have hgranted : Granted ((g.setGrant h (some { s with handle := s.handle.release })).setList
        s.list (some (r.remove s.handle.id))) (t ++ [.asked (.unsubscribe h) .done] ++
          [.removed s.list s.handle.id]) :=
      (l.granted.use hs).quiet rfl (by simp [Note.handle])
    rw [List.append_assoc] at hlisted hgranted
    exact ⟨hopened, hlisted, hgranted, caused_append_removed l.caused
      (.unsubscribe (l.granted.held_of hs) ((l.granted.active h s hs).mp ha))⟩
  | isActive hs =>
    exact l.quiet (by simp [Outcome.notes, still, Note.list]) rfl rfl
      (by simp [Outcome.notes, still, Note.handle])
  | forget hs =>
    exact ⟨hopened, l.listed.frame (fun _ _ => .inl) (Nat.le_refl _) rfl rfl rfl,
      l.granted.forget hs, caused_append l.caused rfl⟩

end Ledger

end Runs

namespace Stage

variable {C : Client κ ε γ τ} {s : Stage κ ε γ τ}

def Recorded (s : Stage κ ε γ τ) : Prop := Ledger s.registry s.trace

theorem recorded_start (client : τ) : (start client : Stage κ ε γ τ).Recorded := .empty

theorem Recorded.step (h : s.Recorded) (C : Client κ ε γ τ) : (s.step C).Recorded := by
  cases hagenda : s.agenda with
  | nil => rwa [step_of_nil hagenda]
  | cons task rest =>
    rw [step_of_cons hagenda]
    cases task with
    | call | conclude =>
      exact h.quiet (by simp [Note.list]) rfl rfl (by simp [Note.handle])
    | request r =>
      cases r with
      | own item => exact h
      | ask op reply => exact h.run op
      | emit k e reply =>
        rw [perform, request]
        cases s.registry.list? k with
        | none => exact h.quiet (by simp) rfl rfl (by simp)
        | some r => exact h.quiet (by simp [Note.list]) rfl rfl (by simp [Note.handle])

theorem Recorded.settle (h : s.Recorded) (C : Client κ ε γ τ) (n : Nat) :
    (settle C n s).Recorded := by
  induction n generalizing s with
  | zero => exact h
  | succ n ih => rw [settle_succ]; exact ih (h.step C)

theorem Recorded.run (h : s.Recorded) (C : Client κ ε γ τ) (items : List (γ × Nat)) :
    (run C items s).Recorded := by
  induction items generalizing s with
  | nil => exact h
  | cons x items ih => exact ih (Recorded.settle (s := s.prompt x.1) h C x.2)

/-- Nothing that is noted is forgotten. -/
theorem trace_step (C : Client κ ε γ τ) (s : Stage κ ε γ τ) : s.trace <+: (s.step C).trace := by
  cases hagenda : s.agenda with
  | nil =>
    have hsame : (s.step C).trace = s.trace := congrArg Stage.trace (step_of_nil hagenda)
    exact hsame ▸ List.prefix_rfl
  | cons task rest =>
    rw [step_of_cons hagenda]
    cases task with
    | call | conclude => exact List.prefix_append _ _
    | request q =>
      cases q with
      | own item => exact List.prefix_rfl
      | ask op reply => exact List.prefix_append _ _
      | emit k e reply =>
        rw [perform, request]
        cases s.registry.list? k with
        | none => exact List.prefix_append _ _
        | some r => exact List.prefix_append _ _

theorem trace_settle (C : Client κ ε γ τ) (n : Nat) (s : Stage κ ε γ τ) :
    s.trace <+: (settle C n s).trace := by
  induction n generalizing s with
  | zero => exact List.prefix_rfl
  | succ n ih => rw [settle_succ]; exact (trace_step C s).trans (ih (s.step C))

theorem trace_run (C : Client κ ε γ τ) (items : List (γ × Nat)) (s : Stage κ ε γ τ) :
    s.trace <+: (run C items s).trace := by
  induction items generalizing s with
  | nil => exact List.prefix_rfl
  | cons x items ih => exact (trace_settle C x.2 (s.prompt x.1)).trans (ih _)

theorem run_append (C : Client κ ε γ τ) (items more : List (γ × Nat)) (s : Stage κ ε γ τ) :
    run C (items ++ more) s = run C more (run C items s) :=
  List.foldl_append

end Stage

/-- An operation has the answer `a`, it leaves `r` of the list `k`, and the other lists are as they
were. -/
structure Acts (g : Registry κ) (op : Op κ) (a : Answer) (k : Nat) (r : Option (Roster κ)) :
    Prop where
  answer : (g.run op).answer = a
  list : (g.run op).registry.list? k = r
  others : ∀ k', k' ≠ k → (g.run op).registry.list? k' = g.list? k'

/-- The list that an operation is for. -/
def Op.list? : Op κ → Option Nat
  | discard k | insert k _ | remove k _ | size k | grant k _ => some k
  | _ => none

/-- The handle that an operation is for. -/
def Op.handle? : Op κ → Option Nat
  | unsubscribe h | isActive h | forget h => some h
  | _ => none

/-- What has come of the lists and handles, by the notes `t`, and what comes of the next
operation. -/
structure Registered (g : Registry κ) (t : List (Note κ ε)) : Prop where
  /-- A list that was made is there until it is given up. -/
  present : ∀ k, (∃ r, g.list? k = some r) ↔ Open k t
  entries : ∀ k r, g.list? k = some r → r.entries = standing k t
  distinct : (issued t).Nodup
  /-- Nothing else makes a registration go. -/
  removed : Each Caused t
  create : ∃ k, .asked .create (.number k) ∉ t ∧ g.list? k = none ∧
    Acts g .create (.number k) k (some .empty)
  insert : ∀ k l r, g.list? k = some r → ∃ id, id ∉ issued t ∧
    Acts g (.insert k l) (.number id) k (some ⟨r.entries ++ [(id, l)]⟩)
  remove : ∀ k id r, g.list? k = some r →
    (∃ r', r.Drops id r' ∧ Acts g (.remove k id) (.flag true) k (some r')) ∨
      id ∉ r.ids ∧ Acts g (.remove k id) (.flag false) k (some r)
  /-- A new handle is held and has not been used. -/
  grant : ∀ k id r, g.list? k = some r → ∃ h, Acts g (.grant k id) (.number h) k (some r) ∧
    Held h k id (t ++ (g.run (.grant k id)).notes ε (.grant k id)) ∧
    ¬Used h (t ++ (g.run (.grant k id)).notes ε (.grant k id))
  /-- The first use of a handle. The list may be gone. -/
  unsubscribe : ∀ h k id, Held h k id t → ¬Used h t →
    (∃ r r', g.list? k = some r ∧ r.Drops id r' ∧
        Acts g (.unsubscribe h) .done k (some r')) ∨
      (∀ r, g.list? k = some r → id ∉ r.ids) ∧ Acts g (.unsubscribe h) .done k (g.list? k)
  /-- Any later use changes nothing at all. -/
  again : ∀ h k id, Held h k id t → Used h t → g.run (.unsubscribe h) = g.still .done
  isActive : ∀ h k id, Held h k id t →
    ∃ b, g.run (.isActive h) = g.still (.flag b) ∧ (b = true ↔ ¬Used h t)
  forget : ∀ h k id, Held h k id t → Acts g (.forget h) .done k (g.list? k)
  discard : ∀ k r, g.list? k = some r → Acts g (.discard k) .done k none
  size : ∀ k r, g.list? k = some r → g.run (.size k) = g.still (.number r.entries.length)
  /-- A list that is not there is missing. -/
  noList : ∀ op k, op.list? = some k → ¬Open k t → g.run op = g.still .missing
  /-- So is a handle that is not held. -/
  noHandle : ∀ op h, op.handle? = some h → (∀ k id, ¬Held h k id t) →
    g.run op = g.still .missing

section Next

variable {g : Registry κ} {t : List (Note κ ε)} {k h id : Nat} {r : Roster κ}

/-- The list `k` is replaced, and nothing but it. -/
theorem acts_of_setList {op : Op κ} {a : Answer} {r' : Option (Roster κ)} {o : Outcome κ}
    {g' : Registry κ} (ho : g.run op = o) (ha : o.answer = a)
    (hset : ∀ k', o.registry.list? k' = (g'.setList k r').list? k') (hk : g.list? k = some r)
    (hg : ∀ k', g'.list? k' = g.list? k') : Acts g op a k r' where
  answer := by rw [ho, ha]
  list := by rw [ho, hset]; exact list?_setList_self ((hg k).trans hk) r'
  others k' hne := by rw [ho, hset, list?_setList_other g' (Ne.symm hne), hg]

/-- No list changes. -/
theorem acts_of_same {op : Op κ} {a : Answer} {o : Outcome κ} (ho : g.run op = o)
    (ha : o.answer = a) (hg : ∀ k', o.registry.list? k' = g.list? k') :
    Acts g op a k (g.list? k) where
  answer := by rw [ho, ha]
  list := by rw [ho, hg]
  others k' _ := by rw [ho, hg]

theorem Listed.acts_insert (hl : Listed g t) (hk : g.list? k = some r) (l : κ) :
    ∃ id, id ∉ issued t ∧ Acts g (.insert k l) (.number id) k (some ⟨r.entries ++ [(id, l)]⟩) :=
  ⟨g.registrations, fun hid => Nat.lt_irrefl _ (hl.below _ hid),
    acts_of_setList (onList_of_some hk _) rfl (fun _ => rfl) hk fun _ => rfl⟩

theorem Listed.acts_remove (hl : Listed g t) (hk : g.list? k = some r) (id : Nat) :
    (∃ r', r.Drops id r' ∧ Acts g (.remove k id) (.flag true) k (some r')) ∨
      id ∉ r.ids ∧ Acts g (.remove k id) (.flag false) k (some r) := by
  have hacts : Acts g (.remove k id) (.flag (r.contains id)) k (some (r.remove id)) :=
    acts_of_setList (onList_of_some hk _) rfl (fun _ => rfl) hk fun _ => rfl
  by_cases hid : id ∈ r.ids
  · rw [Roster.contains_iff.mpr hid] at hacts
    exact .inl ⟨_, Roster.drops_remove (hl.nodup hk) hid, hacts⟩
  · have hfalse : r.contains id = false :=
      Bool.eq_false_iff.mpr fun htrue => hid (Roster.contains_iff.mp htrue)
    rw [hfalse, Roster.remove_of_not_mem hid] at hacts
    exact .inr ⟨hid, hacts⟩

theorem Ledger.acts_grant (l : Ledger g t) (hk : g.list? k = some r) (id : Nat) :
    ∃ h, Acts g (.grant k id) (.number h) k (some r) ∧
      Held h k id (t ++ (g.run (.grant k id)).notes ε (.grant k id)) ∧
      ¬Used h (t ++ (g.run (.grant k id)).notes ε (.grant k id)) := by
  have hrun : g.run (.grant k id) = ⟨{ g with grants := g.grants ++ [some ⟨k, .ofId id⟩] },
      .number g.grants.length, none⟩ := onList_of_some hk _
  refine ⟨g.grants.length, hk ▸ acts_of_same hrun rfl fun _ => rfl, ?_⟩
  rw [hrun]
  refine ⟨⟨by simp [Outcome.notes], ?_⟩, ?_⟩
  · rw [List.mem_append, not_or]
    exact ⟨l.granted.not_mem rfl, by simp [Outcome.notes]⟩
  · rw [Used, List.mem_append, not_or]
    exact ⟨l.granted.not_mem rfl, by simp [Outcome.notes]⟩

theorem Ledger.acts_unsubscribe (l : Ledger g t) (hh : Held h k id t) (hu : ¬Used h t) :
    (∃ r r', g.list? k = some r ∧ r.Drops id r' ∧ Acts g (.unsubscribe h) .done k (some r')) ∨
      (∀ r, g.list? k = some r → id ∉ r.ids) ∧ Acts g (.unsubscribe h) .done k (g.list? k) := by
  obtain ⟨b, hs⟩ := (l.granted.held h k id).mp hh
  have hb : b = true := (l.granted.active h _ hs).mpr hu
  have hrun : g.run (.unsubscribe h) = g.release h ⟨k, ⟨id, b⟩⟩ := onGrant_of_some hs _
  cases hk : g.list? k with
  | none =>
    rw [release_of_spent (.inl hk)] at hrun
    exact .inr ⟨fun r hr => (nomatch hr), hk ▸ acts_of_same hrun rfl fun _ => rfl⟩
  | some r =>
    rw [release_of_active hb hk] at hrun
    have hacts : Acts g (.unsubscribe h) .done k (some (r.remove id)) :=
      acts_of_setList hrun rfl (fun _ => rfl) hk fun _ => rfl
    by_cases hid : id ∈ r.ids
    · exact .inl ⟨r, _, rfl, Roster.drops_remove (l.listed.nodup hk) hid, hacts⟩
    · rw [Roster.remove_of_not_mem hid] at hacts
      exact .inr ⟨fun r' hr => Option.some.inj hr ▸ hid, hacts⟩

theorem Granted.run_again (hg : Granted g t) (hh : Held h k id t) (hu : Used h t) :
    g.run (.unsubscribe h) = g.still .done := by
  obtain ⟨b, hs⟩ := (hg.held h k id).mp hh
  have hused : b = false := Bool.eq_false_iff.mpr fun htrue => (hg.active h _ hs).mp htrue hu
  subst hused
  have hrun : g.run (.unsubscribe h) = g.release h ⟨k, ⟨id, false⟩⟩ := onGrant_of_some hs _
  rw [hrun, release_of_spent (.inr rfl)]
  -- the handle is put back as it is
  have hsame : g.setGrant h (some ⟨k, ⟨id, false⟩⟩) = g := by
    have hget : g.grants[h]? = some (some ⟨k, ⟨id, false⟩⟩) := Option.join_eq_some_iff.mp hs
    obtain ⟨hlt, hget⟩ := List.getElem?_eq_some_iff.mp hget
    rw [setGrant, ← hget, List.set_getElem_self]
  exact congrArg (still · .done) hsame

theorem Granted.run_isActive (hg : Granted g t) (hh : Held h k id t) :
    ∃ b, g.run (.isActive h) = g.still (.flag b) ∧ (b = true ↔ ¬Used h t) := by
  obtain ⟨b, hs⟩ := (hg.held h k id).mp hh
  exact ⟨b, onGrant_of_some hs _, hg.active h _ hs⟩

theorem Granted.acts_forget (hg : Granted g t) (hh : Held h k id t) :
    Acts g (.forget h) .done k (g.list? k) := by
  obtain ⟨b, hs⟩ := (hg.held h k id).mp hh
  exact acts_of_same (onGrant_of_some hs _) rfl fun _ => rfl

theorem Opened.present (ho : Opened g t) : (∃ r, g.list? k = some r) ↔ Open k t := by
  rw [← ho.isSome, Option.isSome_iff_exists]

theorem Opened.acts_create (ho : Opened g t) : ∃ k, .asked .create (.number k) ∉ t ∧
    g.list? k = none ∧ Acts g .create (.number k) k (some .empty) := by
  have hlist (k : Nat) : (g.run .create).registry.list? k =
      if k = g.lists.length then some .empty else g.list? k := list?_concat g .empty k
  refine ⟨g.lists.length, ho.not_mem rfl, ?_, rfl, (hlist _).trans (if_pos rfl),
    fun k' hne => (hlist k').trans (if_neg hne)⟩
  rw [list?, List.getElem?_eq_none (Nat.le_refl _)]
  rfl

theorem Opened.run_missing (ho : Opened g t) {op : Op κ} (hop : op.list? = some k)
    (hk : ¬Open k t) : g.run op = g.still .missing := by
  have hnone : g.list? k = none :=
    Option.eq_none_iff_forall_ne_some.mpr fun r hr => hk (ho.present.mp ⟨r, hr⟩)
  cases op <;> cases hop <;> simp [run, onList, hnone]

theorem Granted.run_missing (hg : Granted g t) {op : Op κ} (hop : op.handle? = some h)
    (hh : ∀ k id, ¬Held h k id t) : g.run op = g.still .missing := by
  have hnone : g.grant? h = none :=
    Option.eq_none_iff_forall_ne_some.mpr fun s hs => hh _ _ (hg.held_of hs)
  cases op <;> cases hop <;> simp [run, onGrant, hnone]

theorem acts_discard (hk : g.list? k = some r) : Acts g (.discard k) .done k none :=
  acts_of_setList (onList_of_some hk _) rfl (fun _ => rfl) hk fun _ => rfl

end Next

/-- After any run of registrations, removals, uses and losses of handles, losses of lists, and
emissions whose listeners do such things, the lists that were made and not given up are there, and
each holds the registrations that were made with it and not removed since; and this is what the next
operation does. What has been noted stays so in whatever comes next. -/
theorem run_registered (C : Client κ ε γ τ) (client : τ) (items : List (γ × Nat)) :
    Registered (Stage.run C items (.start client)).registry
      (Stage.run C items (.start client)).trace ∧
    ∀ more, (Stage.run C items (.start client)).trace <+:
      (Stage.run C (items ++ more) (.start client)).trace := by
  have l : Ledger _ _ := (Stage.recorded_start client).run C items
  refine ⟨?_, fun more => Stage.run_append C items more _ ▸ Stage.trace_run C more _⟩
  exact
    { present := fun _ => l.opened.present
      entries := l.listed.entries
      distinct := l.listed.distinct
      removed := l.caused
      create := l.opened.acts_create
      insert := fun _ listener _ hk => l.listed.acts_insert hk listener
      remove := fun _ id _ hk => l.listed.acts_remove hk id
      grant := fun _ id _ hk => l.acts_grant hk id
      unsubscribe := fun _ _ _ hh hu => l.acts_unsubscribe hh hu
      again := fun _ _ _ hh hu => l.granted.run_again hh hu
      isActive := fun _ _ _ hh => l.granted.run_isActive hh
      forget := fun _ _ _ hh => l.granted.acts_forget hh
      discard := fun _ _ hk => acts_discard hk
      size := fun _ _ hk => onList_of_some hk _
      noList := fun _ _ hop hk => l.opened.run_missing hop hk
      noHandle := fun _ _ hop hh => l.granted.run_missing hop hh }

inductive Deed where
  | begin
  | hear
  | rest

/-- The same listener is registered twice, the first time with a handle, and called. When it is
first called it uses the handle, registers another listener and emits again. -/
def reentrant : Client Bool Unit Deed Bool where
  hear listener _ := if listener then .hear else .rest
  perform
    | .begin, heard =>
      (heard, [.ask .create fun _ => .rest, .ask (.insert 0 true) fun _ => .rest,
        .ask (.insert 0 true) fun _ => .rest, .ask (.grant 0 0) fun _ => .rest,
        .emit 0 () fun _ => .rest])
    | .hear, false =>
      (true, [.ask (.unsubscribe 0) fun _ => .rest, .ask (.insert 0 false) fun _ => .rest,
        .emit 0 () fun _ => .rest])
    | _, heard => (heard, [])

theorem run_registered_reentrant :
    let s := Stage.run reentrant [(.begin, 40)] (.start false)
    s.agenda = [] ∧ s.registry.list? 0 = some ⟨[(1, true), (2, false)]⟩ ∧ Open 0 s.trace ∧
      standing 0 s.trace = [(1, true), (2, false)] ∧
      (∃ r, Roster.Drops 1 ⟨[(1, true), (2, false)]⟩ r ∧
        Acts s.registry (.remove 0 1) (.flag true) 0 (some r)) ∧
      Held 0 0 0 s.trace ∧ Used 0 s.trace ∧
      s.registry.run (.unsubscribe 0) = s.registry.still .done := by
  intro s
  obtain ⟨h, -⟩ := run_registered reentrant false [(.begin, 40)]
  have hlist : s.registry.list? 0 = some ⟨[(1, true), (2, false)]⟩ := rfl
  have htrace : s.trace =
      [.asked .create (.number 0), .asked (.insert 0 true) (.number 0),
        .asked (.insert 0 true) (.number 1), .asked (.grant 0 0) (.number 0), .emitted 0 0 (),
        .called 0 0 true (), .asked (.unsubscribe 0) .done, .removed 0 0,
        .asked (.insert 0 false) (.number 2), .emitted 1 0 (), .called 1 1 true (),
        .called 1 2 false (), .ended 1 2, .called 0 1 true (), .ended 0 2] := rfl
  have hheld : Held 0 0 0 s.trace := by
    rw [htrace]
    exact ⟨by simp, by simp⟩
  have hused : Used 0 s.trace := by
    rw [htrace]
    simp [Used]
  have hdrop := (h.remove 0 1 _ hlist).resolve_right fun hid => hid.1 (by simp [Roster.ids])
  exact ⟨rfl, hlist, (h.present 0).mp ⟨_, hlist⟩, (h.entries 0 _ hlist).symm, hdrop, hheld, hused,
    h.again 0 0 0 hheld hused⟩

end TwinLink.Registry
