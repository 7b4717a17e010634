import TwinLink.Roster

/-! Lists of listeners in use. Lists have numbers, and so have handles. A handle remembers its
list without keeping it: once the list has been given up the handle can still be used, to no
effect on any other list. -/

namespace TwinLink

/-- A handle and the list that it is for. -/
structure Grant where
  list : Nat
  handle : Roster.Handle
  deriving DecidableEq, Repr

structure Registry (κ : Type) where
  /-- The lists by number; one that has been given up is none. -/
  lists : List (Option (Roster κ))
  /-- The handles by number; one that has been given up is none. -/
  grants : List (Option Grant)
  /-- The number of registrations so far. -/
  registrations : Nat

namespace Registry

/-- What may be asked of the lists and handles. -/
inductive Op (κ : Type) where
  | create
  /-- Gives a list up. -/
  | discard (list : Nat)
  | insert (list : Nat) (listener : κ)
  | remove (list id : Nat)
  | size (list : Nat)
  /-- Makes a handle for a registration. -/
  | grant (list id : Nat)
  | unsubscribe (handle : Nat)
  | isActive (handle : Nat)
  /-- Gives a handle up. -/
  | forget (handle : Nat)

inductive Answer where
  /-- There is no such list or handle. -/
  | missing
  | done
  | number (n : Nat)
  | flag (b : Bool)
  deriving DecidableEq, Repr

/-- What comes of an operation. It may have asked a list that is there to remove a registration. -/
structure Outcome (κ : Type) where
  registry : Registry κ
  answer : Answer
  removal : Option (Nat × Nat)

variable {κ : Type}

def empty : Registry κ := ⟨[], [], 0⟩

def list? (g : Registry κ) (k : Nat) : Option (Roster κ) := g.lists[k]?.join

def grant? (g : Registry κ) (h : Nat) : Option Grant := g.grants[h]?.join

def setList (g : Registry κ) (k : Nat) (r : Option (Roster κ)) : Registry κ :=
  { g with lists := g.lists.set k r }

def setGrant (g : Registry κ) (h : Nat) (t : Option Grant) : Registry κ :=
  { g with grants := g.grants.set h t }

/-- Nothing happens, and the answer is `a`. -/
def still (g : Registry κ) (a : Answer) : Outcome κ := ⟨g, a, none⟩

def onList (g : Registry κ) (k : Nat) (f : Roster κ → Outcome κ) : Outcome κ :=
  (g.list? k).elim (g.still .missing) f

def onGrant (g : Registry κ) (h : Nat) (f : Grant → Outcome κ) : Outcome κ :=
  (g.grant? h).elim (g.still .missing) f

/-- Uses a handle. The first use asks its list, if that is still there, to remove the registration;
any later use does nothing. -/
def release (g : Registry κ) (h : Nat) (t : Grant) : Outcome κ :=
  let g' := g.setGrant h (some { t with handle := t.handle.release })
  ((g.list? t.list).filter fun _ => t.handle.active).elim (g'.still .done) fun r =>
    ⟨g'.setList t.list (some (r.unsubscribe t.handle)), .done, some (t.list, t.handle.id)⟩

def run (g : Registry κ) : Op κ → Outcome κ
  | .create => ⟨{ g with lists := g.lists ++ [some .empty] }, .number g.lists.length, none⟩
  | .discard k => g.onList k fun _ => ⟨g.setList k none, .done, none⟩
  | .insert k listener => g.onList k fun r =>
    ⟨{ g.setList k (some (r.insert g.registrations listener)) with
      registrations := g.registrations + 1 }, .number g.registrations, none⟩
  | .remove k id => g.onList k fun r =>
    ⟨g.setList k (some (r.remove id)), .flag (r.contains id), some (k, id)⟩
  | .size k => g.onList k fun r => g.still (.number r.size)
  | .grant k id => g.onList k fun _ =>
    ⟨{ g with grants := g.grants ++ [some ⟨k, .ofId id⟩] }, .number g.grants.length, none⟩
  | .unsubscribe h => g.onGrant h (g.release h)
  | .isActive h => g.onGrant h fun t => g.still (.flag t.handle.active)
  | .forget h => g.onGrant h fun _ => ⟨g.setGrant h none, .done, none⟩

theorem lt_length_of_list? {g : Registry κ} {k : Nat} {r : Roster κ} (h : g.list? k = some r) :
    k < g.lists.length := by
  rcases Nat.lt_or_ge k g.lists.length with hlt | hge
  · exact hlt
  · rw [list?, List.getElem?_eq_none hge] at h
    cases h

theorem list?_setList_self {g : Registry κ} {k : Nat} {r : Roster κ} (h : g.list? k = some r)
    (r' : Option (Roster κ)) : (g.setList k r').list? k = r' := by
  simp [list?, setList, lt_length_of_list? h]

theorem list?_setList_other (g : Registry κ) {k k' : Nat} (h : k ≠ k') (r : Option (Roster κ)) :
    (g.setList k r).list? k' = g.list? k' := by
  simp [list?, setList, h]

theorem lt_length_of_grant? {g : Registry κ} {h : Nat} {t : Grant} (ht : g.grant? h = some t) :
    h < g.grants.length := by
  rcases Nat.lt_or_ge h g.grants.length with hlt | hge
  · exact hlt
  · rw [grant?, List.getElem?_eq_none hge] at ht
    cases ht

theorem grant?_setGrant_self {g : Registry κ} {h : Nat} {t : Grant} (ht : g.grant? h = some t)
    (t' : Option Grant) : (g.setGrant h t').grant? h = t' := by
  simp [grant?, setGrant, lt_length_of_grant? ht]

theorem grant?_setGrant_other (g : Registry κ) {h h' : Nat} (hne : h ≠ h') (t : Option Grant) :
    (g.setGrant h t).grant? h' = g.grant? h' := by
  simp [grant?, setGrant, hne]

end Registry

end TwinLink
