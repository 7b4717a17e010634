/-! Lists of listeners in the order of their registration. A registration has a number of
its own, so the same listener may be registered twice and each registration is removed
alone. A handle removes its registration once. -/

namespace TwinLink

/-- Registrations with their numbers. -/
structure Roster (κ : Type) where
  entries : List (Nat × κ)
  deriving DecidableEq, Repr

namespace Roster

variable {κ : Type}

def empty : Roster κ := ⟨[]⟩

def insert (id : Nat) (listener : κ) (r : Roster κ) : Roster κ := ⟨r.entries ++ [(id, listener)]⟩

def remove (id : Nat) (r : Roster κ) : Roster κ := ⟨r.entries.filter (·.1 ≠ id)⟩

def ids (r : Roster κ) : List Nat := r.entries.map Prod.fst

def contains (id : Nat) (r : Roster κ) : Bool := r.ids.contains id

def size (r : Roster κ) : Nat := r.entries.length

@[simp] theorem ids_empty : (empty : Roster κ).ids = [] := rfl

@[simp] theorem ids_insert (id : Nat) (listener : κ) (r : Roster κ) :
    (r.insert id listener).ids = r.ids ++ [id] := by
  simp [ids, insert]

@[simp] theorem ids_remove (id : Nat) (r : Roster κ) :
    (r.remove id).ids = r.ids.filter (· ≠ id) := by
  simp only [ids, remove, List.filter_map]
  rfl

theorem contains_iff {id : Nat} {r : Roster κ} : r.contains id = true ↔ id ∈ r.ids := by
  simp [contains]

theorem remove_of_not_mem {id : Nat} {r : Roster κ} (h : id ∉ r.ids) : r.remove id = r := by
  cases r with
  | mk entries =>
    simp only [remove, mk.injEq, List.filter_eq_self]
    intro e he
    have : e.1 ≠ id := fun hid => h (hid ▸ List.mem_map_of_mem he)
    simpa using this

/-- What a registration gives: it is active until it is used to remove the registration. -/
structure Handle where
  id : Nat
  active : Bool
  deriving DecidableEq, Repr

namespace Handle

def ofId (id : Nat) : Handle := ⟨id, true⟩

/-- Uses the handle. -/
def release (h : Handle) : Handle := { h with active := false }

end Handle

/-- Removes the registration of a handle that is still active. -/
def unsubscribe (h : Handle) (r : Roster κ) : Roster κ := if h.active then r.remove h.id else r

theorem unsubscribe_release (h : Handle) (r : Roster κ) : r.unsubscribe h.release = r := rfl

end Roster

end TwinLink
