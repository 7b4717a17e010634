import Mathlib.Data.List.Nodup
import TwinLink.Registry.Stage

/-! The lists that there are, and the registrations with a list. A list is there from when it is
made until it is given up. It holds the registrations that were made with it, in order and less
those that were removed since, and no two registrations have the same number. -/

namespace TwinLink

namespace Roster

variable {κ : Type}

/-- One registration less: those before it and those behind it stay. -/
def Drops (id : Nat) (r r' : Roster κ) : Prop :=
  ∃ p l q, r.entries = p ++ (id, l) :: q ∧ r' = ⟨p ++ q⟩

/-- Where the keys are different, the others have other keys. -/
theorem exists_split_of_mem {α β : Type} {f : α → β} {xs : List α} {x : α} (h : (xs.map f).Nodup)
    (hx : x ∈ xs) : ∃ p q, xs = p ++ x :: q ∧ ∀ y ∈ p ++ q, f y ≠ f x := by
  obtain ⟨p, q, rfl⟩ := List.append_of_mem hx
  refine ⟨p, q, rfl, fun y hy heq => ?_⟩
  rw [List.map_append, List.map_cons] at h
  have hother : f x ∉ p.map f ++ q.map f := (List.nodup_cons.mp (List.nodup_middle.mp h)).1
  rw [← List.map_append, ← heq] at hother
  exact hother (List.mem_map_of_mem hy)

/-- No two registrations have the same number, so at most one is removed. -/
theorem drops_remove {id : Nat} {r : Roster κ} (hr : r.ids.Nodup) (hid : id ∈ r.ids) :
    Drops id r (r.remove id) := by
  obtain ⟨x, hx, rfl⟩ := List.mem_map.mp hid
  obtain ⟨p, q, hsplit, hother⟩ := exists_split_of_mem hr hx
  have hkept : (p ++ q).filter (·.1 ≠ x.1) = p ++ q :=
    List.filter_eq_self.mpr fun y hy => by simpa using hother y hy
  refine ⟨p, x.2, q, hsplit, ?_⟩
  rw [remove, hsplit, ← hkept]
  simp

end Roster

namespace Registry

variable {κ ε : Type}

/-! ### What the notes tell -/

/-- A registration that is made: the list, the number and the listener. -/
def Note.insertion : Note κ ε → Option (Nat × Nat × κ)
  | asked (.insert k l) (.number id) => some (k, id, l)
  | _ => none

def Note.removal : Note κ ε → Option (Nat × Nat)
  | removed k id => some (k, id)
  | _ => none

def insertions (t : List (Note κ ε)) : List (Nat × Nat × κ) := t.filterMap Note.insertion

/-- The numbers of all registrations. -/
def issued (t : List (Note κ ε)) : List Nat := (insertions t).map (·.2.1)

def removals (t : List (Note κ ε)) : List (Nat × Nat) := t.filterMap Note.removal

/-- The registrations with a list, in order and less those that are removed later. -/
def standing (k : Nat) : List (Note κ ε) → List (Nat × κ)
  | [] => []
  | n :: t =>
    (n.insertion.toList.filter fun x => x.1 = k ∧ (k, x.2.1) ∉ removals t).map Prod.snd ++
      standing k t

section Append

variable (t m : List (Note κ ε)) (k : Nat)

theorem insertions_append : insertions (t ++ m) = insertions t ++ insertions m :=
  List.filterMap_append

theorem issued_append : issued (t ++ m) = issued t ++ issued m := by
  rw [issued, insertions_append, List.map_append]
  rfl

theorem removals_append : removals (t ++ m) = removals t ++ removals m := List.filterMap_append

theorem standing_append : standing k (t ++ m) =
    ((standing k t).filter fun x => (k, x.1) ∉ removals m) ++ standing k m := by
  induction t with
  | nil => rfl
  | cons n t ih =>
    rw [List.cons_append, standing, ih, standing, List.filter_append, List.append_assoc,
      List.filter_map, List.filter_filter]
    congr 2
    refine List.filter_congr fun x _ => ?_
    simp [removals_append, and_comm, Bool.and_left_comm]

theorem standing_of_insertions_eq_nil (h : insertions t = []) : standing k t = [] := by
  induction t with
  | nil => rfl
  | cons n t ih =>
    obtain ⟨hn, ht⟩ := List.forall_mem_cons.mp (List.filterMap_eq_nil_iff.mp h)
    rw [standing, hn, ih (List.filterMap_eq_nil_iff.mpr ht)]
    rfl

/-- Each has been made, and in this order. -/
theorem standing_sublist : ((standing k t).map (k, ·)).Sublist (insertions t) := by
  induction t with
  | nil => exact List.Sublist.refl []
  | cons n t ih =>
    have hhead : ((n.insertion.toList.filter fun x => x.1 = k ∧ (k, x.2.1) ∉ removals t).map
        (k, ·.2)).Sublist n.insertion.toList := by
      rcases n.insertion with _ | ⟨k', x⟩
      · exact List.Sublist.refl []
      · by_cases hx : k' = k ∧ (k, x.1) ∉ removals t
        · simp [hx]
        · simp [hx]
    rw [standing, List.map_append, List.map_map]
    have hcons : insertions (n :: t) = n.insertion.toList ++ insertions t := by
      rw [insertions, List.filterMap_cons]
      rcases n.insertion with _ | x <;> rfl
    rw [hcons]
    exact hhead.append ih

theorem ids_standing_sublist : ((standing k t).map Prod.fst).Sublist (issued t) := by
  have h := (standing_sublist t k).map (·.2.1)
  rwa [List.map_map] at h

end Append

/-! ### Which lists there are -/

/-- The list that is made or given up. -/
def Note.list : Note κ ε → Option Nat
  | asked .create (.number k) => some k
  | asked (.discard k) .done => some k
  | _ => none

/-- A list that was made and has not been given up. -/
structure Open (k : Nat) (t : List (Note κ ε)) : Prop where
  made : .asked .create (.number k) ∈ t
  kept : .asked (.discard k) .done ∉ t

/-- What the notes tell about which lists there are. -/
structure Opened (g : Registry κ) (t : List (Note κ ε)) : Prop where
  isSome : ∀ k, (g.list? k).isSome = true ↔ Open k t
  below : ∀ n ∈ t, ∀ k, n.list = some k → k < g.lists.length

section Opened

variable {g g' : Registry κ} {t m : List (Note κ ε)} {k : Nat} {r : Roster κ}

theorem Opened.empty : Opened (.empty : Registry κ) ([] : List (Note κ ε)) where
  isSome _ := iff_of_false (by simp [list?, Registry.empty]) fun h => List.not_mem_nil h.made
  below _ h := by cases h

/-- Notes on other lists do not concern a list. -/
theorem open_append_iff (hm : ∀ n ∈ m, n.list ≠ some k) : Open k (t ++ m) ↔ Open k t := by
  have hother {n : Note κ ε} (hn : n.list = some k) : n ∈ t ++ m ↔ n ∈ t := by
    rw [List.mem_append, or_iff_left fun hmem => hm n hmem hn]
  exact ⟨fun h => ⟨(hother rfl).mp h.made, fun hd => h.kept ((hother rfl).mpr hd)⟩,
    fun h => ⟨(hother rfl).mpr h.made, fun hd => h.kept ((hother rfl).mp hd)⟩⟩

theorem isSome_setList (hk : g.list? k = some r) (r' : Roster κ) (k' : Nat) :
    ((g.setList k (some r')).list? k').isSome = (g.list? k').isSome := by
  by_cases hne : k = k'
  · subst hne
    rw [list?_setList_self hk, hk]
    rfl
  · rw [list?_setList_other g hne]

/-- Where no list is made or given up, the same lists are there. -/
theorem Opened.quiet (h : Opened g t) (hl : ∀ k, (g'.list? k).isSome = (g.list? k).isSome)
    (hlen : g.lists.length ≤ g'.lists.length) (hm : ∀ n ∈ m, n.list = none) :
    Opened g' (t ++ m) where
  isSome k := by
    rw [hl, open_append_iff fun n hn => by simp [hm n hn]]
    exact h.isSome k
  below n hn k hk := by
    rcases List.mem_append.mp hn with hn | hn
    · exact Nat.lt_of_lt_of_le (h.below n hn k hk) hlen
    · simp [hm n hn] at hk

/-- Nothing has been noted of the next list. -/
theorem Opened.not_mem (h : Opened g t) {n : Note κ ε} (hn : n.list = some g.lists.length) :
    n ∉ t :=
  fun hmem => Nat.lt_irrefl _ (h.below n hmem _ hn)

theorem list?_concat (g : Registry κ) (r : Roster κ) (k : Nat) :
    ({ g with lists := g.lists ++ [some r] } : Registry κ).list? k =
      if k = g.lists.length then some r else g.list? k := by
  rcases Nat.lt_trichotomy k g.lists.length with hlt | rfl | hgt
  · rw [if_neg (by omega), list?, List.getElem?_append_left hlt, list?]
  · simp [list?]
  · rw [if_neg (by omega), list?, list?, List.getElem?_eq_none (Nat.le_of_lt hgt),
      List.getElem?_eq_none (by rw [List.length_append]; exact hgt)]

theorem Opened.create (h : Opened g t) (r : Roster κ) :
    Opened { g with lists := g.lists ++ [some r] }
      (t ++ [.asked .create (.number g.lists.length)]) where
  isSome k := by
    rw [list?_concat]
    split
    · next hk =>
      subst hk
      refine iff_of_true rfl ⟨by simp, ?_⟩
      rw [List.mem_append, not_or]
      exact ⟨h.not_mem rfl, by simp⟩
    · next hk =>
      rw [open_append_iff (by simpa [Note.list] using Ne.symm hk)]
      exact h.isSome k
  below n hn k hk := by
    rw [List.length_append, List.length_singleton]
    rcases List.mem_append.mp hn with hn | hn
    · exact Nat.lt_succ_of_lt (h.below n hn k hk)
    · cases List.mem_singleton.mp hn
      cases hk
      exact Nat.lt_succ_self _

theorem Opened.discard (h : Opened g t) (hk : g.list? k = some r) :
    Opened (g.setList k none) (t ++ [.asked (.discard k) .done]) where
  isSome k' := by
    by_cases hne : k = k'
    · subst hne
      rw [list?_setList_self hk]
      exact iff_of_false (by simp) fun ho => ho.kept (by simp)
    · rw [list?_setList_other g hne, open_append_iff (by simpa [Note.list] using hne)]
      exact h.isSome k'
  below n hn k' hk' := by
    rw [setList, List.length_set]
    rcases List.mem_append.mp hn with hn | hn
    · exact h.below n hn k' hk'
    · cases List.mem_singleton.mp hn
      cases hk'
      exact lt_length_of_list? hk

end Opened

/-! ### The lists -/

/-- What the notes tell about the lists. -/
structure Listed (g : Registry κ) (t : List (Note κ ε)) : Prop where
  entries : ∀ k r, g.list? k = some r → r.entries = standing k t
  unopened : ∀ k, g.lists.length ≤ k → standing k t = []
  distinct : (issued t).Nodup
  below : ∀ id ∈ issued t, id < g.registrations

section Lists

variable {g g' : Registry κ} {t m : List (Note κ ε)} {k : Nat} {r : Roster κ}

theorem Listed.empty : Listed (.empty : Registry κ) ([] : List (Note κ ε)) where
  entries _ _ h := by cases h
  unopened _ _ := rfl
  distinct := List.nodup_nil
  below _ h := by cases h

theorem Listed.nodup (h : Listed g t) (hk : g.list? k = some r) : r.ids.Nodup := by
  rw [Roster.ids, h.entries k r hk]
  exact h.distinct.sublist (ids_standing_sublist t k)

/-- Where nothing is registered or removed, the lists that are there stay as they are. -/
theorem Listed.frame (h : Listed g t)
    (hl : ∀ k r, g'.list? k = some r → g.list? k = some r ∨ g.lists.length ≤ k ∧ r.entries = [])
    (hlen : g.lists.length ≤ g'.lists.length) (hr : g'.registrations = g.registrations)
    (hi : insertions m = []) (hm : removals m = []) : Listed g' (t ++ m) := by
  have hissued : issued (t ++ m) = issued t := by
    rw [issued_append, issued, issued, hi, List.map_nil, List.append_nil]
  have hstanding (k : Nat) : standing k (t ++ m) = standing k t := by
    rw [standing_append, standing_of_insertions_eq_nil m k hi, hm, List.append_nil]
    exact List.filter_eq_self.mpr fun x _ => by simp
  refine
    { entries := fun k r hk => ?_
      unopened := fun k hk => by rw [hstanding]; exact h.unopened k (by omega)
      distinct := by rw [hissued]; exact h.distinct
      below := by rw [hissued, hr]; exact h.below }
  rw [hstanding]
  rcases hl k r hk with hk | ⟨hk, hr⟩
  · exact h.entries k r hk
  · rw [hr, h.unopened k hk]

theorem Listed.quiet (h : Listed g t) (hi : insertions m = []) (hm : removals m = []) :
    Listed g (t ++ m) :=
  h.frame (fun _ _ => .inl) (Nat.le_refl _) rfl hi hm

/-- Where one list becomes what the notes tell, and they tell the same of the others. -/
theorem Listed.change (h : Listed g t) (hk : g.list? k = some r) {r' : Roster κ}
    (hlists : g'.lists = (g.setList k (some r')).lists) (hself : r'.entries = standing k (t ++ m))
    (hother : ∀ k', k ≠ k' → standing k' (t ++ m) = standing k' t)
    (hd : (issued (t ++ m)).Nodup) (hb : ∀ id ∈ issued (t ++ m), id < g'.registrations) :
    Listed g' (t ++ m) := by
  have hlist (k' : Nat) : g'.list? k' = (g.setList k (some r')).list? k' := by
    rw [list?, hlists]
    rfl
  refine
    { entries := fun k' r'' hk' => ?_
      unopened := fun k' hk' => ?_
      distinct := hd
      below := hb }
  · by_cases hne : k = k'
    · subst hne
      have hsame : some r' = some r'' :=
        (list?_setList_self hk _).symm.trans ((hlist k).symm.trans hk')
      rw [← Option.some.inj hsame]
      exact hself
    · rw [hother k' hne]
      exact h.entries k' r'' ((list?_setList_other g hne _).symm.trans ((hlist k').symm.trans hk'))
  · have hlen : g.lists.length ≤ k' := by simpa [hlists, setList] using hk'
    have hlt := lt_length_of_list? hk
    rw [hother k' (by omega), h.unopened k' hlen]

theorem Listed.insert (h : Listed g t) (hk : g.list? k = some r) (l : κ) :
    Listed { g.setList k (some (r.insert g.registrations l)) with
      registrations := g.registrations + 1 }
      (t ++ [.asked (.insert k l) (.number g.registrations)]) := by
  have hkept (k' : Nat) : ((standing k' t).filter fun x =>
      (k', x.1) ∉ removals [Note.asked (ε := ε) (.insert k l) (.number g.registrations)]) =
        standing k' t :=
    List.filter_eq_self.mpr fun x _ => by simp [removals, Note.removal]
  have hissued : issued (t ++ [.asked (.insert k l) (.number g.registrations)]) =
      issued t ++ [g.registrations] := issued_append _ _
  refine h.change hk rfl ?_ (fun k' hne => ?_) ?_ fun id hid => ?_
  · rw [standing_append, hkept, ← h.entries k r hk]
    simp [standing, Note.insertion, removals, Roster.insert]
  · rw [standing_append, hkept]
    simp [standing, Note.insertion, hne]
  · rw [hissued]
    refine List.nodup_append.mpr ⟨h.distinct, List.nodup_singleton _, fun a ha b hb => ?_⟩
    have := h.below a ha
    have := List.mem_singleton.mp hb
    omega
  · rw [hissued] at hid
    rcases List.mem_append.mp hid with hid | hid
    · exact Nat.lt_succ_of_lt (h.below id hid)
    · exact List.mem_singleton.mp hid ▸ Nat.lt_succ_self _

theorem Listed.remove (h : Listed g t) (hk : g.list? k = some r) (id : Nat) :
    Listed (g.setList k (some (r.remove id))) (t ++ [.removed k id]) := by
  have hissued : issued (t ++ [.removed k id]) = issued t :=
    (issued_append _ _).trans (List.append_nil _)
  have hstanding (k' : Nat) : standing k' (t ++ [.removed k id]) =
      (standing k' t).filter fun x => (k', x.1) ≠ (k, id) := by
    rw [standing_append]
    simp [standing, Note.insertion, removals, Note.removal]
  refine h.change hk rfl ?_ (fun k' hne => ?_) (hissued ▸ h.distinct) (hissued ▸ h.below)
  · rw [hstanding, ← h.entries k r hk]
    simp [Roster.remove]
  · rw [hstanding]
    refine List.filter_eq_self.mpr fun x _ => ?_
    simp [Ne.symm hne]

end Lists

end Registry

end TwinLink
