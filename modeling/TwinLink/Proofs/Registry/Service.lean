import TwinLink.Proofs.Registry.Emissions

/-! Listeners as they are served. A listener that is registered while an emission is under way
is called from the next emission on; one that is removed meanwhile is called once by it and by none
that begins then. An emission whose listeners return comes to its end, however they nest. -/

namespace TwinLink.Registry

open World (Each)

variable {κ ε γ τ : Type}

/-- What the notes of a run say about the calls of emissions. -/
structure Served (t : List (Note κ ε)) : Prop where
  begun : Each (fun before n => ∀ m id l e, n = .called m id l e → ∃ k, .emitted m k e ∈ before) t
  single : Each (fun before n => ∀ m k e, n = .emitted m k e → ∀ x ∈ before, x.emission ≠ some m) t
  /-- The calls so far are the first of those to the registrations that stand when it begins. -/
  calls : Each (fun before n => ∀ m k e, n = .emitted m k e → called m t <+: due k e before) t
  /-- When it is over they are all of them, and it has counted them. -/
  ended : Each (fun before n => ∀ m k e, n = .emitted m k e → ∀ c, .ended m c ∈ t →
    called m t = due k e before ∧ c = (called m t).length) t
  /-- Who is registered when it begins is called once, also when removed meanwhile. -/
  once : Each (fun before n => ∀ m k e, n = .emitted m k e → ∀ id l, (id, l) ∈ standing k before →
    ∀ c, .ended m c ∈ t → (called m t).filter (·.1 = id) = [(id, l, e)]) t
  /-- Who is registered later is not called by an emission that has begun. -/
  newcomer : Each (fun before n => ∀ k id l, n = .asked (.insert k l) (.number id) →
    ∀ m k' e, .emitted m k' e ∈ before → ∀ x ∈ called m t, x.1 ≠ id) t
  /-- It is called by the next to begin, and by each until it is removed. -/
  next : ∀ before k id l mid m e after,
    t = before ++ .asked (.insert k l) (.number id) :: mid ++ .emitted m k e :: after →
    .removed k id ∉ mid → ∀ c, .ended m c ∈ t → (called m t).filter (·.1 = id) = [(id, l, e)]
  /-- Who has been removed is called by none that begins then. -/
  leaver : ∀ before k id l mid m k' e after, .asked (.insert k l) (.number id) ∈ before →
    t = before ++ .removed k id :: mid ++ .emitted m k' e :: after → ∀ x ∈ called m t, x.1 ≠ id

section Served

variable {t p q before after : List (Note κ ε)} {k k' id : Nat} {l : κ} {e : ε}

theorem ids_due (k : Nat) (e : ε) (t : List (Note κ ε)) :
    (due k e t).map Prod.fst = (standing k t).map Prod.fst := by
  rw [due, List.map_map]
  rfl

theorem mem_issued_of_mem_due {x : Call κ ε} (hx : x ∈ due k e t) : x.1 ∈ issued t := by
  have hid : x.1 ∈ (standing k t).map Prod.fst := ids_due k e t ▸ List.mem_map_of_mem hx
  exact (ids_standing_sublist t k).subset hid

/-- A number is issued once. -/
theorem not_mem_issued (h : (issued (p ++ q)).Nodup) (hq : id ∈ issued q) : id ∉ issued p := by
  rw [issued_append] at h
  exact fun hp => (List.nodup_append.mp h).2.2 id hp id hq rfl

theorem mem_insertions (h : .asked (.insert k l) (.number id) ∈ t) :
    (k, id, l) ∈ insertions t :=
  List.mem_filterMap.mpr ⟨_, h, rfl⟩

theorem mem_issued (h : .asked (.insert k l) (.number id) ∈ t) : id ∈ issued t :=
  List.mem_map_of_mem (f := (·.2.1)) (mem_insertions h)

theorem filter_key {α β : Type} [DecidableEq β] {xs : List α} {f : α → β} {x : α}
    (h : (xs.map f).Nodup) (hx : x ∈ xs) : xs.filter (fun y => f y = f x) = [x] := by
  obtain ⟨p, q, rfl, hother⟩ := Roster.exists_split_of_mem h hx
  have hnone : (p ++ q).filter (fun y => f y = f x) = [] :=
    List.filter_eq_nil_iff.mpr fun y hy => by simpa using hother y hy
  rw [List.filter_append, List.append_eq_nil_iff] at hnone
  rw [List.filter_append, List.filter_cons_of_pos (by simp), hnone.1, hnone.2]
  rfl

theorem filter_due (h : (issued t).Nodup) (hx : (id, l) ∈ standing k t) (e : ε) :
    (due k e t).filter (·.1 = id) = [(id, l, e)] := by
  have hnodup : ((due k e t).map Prod.fst).Nodup := by
    rw [ids_due]
    exact h.sublist (ids_standing_sublist t k)
  have hmem : (id, l, e) ∈ due k e t := List.mem_map.mpr ⟨(id, l), hx, rfl⟩
  exact filter_key hnodup hmem

/-- A registration stands until it is removed. -/
theorem mem_standing_of_inserted (hq : .removed k id ∉ q) :
    (id, l) ∈ standing k (p ++ .asked (.insert k l) (.number id) :: q) := by
  have hnot : (k, id) ∉ removals q := by
    intro hmem
    obtain ⟨n, hn, heq⟩ := List.mem_filterMap.mp hmem
    cases n <;> simp_all [Note.removal]
  rw [standing_append, standing]
  simp [Note.insertion, hnot]

/-- A registration that has been removed does not stand any more, not with any other list either. -/
theorem not_mem_standing_of_removed (h : (issued (p ++ .removed k id :: q)).Nodup)
    (hp : .asked (.insert k l) (.number id) ∈ p) :
    id ∉ (standing k' (p ++ .removed k id :: q)).map Prod.fst := by
  intro hid
  obtain ⟨x, hx, rfl⟩ := List.mem_map.mp hid
  -- it was registered with one list only
  have hinserted : (k', x) ∈ insertions (p ++ .removed k x.1 :: q) :=
    (standing_sublist _ k').subset (List.mem_map_of_mem hx)
  have hsame : (k', x) = (k, x.1, l) :=
    List.inj_on_of_nodup_map h hinserted (mem_insertions (List.mem_append_left _ hp)) rfl
  obtain rfl : k' = k := (Prod.mk.inj hsame).1
  rw [standing_append] at hx
  rcases List.mem_append.mp hx with hx | hx
  · have hleft := (List.mem_filter.mp hx).2
    simp [removals, Note.removal] at hleft
  · have hissued : x.1 ∈ issued (.removed k' x.1 :: q) :=
      (ids_standing_sublist _ k').subset (List.mem_map_of_mem hx)
    exact not_mem_issued h hissued (mem_issued hp)

end Served

theorem Emitting.served {t : List (Note κ ε)} {a : List (Task κ ε γ)} {M : Nat}
    (h : Emitting t a M) (hd : (issued t).Nodup) : Served t := by
  -- whom an emission calls stands when it begins
  have hdue {before after : List (Note κ ε)} {m k : Nat} {e : ε}
      (hsplit : t = before ++ .emitted m k e :: after) : called m t <+: due k e before :=
    ⟨_, (h.course before _ after hsplit m k e rfl).calls⟩
  have hbefore {before after : List (Note κ ε)} {n : Note κ ε}
      (hsplit : t = before ++ n :: after) : (issued before).Nodup := by
    rw [hsplit, issued_append] at hd
    exact (List.nodup_append.mp hd).1
  have honce {before after : List (Note κ ε)} {m k : Nat} {e : ε} {id : Nat} {l : κ}
      (hsplit : t = before ++ .emitted m k e :: after) (hid : (id, l) ∈ standing k before) {c : Nat}
      (hc : .ended m c ∈ t) : (called m t).filter (·.1 = id) = [(id, l, e)] := by
    rw [((h.course before _ after hsplit m k e rfl).over hc).1]
    exact filter_due (hbefore hsplit) hid e
  refine
    { begun := h.begun
      single := h.single
      calls := ?_
      ended := ?_
      once := ?_
      newcomer := ?_
      next := fun before k id l mid m e after hsplit hmid c hc => ?_
      leaver := fun before k id l mid m k' e after hl hsplit x hx heq => ?_ }
  · rintro before _ after hsplit m k e rfl
    exact hdue hsplit
  · rintro before _ after hsplit m k e rfl c hc
    exact (h.course before _ after hsplit m k e rfl).over hc
  · rintro before _ after hsplit m k e rfl id l hid c hc
    exact honce hsplit hid hc
  · rintro before _ after hsplit k id l rfl m k' e hm x hx rfl
    obtain ⟨p, q, rfl⟩ := List.append_of_mem hm
    have hearlier : t = p ++ .emitted m k' e ::
        (q ++ .asked (.insert k l) (.number x.1) :: after) := by
      rw [hsplit, List.append_assoc, List.cons_append]
    refine not_mem_issued (hearlier ▸ hd) ?_ (mem_issued_of_mem_due ((hdue hearlier).subset hx))
    exact mem_issued (k := k) (l := l) (by simp)
  · exact honce hsplit (mem_standing_of_inserted hmid) hc
  · have hid := List.mem_map_of_mem (f := Prod.fst) ((hdue hsplit).subset hx)
    rw [ids_due, heq] at hid
    exact not_mem_standing_of_removed (hbefore hsplit) hl hid

/-! ### Runs -/

namespace Stage

variable {C : Client κ ε γ τ} {s : Stage κ ε γ τ}

/-- Each call that an emission makes is answered: the listener returns. -/
def Answered (C : Client κ ε γ τ) (m : Nat) (s : Stage κ ε γ τ) : Prop :=
  ∀ j id l e rest, (settle C j s).agenda = .call m id l e :: rest →
    ∃ i, (settle C (j + i) s).agenda = rest

theorem Answered.settle {m : Nat} (h : Answered C m s) (n : Nat) :
    Answered C m (settle C n s) := by
  intro j id l e rest hj
  rw [← settle_add] at hj
  obtain ⟨i, hi⟩ := h (n + j) id l e rest hj
  exact ⟨i, by rw [← settle_add, ← Nat.add_assoc]; exact hi⟩

/-- Whatever is done first leaves what is behind it as it is. -/
theorem agenda_step {task : Task κ ε γ} {rest : List (Task κ ε γ)} (hs : s.agenda = task :: rest)
    (C : Client κ ε γ τ) : ∃ first, (s.step C).agenda = first ++ rest := by
  rw [step_of_cons hs]
  cases task with
  | call | conclude => exact ⟨[_], rfl⟩
  | request q =>
    cases q with
    | own item => exact ⟨_, rfl⟩
    | ask op reply => exact ⟨[_], rfl⟩
    | emit k e reply =>
      rw [perform, request]
      cases s.registry.list? k with
      | none => exact ⟨[_], rfl⟩
      | some r => exact ⟨_, rfl⟩

/-- What stands behind the first tasks is all that is left at some time before the end: by induction
on the steps up to the end. -/
theorem exists_settle_agenda {n : Nat} {first rest : List (Task κ ε γ)}
    (hs : s.agenda = first ++ rest) (hn : (Stage.settle C n s).agenda = []) :
    ∃ i, (Stage.settle C i s).agenda = rest := by
  induction n generalizing s first with
  | zero =>
    have hnil : first ++ rest = [] := hs.symm.trans hn
    exact ⟨0, hs.trans (by simp_all)⟩
  | succ n ih =>
    cases first with
    | nil => exact ⟨0, hs⟩
    | cons task first =>
      obtain ⟨next, hnext⟩ := agenda_step hs C
      rw [settle_succ] at hn
      obtain ⟨i, hi⟩ := ih (hnext.trans (List.append_assoc next first rest).symm) hn
      exact ⟨i + 1, by rw [settle_succ]; exact hi⟩

theorem settle_of_nil (hs : s.agenda = []) (n : Nat) : Stage.settle C n s = s := by
  cases n with
  | zero => rfl
  | succ n => rw [Stage.settle, if_pos (List.isEmpty_iff.mpr hs)]

/-- In a run that comes to its end every listener returns. -/
theorem answered_of_idle {n : Nat} (hn : (Stage.settle C n s).agenda = []) (m : Nat) :
    Answered C m s := by
  intro j id l e rest hj
  have hidle : Stage.settle C n (Stage.settle C j s) = Stage.settle C n s := by
    rw [← settle_add, Nat.add_comm, settle_add, settle_of_nil hn]
  have hj : (Stage.settle C j s).agenda = [.call m id l e] ++ rest := hj
  obtain ⟨i, hi⟩ := exists_settle_agenda hj (hidle ▸ hn)
  exact ⟨i, by rw [settle_add]; exact hi⟩

/-- Where the listeners return, an emission gets through its calls: by induction on those that
are left. -/
theorem Answered.reaches {m : Nat} (h : Answered C m s) (xs : List (Nat × κ)) (e : ε)
    {tail : List (Task κ ε γ)}
    (hs : s.agenda = (xs.map fun x => .call m x.1 x.2 e) ++ tail) :
    ∃ j, (Stage.settle C j s).agenda = tail := by
  induction xs generalizing s with
  | nil => exact ⟨0, hs⟩
  | cons x xs ih =>
    obtain ⟨i, hi⟩ := h 0 x.1 x.2 e _ hs
    rw [Nat.zero_add] at hi
    obtain ⟨j, hj⟩ := ih (h.settle i) hi
    exact ⟨i + j, by rw [settle_add]; exact hj⟩

/-- The emission that begins next, to the registrations `r`, comes to its end. The answer to it, the
number of those it has called, is dealt with before all that was left; and it has called each of
`r`. -/
def Returns (C : Client κ ε γ τ) (s : Stage κ ε γ τ) (k : Nat) (r : Roster κ) (e : ε)
    (reply : Answer → γ) (rest : List (Task κ ε γ)) : Prop :=
  ∃ j during, (settle C j s).agenda = .request (.own (reply (.number r.size))) :: rest ∧
    (settle C j s).trace =
      s.trace ++ .emitted s.emissions k e :: (during ++ [.ended s.emissions r.size]) ∧
    called s.emissions during = r.entries.map fun x => (x.1, x.2, e)

theorem Serving.returns (h : s.Serving) {k : Nat} {e : ε} {reply : Answer → γ}
    {rest : List (Task κ ε γ)} {r : Roster κ}
    (hs : s.agenda = .request (.emit k e reply) :: rest) (hk : s.registry.list? k = some r)
    (hanswered : Answered C s.emissions s) : Returns C s k r e reply rest := by
  have hbegin : Stage.settle C 1 s = { s with agenda := rest }.emit k r e reply := by
    rw [settle_succ, settle_zero, step_of_cons hs, perform, request, hk]
    rfl
  have hagenda : (Stage.settle C 1 s).agenda =
      (r.entries.map fun x => .call s.emissions x.1 x.2 e) ++
        .conclude s.emissions r.size reply :: rest := by
    rw [hbegin, emit, calls, List.append_assoc]
    rfl
  obtain ⟨j, hj⟩ := (hanswered.settle 1).reaches r.entries e hagenda
  rw [← settle_add] at hj
  have hend := settle_last C (1 + j) s
  rw [step_of_cons hj] at hend
  -- what it has called it has called since it began
  obtain ⟨during, hduring⟩ := trace_settle C j (Stage.settle C 1 s)
  rw [← settle_add, hbegin, emit, List.append_assoc] at hduring
  have htrace : (Stage.settle C (1 + j + 1) s).trace =
      s.trace ++ .emitted s.emissions k e :: (during ++ [.ended s.emissions r.size]) := by
    rw [hend, perform, tell, ← hduring, List.append_assoc]
    rfl
  refine ⟨1 + j + 1, during, by rw [hend]; rfl, htrace, ?_⟩
  have hearlier : called s.emissions s.trace = [] := called_eq_nil fun n hn heq =>
    Nat.lt_irrefl _ (h.emitting.noted n hn _ heq)
  have hcourse := (h.settle C (1 + j + 1)).emitting.course s.trace _ _ htrace s.emissions k e rfl
  have hcalled := (hcourse.over (c := r.size) (by rw [htrace]; simp)).1
  rw [htrace, called_append, hearlier, List.nil_append, due,
    ← h.recorded.listed.entries k r hk] at hcalled
  rw [← hcalled]
  have hcut : called s.emissions (.emitted s.emissions k e ::
      (during ++ [.ended s.emissions r.size])) = called s.emissions (during ++ _) := rfl
  rw [hcut, called_append]
  exact (List.append_nil _).symm

end Stage

/-- What holds of the emissions in a run, at each of its stages. -/
structure Serves (C : Client κ ε γ τ) (s : Stage κ ε γ τ) : Prop where
  served : Served s.trace
  /-- An emission comes to its end if its listeners return. -/
  returns : ∀ k e reply rest r, s.agenda = .request (.emit k e reply) :: rest →
    s.registry.list? k = some r → Stage.Answered C s.emissions s →
    Stage.Returns C s k r e reply rest

/-- In every run, and whatever the listeners do when they are called, each emission calls those who
are registered when it begins, in order and once each, and returns their number. -/
theorem run_served (C : Client κ ε γ τ) (client : τ) (items : List (γ × Nat)) :
    Serves C (Stage.run C items (.start client)) := by
  have h : (Stage.run C items (.start client)).Serving := (Stage.serving_start client).run C items
  exact
    { served := h.emitting.served h.recorded.listed.distinct
      returns := fun _ _ _ _ _ hs hk hanswered => h.returns hs hk hanswered }

/-- The emission that calls a listener of the client `reentrant` and is held up by another one. -/
theorem run_served_reentrant :
    let s := Stage.run reentrant [(.begin, 9)] (.start false)
    s.agenda = [.request (.emit 0 () fun _ => .rest)] ∧ Stage.Answered reentrant 0 s ∧
      ∃ j during, (Stage.settle reentrant j s).trace =
          s.trace ++ .emitted 0 0 () :: (during ++ [.ended 0 2]) ∧
        called 0 during = [(0, true, ()), (1, true, ())] := by
  intro s
  have h := run_served reentrant false [(.begin, 9)]
  have hidle : (Stage.settle reentrant 27 s).agenda.isEmpty = true := by decide
  have hanswered : Stage.Answered reentrant 0 s :=
    Stage.answered_of_idle (List.isEmpty_iff.mp hidle) 0
  obtain ⟨j, during, -, htrace, hcalled⟩ := h.returns 0 () (fun _ => .rest) []
    ⟨[(0, true), (1, true)]⟩ rfl rfl hanswered
  exact ⟨rfl, hanswered, j, during, htrace, hcalled⟩

end TwinLink.Registry
