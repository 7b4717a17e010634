import TwinLink.Proofs.Registry.Ledger

/-! Emissions. An emission calls the listeners that are registered when it begins, in the order of
their registration and each of them once, whatever they do: they may register and remove listeners,
use handles, give lists up and emit again. -/

namespace TwinLink.Registry

open World (Each each_nil each_append each_append_of_forall each_append_one)

variable {κ ε γ τ : Type}

/-! ### What notes and tasks tell of an emission -/

/-- A call of a listener for a registration, with an event. -/
abbrev Call (κ ε : Type) := Nat × κ × ε

/-- A call that an emission makes. -/
def Note.call? (m : Nat) : Note κ ε → Option (Call κ ε)
  | called m' id l e => if m' = m then some (id, l, e) else none
  | _ => none

/-- The emission that a note is about. -/
def Note.emission : Note κ ε → Option Nat
  | emitted m _ _ | called m _ _ _ | ended m _ => some m
  | _ => none

/-- A call that an emission is to make. -/
def Task.call? (m : Nat) : Task κ ε γ → Option (Call κ ε)
  | call m' id l e => if m' = m then some (id, l, e) else none
  | _ => none

/-- The emission that a task belongs to. -/
def Task.emission : Task κ ε γ → Option Nat
  | call m _ _ _ | conclude m _ _ => some m
  | request _ => none

/-- The calls that an emission has made. -/
def called (m : Nat) (t : List (Note κ ε)) : List (Call κ ε) := t.filterMap (Note.call? m)

/-- The calls that an emission is still to make. -/
def waiting (m : Nat) (a : List (Task κ ε γ)) : List (Call κ ε) := a.filterMap (Task.call? m)

/-- The calls of an emission that begins after the notes `t`. -/
def due (k : Nat) (e : ε) (t : List (Note κ ε)) : List (Call κ ε) :=
  (standing k t).map fun x => (x.1, x.2, e)

/-- Behind the end of an emission no call of it waits. -/
def Task.Precedes (x y : Task κ ε γ) : Prop :=
  ∀ m c reply, x = .conclude m c reply → y.call? m = none

/-- How far an emission has come that is to make the calls `d`. -/
structure Course (m : Nat) (d : List (Call κ ε)) (t : List (Note κ ε)) (a : List (Task κ ε γ)) :
    Prop where
  calls : called m t ++ waiting m a = d
  ended : ∀ c, .ended m c ∈ t → waiting m a = [] ∧ c = d.length
  concluding : ∀ c reply, .conclude m c reply ∈ a → c = d.length

/-- What the notes tell about the emissions, of which there have been `M`, and about the tasks that
are left. -/
structure Emitting (t : List (Note κ ε)) (a : List (Task κ ε γ)) (M : Nat) : Prop where
  course : Each (fun before n => ∀ m k e, n = .emitted m k e → Course m (due k e before) t a) t
  ordered : a.Pairwise Task.Precedes
  noted : ∀ n ∈ t, ∀ m, n.emission = some m → m < M
  tasked : ∀ x ∈ a, ∀ m, x.emission = some m → m < M
  /-- An emission begins once. -/
  single : Each (fun before n => ∀ m k e, n = .emitted m k e → ∀ x ∈ before, x.emission ≠ some m) t
  /-- It calls nobody before. -/
  begun : Each (fun before n => ∀ m id l e, n = .called m id l e → ∃ k, .emitted m k e ∈ before) t
  summoned : ∀ m id l e, .call m id l e ∈ a → ∃ k, .emitted m k e ∈ t

theorem Course.over {m : Nat} {k : Nat} {e : ε} {before t : List (Note κ ε)}
    {a : List (Task κ ε γ)} (h : Course m (due k e before) t a) {c : Nat}
    (hc : .ended m c ∈ t) : called m t = due k e before ∧ c = (called m t).length := by
  obtain ⟨hnone, hlen⟩ := h.ended c hc
  have hcalls := h.calls
  rw [hnone, List.append_nil] at hcalls
  exact ⟨hcalls, by rw [hcalls, hlen]⟩

section Step

variable {t ns : List (Note κ ε)} {a rest : List (Task κ ε γ)} {M : Nat}

theorem called_append (m : Nat) (t ns : List (Note κ ε)) :
    called m (t ++ ns) = called m t ++ called m ns := List.filterMap_append

theorem waiting_append (m : Nat) (a b : List (Task κ ε γ)) :
    waiting m (a ++ b) = waiting m a ++ waiting m b := List.filterMap_append

@[simp] theorem waiting_requests (m : Nat) (rs : List (Request κ ε γ)) :
    waiting m (rs.map Task.request) = [] := by
  rw [waiting, List.filterMap_map, List.filterMap_eq_nil_iff]
  exact fun _ _ => rfl

theorem waiting_request (m : Nat) (r : Request κ ε γ) (a : List (Task κ ε γ)) :
    waiting m (.request r :: a) = waiting m a := rfl

/-- Notes that are not about an emission are not of its calls. -/
theorem called_eq_nil {m : Nat} (h : ∀ n ∈ t, n.emission ≠ some m) : called m t = [] := by
  refine List.filterMap_eq_nil_iff.mpr fun n hn => ?_
  have := h n hn
  cases n <;> simp_all [Note.call?, Note.emission]

theorem waiting_eq_nil {m : Nat} (h : ∀ x ∈ a, x.emission ≠ some m) : waiting m a = [] := by
  refine List.filterMap_eq_nil_iff.mpr fun x hx => ?_
  have := h x hx
  cases x <;> simp_all [Task.call?, Task.emission]

/-- Where no emission begins, each goes on by itself. -/
theorem Emitting.frame {x : Task κ ε γ} (h : Emitting t (x :: rest) M)
    (rs : List (Request κ ε γ)) (hns : ∀ n ∈ ns, ∀ m k e, n ≠ .emitted m k e)
    (hcourse : ∀ m d, Course m d t (x :: rest) → Course m d (t ++ ns) (rs.map .request ++ rest))
    (hnoted : ∀ n ∈ ns, ∀ m, n.emission = some m → x.emission = some m)
    (hcalled : ∀ n ∈ ns, ∀ m id l e, n = .called m id l e → x = .call m id l e) :
    Emitting (t ++ ns) (rs.map .request ++ rest) M where
  course := by
    refine each_append_of_forall (fun before n after hsplit m k e hn => ?_)
      fun n hn _ m k e heq => absurd heq (hns n hn m k e)
    exact hcourse m _ (h.course before n after hsplit m k e hn)
  ordered := by
    refine List.pairwise_append.mpr ⟨?_, (List.pairwise_cons.mp h.ordered).2, fun y hy z _ => ?_⟩
    · rw [List.pairwise_map]
      exact List.pairwise_of_forall fun _ _ _ _ _ heq => nomatch heq
    · obtain ⟨r, -, rfl⟩ := List.mem_map.mp hy
      exact fun _ _ _ heq => nomatch heq
  noted n hn m hm := by
    rcases List.mem_append.mp hn with hn | hn
    · exact h.noted n hn m hm
    · exact h.tasked x List.mem_cons_self m (hnoted n hn m hm)
  tasked y hy m hm := by
    rcases List.mem_append.mp hy with hy | hy
    · obtain ⟨r, -, rfl⟩ := List.mem_map.mp hy
      cases hm
    · exact h.tasked y (List.mem_cons_of_mem x hy) m hm
  single := each_append_of_forall h.single fun n hn _ m k e heq => absurd heq (hns n hn m k e)
  begun := by
    refine each_append h.begun fun before n after hsplit m id l e heq => ?_
    have hx := hcalled n (by simp [hsplit]) m id l e heq
    obtain ⟨k, hk⟩ := h.summoned m id l e (hx ▸ List.mem_cons_self)
    exact ⟨k, List.mem_append_left _ hk⟩
  summoned m id l e hy := by
    rcases List.mem_append.mp hy with hy | hy
    · simp at hy
    · obtain ⟨k, hk⟩ := h.summoned m id l e (List.mem_cons_of_mem x hy)
      exact ⟨k, List.mem_append_left _ hk⟩

/-- What the client does on its own, and what it asks of the lists, is not about any emission. -/
theorem Emitting.quiet {r : Request κ ε γ} (h : Emitting t (.request r :: rest) M)
    (rs : List (Request κ ε γ)) (hns : ∀ n ∈ ns, n.emission = none) :
    Emitting (t ++ ns) (rs.map .request ++ rest) M := by
  refine h.frame rs (fun n hn m k e heq => ?_) (fun m d hd => ?_) (fun n hn m hm => ?_)
    fun n hn m id l e heq => ?_
  · simpa [heq, Note.emission] using hns n hn
  · have hcalled : called m ns = [] := called_eq_nil fun n hn => by simp [hns n hn]
    have hwaiting : waiting m (rs.map .request ++ rest) = waiting m (.request r :: rest) := by
      rw [waiting_append, waiting_requests]
      rfl
    refine ⟨?_, fun c hc => ?_, fun c reply hc => ?_⟩
    · rw [called_append, hcalled, List.append_nil, hwaiting]
      exact hd.calls
    · rw [hwaiting]
      rcases List.mem_append.mp hc with hc | hc
      · exact hd.ended c hc
      · simpa [Note.emission] using hns _ hc
    · refine hd.concluding c reply (List.mem_cons_of_mem _ ?_)
      simpa using hc
  · simp [hns n hn] at hm
  · simpa [heq, Note.emission] using hns n hn

/-- A listener is called: the call was the next of its emission. -/
theorem Emitting.call {m id : Nat} {l : κ} {e : ε} (h : Emitting t (.call m id l e :: rest) M)
    (r : Request κ ε γ) : Emitting (t ++ [.called m id l e]) (.request r :: rest) M := by
  refine h.frame [r] (by simp) (fun m' d hd => ?_) (by simp [Note.emission, Task.emission])
    (by simp)
  have hmoved : called m' [.called m id l e] ++ waiting m' (.request r :: rest) =
      waiting m' (.call m id l e :: rest) := by
    rw [waiting_request]
    by_cases hm : m = m' <;> simp [called, waiting, Note.call?, Task.call?, hm]
  refine ⟨?_, fun c hc => ?_, fun c reply hc => ?_⟩
  · rw [called_append, List.append_assoc]
    exact (congrArg (called m' t ++ ·) hmoved).trans hd.calls
  · obtain ⟨hnone, hlen⟩ := hd.ended c (by simpa using hc)
    rw [← hmoved] at hnone
    exact ⟨(List.append_eq_nil_iff.mp hnone).2, hlen⟩
  · exact hd.concluding c reply (List.mem_cons_of_mem _ (by simpa using hc))

/-- An emission is over: none of its calls is left, for they stood before its end. -/
theorem Emitting.conclude {m c : Nat} {reply : Answer → γ}
    (h : Emitting t (.conclude m c reply :: rest) M) (r : Request κ ε γ) :
    Emitting (t ++ [.ended m c]) (.request r :: rest) M := by
  refine h.frame [r] (by simp) (fun m' d hd => ?_) (by simp [Note.emission, Task.emission])
    (by simp)
  have hsame : waiting m' ([r].map .request ++ rest) = waiting m' (.conclude m c reply :: rest) :=
    rfl
  refine ⟨?_, fun c' hc => ?_, fun c' reply' hc => ?_⟩
  · rw [called_append, hsame]
    exact (congrArg (· ++ _) (List.append_nil _)).trans hd.calls
  · rcases List.mem_append.mp hc with hc | hc
    · exact hd.ended c' hc
    · cases List.mem_singleton.mp hc
      refine ⟨List.filterMap_eq_nil_iff.mpr fun y hy => ?_, hd.concluding c reply (by simp)⟩
      rcases List.mem_cons.mp hy with rfl | hy
      · rfl
      · exact (List.pairwise_cons.mp h.ordered).1 y hy m c reply rfl
  · exact hd.concluding c' reply' (List.mem_cons_of_mem _ (by simpa using hc))

theorem waiting_entries (m m' : Nat) (xs : List (Nat × κ)) (e : ε) :
    waiting m' (xs.map fun x => (.call m x.1 x.2 e : Task κ ε γ)) =
      if m = m' then xs.map fun x => (x.1, x.2, e) else [] := by
  by_cases hm : m = m' <;> simp [waiting, List.filterMap_map, Function.comp_def, Task.call?, hm]

theorem waiting_calls (m m' : Nat) (r : Roster κ) (e : ε) (reply : Answer → γ) :
    waiting m' (Stage.calls m r e reply) =
      if m = m' then r.entries.map fun x => (x.1, x.2, e) else [] := by
  rw [Stage.calls, waiting_append, waiting_entries]
  exact List.append_nil _

theorem mem_calls {m : Nat} {r : Roster κ} {e : ε} {reply : Answer → γ} {x : Task κ ε γ} :
    x ∈ Stage.calls m r e reply ↔
      (∃ y ∈ r.entries, x = .call m y.1 y.2 e) ∨ x = .conclude m r.size reply := by
  simp [Stage.calls, eq_comm]

theorem emission_of_mem_calls {m : Nat} {r : Roster κ} {e : ε} {reply : Answer → γ}
    {x : Task κ ε γ} (hx : x ∈ Stage.calls m r e reply) : x.emission = some m := by
  rcases mem_calls.mp hx with ⟨y, -, rfl⟩ | rfl <;> rfl

/-- The end of an emission comes last, and behind it are no tasks of this emission. -/
theorem pairwise_calls {m : Nat} (r : Roster κ) (e : ε) (reply : Answer → γ)
    (ha : a.Pairwise Task.Precedes) (hm : ∀ x ∈ a, x.emission ≠ some m) :
    (Stage.calls m r e reply ++ a).Pairwise Task.Precedes := by
  have hcalls : (r.entries.map fun y => (.call m y.1 y.2 e : Task κ ε γ)).Pairwise
      Task.Precedes := by
    rw [List.pairwise_map]
    exact List.pairwise_of_forall fun _ _ _ _ _ heq => nomatch heq
  rw [Stage.calls, List.append_assoc]
  refine List.pairwise_append.mpr ⟨hcalls, ha.cons fun y hy => ?_, fun x hx y _ => ?_⟩
  · rintro m' c reply' ⟨⟩
    have hother := hm y hy
    cases y <;> simp_all [Task.call?, Task.emission]
  · obtain ⟨z, -, rfl⟩ := List.mem_map.mp hx
    exact fun _ _ _ heq => nomatch heq

theorem called_append_emitted (m M k : Nat) (e : ε) (t : List (Note κ ε)) :
    called m (t ++ [.emitted M k e]) = called m t :=
  (called_append m t _).trans (List.append_nil _)

/-- Another emission is put off. -/
theorem Course.put_off {m k : Nat} {d : List (Call κ ε)} {q : Request κ ε γ}
    (h : Course m d t (.request q :: rest)) (hne : M ≠ m) (r : Roster κ) (e : ε)
    (reply : Answer → γ) :
    Course m d (t ++ [.emitted M k e]) (Stage.calls M r e reply ++ rest) := by
  have hwaiting : waiting m (Stage.calls M r e reply ++ rest) =
      waiting m (.request q :: rest) := by
    rw [waiting_append, waiting_calls, if_neg hne, List.nil_append, waiting_request]
  refine ⟨?_, fun c hc => ?_, fun c reply' hc => ?_⟩
  · rw [called_append_emitted, hwaiting]
    exact h.calls
  · rw [hwaiting]
    exact h.ended c (by simpa using hc)
  · rcases List.mem_append.mp hc with hc | hc
    · exact absurd (Option.some.inj (emission_of_mem_calls hc)).symm hne
    · exact h.concluding c reply' (List.mem_cons_of_mem _ hc)

/-- An emission begins with all its calls to be made. -/
theorem course_begin {k : Nat} {r : Roster κ} (hr : r.entries = standing k t)
    (ht : ∀ n ∈ t, n.emission ≠ some M) (hrest : ∀ x ∈ rest, x.emission ≠ some M) (e : ε)
    (reply : Answer → γ) :
    Course M (due k e t) (t ++ [.emitted M k e]) (Stage.calls M r e reply ++ rest) := by
  refine ⟨?_, fun c hc => ?_, fun c reply' hc => ?_⟩
  · rw [called_append_emitted, called_eq_nil ht, waiting_append, waiting_calls, if_pos rfl,
      waiting_eq_nil hrest, hr]
    exact List.append_nil _
  · exact absurd rfl (ht _ (by simpa using hc))
  · rcases List.mem_append.mp hc with hc | hc
    · obtain ⟨y, -, heq⟩ | heq := mem_calls.mp hc <;> cases heq
      rw [due, List.length_map, ← hr]
      rfl
    · exact absurd rfl (hrest _ hc)

/-- An emission begins: its calls are those of the registrations that stand. The emissions under
way are put off. -/
theorem Emitting.emit {q : Request κ ε γ} (h : Emitting t (.request q :: rest) M) {k : Nat}
    {r : Roster κ} (hr : r.entries = standing k t) (e : ε) (reply : Answer → γ) :
    Emitting (t ++ [.emitted M k e]) (Stage.calls M r e reply ++ rest) (M + 1) := by
  -- no note and no task is about an emission with this number
  have hnoted : ∀ n ∈ t, n.emission ≠ some M := fun n hn heq =>
    Nat.lt_irrefl M (h.noted n hn M heq)
  have htasked : ∀ x ∈ rest, x.emission ≠ some M := fun x hx heq =>
    Nat.lt_irrefl M (h.tasked x (List.mem_cons_of_mem _ hx) M heq)
  refine
    { course := each_append_one (fun before n after hsplit m k' e' hn => ?_) ?_
      ordered := pairwise_calls r e reply (List.pairwise_cons.mp h.ordered).2 htasked
      noted := fun n hn m hm => ?_
      tasked := fun x hx m hm => ?_
      single := each_append_one h.single ?_
      begun := each_append_of_forall h.begun (by simp)
      summoned := fun m id l e' hx => ?_ }
  · have hne : M ≠ m := fun heq => hnoted n (by simp [hsplit]) (by rw [hn, heq]; rfl)
    exact (h.course before n after hsplit m k' e' hn).put_off hne r e reply
  · rintro m k' e' ⟨⟩
    exact course_begin hr hnoted htasked e reply
  · rcases List.mem_append.mp hn with hn | hn
    · exact Nat.lt_succ_of_lt (h.noted n hn m hm)
    · cases List.mem_singleton.mp hn
      cases hm
      exact Nat.lt_succ_self M
  · rcases List.mem_append.mp hx with hx | hx
    · cases (emission_of_mem_calls hx).symm.trans hm
      exact Nat.lt_succ_self M
    · exact Nat.lt_succ_of_lt (h.tasked x (List.mem_cons_of_mem _ hx) m hm)
  · rintro m k' e' ⟨⟩
    exact hnoted
  · rcases List.mem_append.mp hx with hx | hx
    · obtain ⟨y, -, heq⟩ | heq := mem_calls.mp hx <;> cases heq
      exact ⟨k, by simp⟩
    · obtain ⟨k', hk⟩ := h.summoned m id l e' (List.mem_cons_of_mem _ hx)
      exact ⟨k', List.mem_append_left _ hk⟩

/-- What the client is to do comes before all that is left. -/
theorem Emitting.request (h : Emitting t a M) (q : Request κ ε γ) :
    Emitting t (.request q :: a) M where
  course before n after hsplit m k e hn := by
    have hd := h.course before n after hsplit m k e hn
    refine ⟨hd.calls, hd.ended, fun c reply hc => hd.concluding c reply ?_⟩
    simpa using hc
  ordered := h.ordered.cons fun _ _ _ _ _ heq => nomatch heq
  noted := h.noted
  tasked x hx m hm := by
    rcases List.mem_cons.mp hx with rfl | hx
    · cases hm
    · exact h.tasked x hx m hm
  single := h.single
  begun := h.begun
  summoned m id l e hx := h.summoned m id l e (by simpa using hx)

end Step

/-! ### Runs -/

namespace Stage

variable {C : Client κ ε γ τ} {s : Stage κ ε γ τ}

/-- The notes tell what has come of the lists and how far the emissions are. -/
structure Serving (s : Stage κ ε γ τ) : Prop where
  recorded : s.Recorded
  emitting : Emitting s.trace s.agenda s.emissions

theorem serving_start (client : τ) : (start client : Stage κ ε γ τ).Serving where
  recorded := recorded_start client
  emitting :=
    { course := each_nil _
      ordered := .nil
      noted := fun _ hn => nomatch hn
      tasked := fun _ hx => nomatch hx
      single := each_nil _
      begun := each_nil _
      summoned := fun _ _ _ _ hx => nomatch hx }

theorem Serving.prompt (h : s.Serving) (item : γ) : (s.prompt item).Serving where
  recorded := h.recorded
  emitting := h.emitting.request _

theorem Serving.step (h : s.Serving) (C : Client κ ε γ τ) : (s.step C).Serving := by
  refine ⟨h.recorded.step C, ?_⟩
  cases hagenda : s.agenda with
  | nil => rw [step_of_nil hagenda]; exact h.emitting
  | cons task rest =>
    have he := h.emitting
    rw [hagenda] at he
    rw [step_of_cons hagenda]
    cases task with
    | call m id l e => exact he.call _
    | conclude m c reply => exact he.conclude _
    | request q =>
      cases q with
      | own item =>
        have hquiet : Emitting (s.trace ++ []) _ s.emissions :=
          he.quiet (C.perform item s.client).2 fun _ hn => nomatch hn
        rwa [List.append_nil] at hquiet
      | ask op reply =>
        refine he.quiet [.own (reply (s.registry.run op).answer)] fun n hn => ?_
        rcases List.mem_cons.mp hn with rfl | hn
        · rfl
        · obtain ⟨r, -, rfl⟩ := Option.map_eq_some_iff.mp (Option.mem_toList.mp hn)
          rfl
      | emit k e reply =>
        rw [perform, request]
        cases hk : s.registry.list? k with
        | none => exact he.quiet [.own (reply .missing)] fun _ hn => nomatch hn
        | some r => exact he.emit (h.recorded.listed.entries k r hk) e reply

theorem Serving.settle (h : s.Serving) (C : Client κ ε γ τ) (n : Nat) :
    (settle C n s).Serving := by
  induction n generalizing s with
  | zero => exact h
  | succ n ih => rw [settle_succ]; exact ih (h.step C)

theorem Serving.run (h : s.Serving) (C : Client κ ε γ τ) (items : List (γ × Nat)) :
    (run C items s).Serving := by
  induction items generalizing s with
  | nil => exact h
  | cons x items ih => exact ih ((h.prompt x.1).settle C x.2)

end Stage

end TwinLink.Registry
