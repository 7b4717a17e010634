import TwinLink.Proofs.World.Step

/-! The moments of a run. Each label acts in a state, and what it adds to the trace is told
together with that state, so that a law can speak of what was the case when something
happened. Main statement: what holds at first and is kept from moment to moment holds of the
whole history and of the state in which it ends. -/

namespace TwinLink.World

open Socket

variable {σ ι ε : Type} (C : Consumer σ ι ε)

/-- The labels of a run with the states in which they act. -/
def moments : List (Label ι) → World σ ι ε → List (World σ ι ε × Label ι)
  | [], _ => []
  | l :: labels, w => (w, l) :: moments labels (act C w l)

/-- What a run adds to the trace, each entry with the state in which it came about. -/
def history (labels : List (Label ι)) (w : World σ ι ε) : List (World σ ι ε × Entry ε) :=
  (moments C labels w).flatMap fun (v, l) => (news C l v).map (v, ·)

/-- What happens on a socket in a run. -/
def happenings (k : ChannelKind) (labels : List (Label ι)) (w : World σ ι ε) : List Happening :=
  (history C labels w).filterMap fun (_, e) => e.happening? k

/-- The sessions of a channel that are begun (`true`) and ended for good (`false`), in order.
Opening a channel that is connecting or open begins none. -/
def sessionsOf (k : ChannelKind) (ms : List (World σ ι ε × Label ι)) : List Bool :=
  ms.filterMap fun (v, l) => v.session? k l

/-- The sessions of a channel in a run. -/
def sessions (k : ChannelKind) (labels : List (Label ι)) (w : World σ ι ε) : List Bool :=
  sessionsOf k (moments C labels w)

theorem sessionsOf_append (k : ChannelKind) (ms ns : List (World σ ι ε × Label ι)) :
    sessionsOf k (ms ++ ns) = sessionsOf k ms ++ sessionsOf k ns := List.filterMap_append

theorem sessionsOf_one (k : ChannelKind) (w : World σ ι ε) (l : Label ι) :
    sessionsOf k [(w, l)] = (w.session? k l).toList := by
  cases hs : w.session? k l <;> simp [sessionsOf, hs]

theorem history_cons (l : Label ι) (labels : List (Label ι)) (w : World σ ι ε) :
    history C (l :: labels) w = (news C l w).map (w, ·) ++ history C labels (act C w l) := rfl

/-- What is read off the news of one label has the state in which it acts. -/
theorem filterMap_news {α β : Type} (f : Entry ε → Option α) (g : World σ ι ε → α → β)
    (w : World σ ι ε) (es : List (Entry ε)) :
    (es.map (w, ·)).filterMap (fun (v, e) => (f e).map (g v)) = (es.filterMap f).map (g w) := by
  rw [List.filterMap_map, List.map_filterMap]
  rfl

/-- What is kept from moment to moment, a run keeps. -/
theorem moments_invariant {P : List (World σ ι ε × Label ι) → World σ ι ε → Prop}
    (labels : List (Label ι))
    (step : ∀ past w, ∀ l ∈ labels, P past w → P (past ++ [(w, l)]) (act C w l))
    (past : List (World σ ι ε × Label ι)) (w : World σ ι ε) (h : P past w) :
    P (past ++ moments C labels w) (run C labels w) := by
  induction labels generalizing past w with
  | nil =>
    rw [moments, List.append_nil]
    exact h
  | cons l labels ih =>
    have hl := step past w l List.mem_cons_self h
    have := ih (fun past w l hl => step past w l (List.mem_cons_of_mem _ hl)) _ _ hl
    rwa [List.append_assoc] at this

/-- What happens on a socket at some moments. -/
def happeningsOf (k : ChannelKind) (ms : List (World σ ι ε × Label ι)) : List Happening :=
  (ms.flatMap fun (v, l) => (news C l v).map (v, ·)).filterMap fun (_, e) => e.happening? k

theorem happeningsOf_append_one {k : ChannelKind} {w : World σ ι ε} {l : Label ι}
    {b : Option Bool} {m : Move} (hm : Shifted w (act C w l) (news C l w) k b m)
    (past : List (World σ ι ε × Label ι)) :
    happeningsOf C k (past ++ [(w, l)]) = happeningsOf C k past ++ m.seen := by
  have hseen :
      ((news C l w).map (w, ·)).filterMap (fun (_, e) => Entry.happening? k e) = m.seen := by
    rw [List.filterMap_map]
    exact hm.seen
  rw [happeningsOf, List.flatMap_append, List.filterMap_append, happeningsOf,
    List.flatMap_singleton, hseen]

/-- What every shift keeps, given what has happened, a run keeps. -/
theorem happenings_invariant {P : List Happening → Socket → Prop}
    (step : ∀ seen s b m, Shift s b m → P seen s → P (seen ++ m.seen) m.socket)
    (k : ChannelKind) (labels : List (Label ι)) (w : World σ ι ε) (h : P [] (w.socket k)) :
    P (happenings C k labels w) ((run C labels w).socket k) := by
  refine moments_invariant C (P := fun past w => P (happeningsOf C k past) (w.socket k)) labels
    (fun past w l _ h => ?_) [] w h
  obtain ⟨m, hm⟩ := (act_acted C w l).exists_shifted k
  rw [happeningsOf_append_one C hm, hm.socket]
  exact step _ _ _ _ hm.shift h

/-- Each entry of a history, with what came before it. -/
def Each {α : Type} (Q : List α → α → Prop) (l : List α) : Prop :=
  ∀ before x after, l = before ++ x :: after → Q before x

theorem each_nil {α : Type} (Q : List α → α → Prop) : Each Q [] := by
  intro before x after h
  simp at h

theorem each_append {α : Type} {Q : List α → α → Prop} {l m : List α} (hl : Each Q l)
    (hm : ∀ before x after, m = before ++ x :: after → Q (l ++ before) x) : Each Q (l ++ m) := by
  intro before x after h
  rcases List.append_eq_append_iff.mp h with ⟨rest, rfl, hr⟩ | ⟨rest, hl', hr⟩
  · exact hm rest x after hr
  · cases rest with
    | nil =>
      rw [List.append_nil] at hl'
      have := hm [] x after (by simpa using hr.symm)
      rwa [List.append_nil, hl'] at this
    | cons y rest =>
      obtain ⟨rfl, -⟩ := List.cons.inj hr
      exact hl before x rest hl'

/-- Nothing that is required of the entries that are added. -/
theorem each_append_of_forall {α : Type} {Q : List α → α → Prop} {l m : List α} (hl : Each Q l)
    (hm : ∀ x ∈ m, ∀ before, Q before x) : Each Q (l ++ m) :=
  each_append hl fun before x after h => hm x (by simp [h]) _

theorem each_append_one {α : Type} {Q : List α → α → Prop} {l : List α} {x : α} (hl : Each Q l)
    (hx : Q l x) : Each Q (l ++ [x]) := by
  refine each_append hl fun before y after hsplit => ?_
  cases before with
  | nil =>
    obtain ⟨rfl, -⟩ := List.cons.inj hsplit
    rwa [List.append_nil]
  | cons z before => simp at hsplit

end TwinLink.World
