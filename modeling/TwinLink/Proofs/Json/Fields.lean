import Mathlib.Data.List.Induction
import TwinLink.Proofs.Json.Typed

/-! Members of an object that are known by name. A known member fills a slot and may come once;
what a reader of objects makes of all members together falls apart into what each slot makes of
the members under its name, in whatever order they come. -/

namespace TwinLink.Json

section Takes

variable {α β : Type} {item : Read α} {meaning? : Document → Option α}

theorem Reads.member (hr : Reads item meaning?) (put : α → β) :
    Takes (fun s => (Json.member item s).map fun r => (put r.1, r.2))
      (fun d => (meaning? d).map put) := by
  refine cast (congrArg (Takes · _) (funext fun s => ?_)) (hr.takes put)
  cases hc : colon s with
  | error => simp [Json.member, hc, bind, Except.bind, Except.map]
  | ok s₁ =>
    cases hi : item s₁ <;> simp [Json.member, hc, hi, bind, Except.bind, Except.map]

theorem takes_error {fault : Fault} :
    Takes (fun _ => .error fault) (fun _ => (none : Option α)) where
  sound h := by cases h
  complete _ _ _ h := by cases h

/-- A member that nobody wants is passed over, whatever it is. -/
theorem takes_skipped (a : α) : Takes (fun s => do
    let s ← Skip.value (← colon s)
    .ok (a, s)) (fun _ => some a) where
  sound h := by
    simp only [bind_eq_ok, Except.ok.injEq, Prod.mk.injEq] at h
    obtain ⟨s₁, hcolon, s₂, hs, rfl, rfl⟩ := h
    obtain ⟨d, hd⟩ := (Skip.sound _).value _ _ hs
    exact ⟨d, s₁, colon_eq_ok.mp hcolon, hd, rfl⟩
  complete hcolon hd ht ha := by
    cases ha
    simp only [bind_eq_ok]
    exact ⟨_, colon_eq_ok.mpr hcolon, _, (Skip.value_eq_ok ht).mpr ⟨_, hd⟩, rfl⟩

end Takes

section Slots

variable {α : Type} {meaning? : Document → Option α} {slot slot' : Option α} {d : Document}
  {ds : List Document} {name : String} {ps : List Piece} {ms : List (List Piece × Document)}

theorem under_cons {other : String} (h : Quoted.text? ps = some other) :
    Document.under name ((ps, d) :: ms) =
      (if other = name then [d] else []) ++ Document.under name ms := by
  by_cases hne : other = name <;> simp [Document.under, h, hne]

/-- Puts what the documents mean into a slot, which takes one. -/
def once? (meaning? : Document → Option α) : Option α → List Document → Option (Option α)
  | slot, [] => some slot
  | none, d :: ds => (meaning? d).bind fun a => once? meaning? (some a) ds
  | some _, _ :: _ => none

theorem once?_append {es : List Document} : once? meaning? slot (ds ++ es) = some slot' ↔
    ∃ mid, once? meaning? slot ds = some mid ∧ once? meaning? mid es = some slot' := by
  induction ds generalizing slot with
  | nil => simp [once?]
  | cons d ds ih =>
    cases slot with
    | none => cases h : meaning? d <;> simp [once?, h, ih]
    | some a => simp [once?]

/-- An empty slot stays empty or takes the only document. -/
theorem once?_empty : once? meaning? none ds = some slot ↔
    ds = [] ∧ slot = none ∨ ∃ d a, ds = [d] ∧ meaning? d = some a ∧ slot = some a := by
  rcases ds with _ | ⟨d, _ | ⟨e, ds⟩⟩
  · simp [once?, eq_comm]
  · cases h : meaning? d <;> simp [once?, h, eq_comm]
  · cases h : meaning? d <;> simp [once?, h]

/-- A known member is refused if its slot is taken. -/
theorem Reads.once {β : Type} {item : Read α} (hr : Reads item meaning?) (slot : Option α)
    (fault : Fault) (put : Option α → β) :
    Takes (fun s => if slot.isSome then .error fault
        else (Json.member item s).map fun r => (put (some r.1), r.2))
      (fun d => (once? meaning? slot [d]).map put) := by
  cases slot with
  | none =>
    have hm := hr.member fun a => put (some a)
    refine cast (congrArg (Takes _) (funext fun d => ?_)) hm
    cases h : meaning? d <;> simp [once?, h]
  | some a => exact takes_error

end Slots

section Kept

variable {depth : Nat} {ms : List (List Piece × Document)} {acc out : Members} {name : String}

theorem names_insert {v : Value} : Members.names (Members.insert name v acc) =
    if name ∈ Members.names acc then Members.names acc else Members.names acc ++ [name] := by
  induction acc with
  | nil => rfl
  | cons m acc ih =>
    by_cases h : m.1 = name
    · simp [Members.insert, Members.names, h]
    · simp only [Members.names] at ih
      simp only [Members.insert, Members.names, h, if_false, List.map_cons, ih, List.mem_cons,
        Ne.symm h, false_or]
      by_cases hmem : name ∈ acc.map Prod.fst <;>
        simp only [hmem, if_true, if_false, List.cons_append]

/-- Keeps a value under its name. -/
abbrev keep (depth : Nat) (acc : Members) (name : String) (d : Document) : Option Members :=
  (d.value? depth).map (Members.insert name · acc)

theorem foldMembers_append {σ : Type} {step : σ → String → Document → Option σ} {a b : σ}
    {ns : List (List Piece × Document)} : foldMembers step a (ms ++ ns) = some b ↔
      ∃ mid, foldMembers step a ms = some mid ∧ foldMembers step mid ns = some b := by
  simp only [foldMembers, List.foldlM_append, Option.bind_eq_bind, Option.bind_eq_some_iff]

theorem foldMembers_concat {ps : List Piece} {d : Document} :
    foldMembers (keep depth) acc (ms ++ [(ps, d)]) = some out ↔ ∃ mid name v,
      foldMembers (keep depth) acc ms = some mid ∧ Quoted.text? ps = some name ∧
        d.value? depth = some v ∧ out = Members.insert name v mid := by
  rw [foldMembers_append]
  constructor
  · rintro ⟨mid, hmid, h⟩
    obtain ⟨name, out', hname, hstep, h⟩ := foldMembers_cons.mp h
    obtain ⟨v, hv, rfl⟩ := Option.map_eq_some_iff.mp hstep
    cases h
    exact ⟨mid, name, v, hmid, hname, hv, rfl⟩
  · rintro ⟨mid, name, v, hmid, hname, hv, rfl⟩
    exact ⟨mid, hmid, foldMembers_cons.mpr ⟨name, _, hname, by rw [keep, hv]; rfl, rfl⟩⟩

/-- The names of members, in order and with repetitions. -/
def givenNames (ms : List (List Piece × Document)) : List String :=
  ms.filterMap fun m => Quoted.text? m.1

theorem eraseDups_concat {names : List String} : (names ++ [name]).eraseDups =
    if name ∈ names then names.eraseDups else names.eraseDups ++ [name] := by
  rw [List.eraseDups_append]
  by_cases h : name ∈ names <;> simp [List.removeAll, h, List.eraseDups_cons]

/-- The names of what is kept stand where they came first. -/
theorem names_kept (h : foldMembers (keep depth) [] ms = some out) :
    Members.names out = (givenNames ms).eraseDups := by
  induction ms using List.reverseRecOn generalizing out with
  | nil =>
    cases h
    rfl
  | append_singleton ms m ih =>
    obtain ⟨ps, d⟩ := m
    obtain ⟨mid, name, v, hmid, hname, -, rfl⟩ := foldMembers_concat.mp h
    have hgiven : givenNames (ms ++ [(ps, d)]) = givenNames ms ++ [name] := by
      simp [givenNames, hname]
    rw [names_insert, hgiven, eraseDups_concat, ih hmid]
    simp only [List.mem_eraseDups]

/-- Under each name stands what came last. -/
theorem find?_kept (h : foldMembers (keep depth) [] ms = some out) (name : String) :
    Members.find? name out = (Document.under name ms).getLast?.bind (Document.value? depth) := by
  induction ms using List.reverseRecOn generalizing out with
  | nil =>
    cases h
    rfl
  | append_singleton ms m ih =>
    obtain ⟨ps, d⟩ := m
    obtain ⟨mid, other, v, hmid, hother, hv, rfl⟩ := foldMembers_concat.mp h
    have hunder : Document.under name (ms ++ [(ps, d)]) =
        Document.under name ms ++ if other = name then [d] else [] := by
      by_cases h : other = name <;> simp [Document.under, hother, h]
    rw [hunder]
    by_cases h : other = name
    · subst h
      rw [if_pos rfl, List.getLast?_concat, Option.bind_some, hv, Members.find?_insert_self]
    · rw [if_neg h, List.append_nil, Members.find?_insert_of_ne (Ne.symm h), ih hmid]

end Kept

end TwinLink.Json
