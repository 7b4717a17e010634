import TwinLink.Proofs.Json.Printing
import TwinLink.Proofs.Snapshot.Schema

/-! The text of a snapshot. It is written as one object, first the members with a type of their own
as far as they are there, and then the sections. Read again, the members are sorted by their names;
as no section that was read has the name of a typed member, each goes back to where it came from.
What is read of a double need not be what was written, so that a snapshot comes back as it was if
it holds none. -/

namespace TwinLink.Snapshot

open Json (Piece Document Members Value WritesMember foldMembers keep)
open Json.Quoted (text?)

variable {s : Snapshot} {ms : List (List Piece × Document)} {name : String}

/-- No number in the snapshot is a double, its timestamp included. -/
structure Floatless (s : Snapshot) : Prop where
  timestamp : s.timestamp = none ∨ ∃ t, s.timestamp = some (.text t)
  sections : ∀ m ∈ s.sections, m.2.Floatless

section Read

/-- What every snapshot has that was read. -/
structure Sound (s : Snapshot) : Prop where
  tick : s.tick ≤ Json.Number.greatestNatural
  names : (Members.names s.sections).Nodup
  untyped : ∀ name ∈ Members.names s.sections, isTyped name = false
  sections : ∀ m ∈ s.sections, m.2.Floatless → m.2.Exact 126

theorem untyped_of_others (h : name ∈ Json.givenNames (others ms)) : isTyped name = false := by
  obtain ⟨m, hm, hname⟩ := List.mem_filterMap.mp h
  have hkept := (List.mem_filter.mp hm).2
  rw [hname] at hkept
  simpa using hkept

theorem Given.sound (h : Given ms s) : Sound s := by
  have hkept := Json.foldMembers_forall (P := fun v => v.Floatless → v.Exact 126) h.sections
    (fun m _ v hv => Json.exact_of_value? hv) (by simp) List.nodup_nil
  refine ⟨?_, hkept.2, fun name hname => ?_, hkept.1⟩
  · obtain ⟨e, -, hn⟩ := h.tick
    obtain ⟨l, -, hl⟩ := Document.value?_eq_natural.mp hn
    have hhigh := (Json.Numeral.number?_bounds hl).2
    rwa [Int.ofNat_eq_natCast, Int.ofNat_le] at hhigh
  · rw [Json.names_kept h.sections, List.mem_eraseDups] at hname
    exact untyped_of_others hname

end Read

section Written

/-- The members with a type of their own, as they are written. -/
def header (s : Snapshot) : Members :=
  [("tick", .number (.integer s.tick))] ++
    s.timestamp.toList.map (fun t => ("timestamp", t.toValue)) ++
    s.status.toList.map (fun t => ("status", .string t))

theorem toValue_eq (s : Snapshot) : s.toValue = .object (s.header ++ s.sections) := rfl

/-- The values of typed members are those in the header. -/
theorem filter_members (h : Sound s) (hname : isTyped name = true) :
    ((s.header ++ s.sections).filter (·.1 = name)).map Prod.snd =
      (s.header.filter (·.1 = name)).map Prod.snd := by
  have hsections : s.sections.filter (·.1 = name) = [] := by
    refine List.filter_eq_nil_iff.mpr fun m hm heq => ?_
    rw [decide_eq_true_eq] at heq
    have huntyped := h.untyped m.1 (List.mem_map_of_mem hm)
    rw [heq, hname] at huntyped
    cases huntyped
  rw [List.filter_append, hsections, List.append_nil]

theorem header_tick (s : Snapshot) :
    (s.header.filter (·.1 = "tick")).map Prod.snd = [.number (.integer s.tick)] := by
  cases ht : s.timestamp <;> cases hs : s.status <;> simp [header, ht, hs]

theorem header_timestamp (s : Snapshot) : (s.header.filter (·.1 = "timestamp")).map Prod.snd =
    s.timestamp.toList.map Timestamp.toValue := by
  cases ht : s.timestamp <;> cases hs : s.status <;> simp [header, ht, hs]

theorem header_status (s : Snapshot) : (s.header.filter (·.1 = "status")).map Prod.snd =
    s.status.toList.map Value.string := by
  cases ht : s.timestamp <;> cases hs : s.status <;> simp [header, ht, hs]

/-- Behind the header stand the sections. -/
theorem filter_untyped (h : Sound s) :
    (s.header ++ s.sections).filter (fun m => !isTyped m.1) = s.sections := by
  have hheader : s.header.filter (fun m => !isTyped m.1) = [] := by
    cases ht : s.timestamp <;> cases hs : s.status <;> simp [header, ht, hs, isTyped]
  have hsections : s.sections.filter (fun m => !isTyped m.1) = s.sections := by
    refine List.filter_eq_self.mpr fun m hm => ?_
    rw [h.untyped m.1 (List.mem_map_of_mem hm)]
    rfl
  rw [List.filter_append, hheader, hsections, List.nil_append]

/-- A value that takes one slot. -/
theorem slot_written {α : Type} {pick : Value → Option α} {put : α → Value} {a : Option α}
    {es : List Document} (h : List.Forall₂
      (fun v d => ∀ depth, v.Exact depth → d.value? depth = some v) (a.toList.map put) es)
    (hput : ∀ x ∈ a, (put x).Exact 126 ∧ (put x).optional? pick = some (some x)) :
    es = [] ∧ a = none ∨
      ∃ e, es = [e] ∧ (e.value? 126).bind (Value.optional? pick) = some a := by
  cases a with
  | none =>
    cases h
    exact .inl ⟨rfl, rfl⟩
  | some x =>
    obtain ⟨hexact, hpick⟩ := hput x rfl
    rcases h with _ | ⟨he, _ | _⟩
    refine .inr ⟨_, rfl, ?_⟩
    rw [he 126 hexact, Option.bind_some, hpick]

theorem Sound.given (h : Sound s) (hf : Floatless s)
    (hms : List.Forall₂ WritesMember (s.header ++ s.sections) ms) : Given ms s where
  tick := by
    have hunder := Json.under_written hms "tick"
    rw [filter_members h rfl, header_tick, List.forall₂_cons_left_iff] at hunder
    obtain ⟨e, es, he, hes, hunder⟩ := hunder
    rw [List.forall₂_nil_left_iff.mp hes] at hunder
    have hlow : Json.Number.leastInteger ≤ s.tick := by
      simp only [Json.Number.leastInteger]
      omega
    have hvalue := he 126 (Value.exact_integer hlow (Int.ofNat_le.mpr h.tick))
    exact ⟨e, hunder, by rw [tick?, hvalue]; rfl⟩
  timestamp := by
    have hunder := Json.under_written hms "timestamp"
    rw [filter_members h rfl, header_timestamp] at hunder
    refine slot_written hunder fun t ht => ?_
    obtain hnone | ⟨x, hx⟩ := hf.timestamp
    · rw [hnone] at ht
      cases ht
    · rw [hx] at ht
      cases ht
      exact ⟨Value.exact_string x, rfl⟩
  status := by
    have hunder := Json.under_written hms "status"
    rw [filter_members h rfl, header_status] at hunder
    exact slot_written hunder fun x _ => ⟨Value.exact_string x, rfl⟩
  sections := by
    have hothers : List.Forall₂ WritesMember
        ((s.header ++ s.sections).filter fun m => !isTyped m.1) (others ms) :=
      List.rel_filter (fun m q hm => by simp only [hm.name, Option.any_some]) hms
    rw [filter_untyped h] at hothers
    exact @Json.foldMembers_written _ _ _ hothers
      (fun m hm => h.sections m hm (hf.sections m hm)) [] h.names

theorem decode_text (h : Sound s) (hf : Floatless s) : decode s.text = .ok s := by
  obtain ⟨ms, hms⟩ := Json.exists_writes_members fun m (_ : m ∈ s.header ++ s.sections) =>
    Json.exists_writes m.2
  refine decode_eq_ok.mpr ⟨ms, ?_, h.given hf hms⟩
  rw [text, toValue_eq]
  exact Json.fills_text (Json.writes_object hms).spells

end Written

/-- A snapshot that was read is read again from its own text, its sections in their order, if it
holds no double. No section has the name of a typed member. -/
theorem decode_round_trip {text : String} (h : decode text = .ok s) :
    (s.Floatless → decode s.text = .ok s) ∧
      ∀ name ∈ Members.names s.sections,
        name ≠ "tick" ∧ name ≠ "timestamp" ∧ name ≠ "status" := by
  obtain ⟨ms, -, hgiven⟩ := decode_eq_ok.mp h
  have hsound := hgiven.sound
  refine ⟨fun hf => decode_text hsound hf, fun name hname => ?_⟩
  have huntyped := hsound.untyped name hname
  simpa [isTyped, and_assoc] using huntyped

section Running

def runningText : String :=
  "\x7b\"b\":1,\"st\\u0061tus\":\"RUN\",\"a\":[-9, \"\\u0022\"],\"tick\":7,\"b\":\x7b\"tick\":null\x7d\x7d"

/-- The section `b` has its first place and its last value. -/
def running : Snapshot :=
  ⟨7, none, some "RUN",
    [("b", .object [("tick", .null)]), ("a", .array [.number (.integer (-9)), .string "\""])]⟩

theorem floatless_running : running.Floatless where
  timestamp := .inl rfl
  sections m hm x hx := by
    simp only [running, List.mem_cons, List.not_mem_nil, or_false] at hm
    rcases hm with rfl | rfl
    · cases hx with
      | member hm hx =>
        rw [List.mem_singleton] at hm
        subst hm
        cases hx
    · cases hx with
      | item hv hx =>
        simp only [List.mem_cons, List.not_mem_nil, or_false] at hv
        rcases hv with rfl | rfl <;> cases hx

theorem decode_round_trip_running :
    decode runningText = .ok running ∧ running.Floatless ∧ decode running.text = .ok running ∧
      "b" ∈ Members.names running.sections ∧
      "b" ≠ "tick" ∧ "b" ≠ "timestamp" ∧ "b" ≠ "status" := by
  have hdecode : decode runningText = .ok running := rfl
  obtain ⟨hback, huntyped⟩ := decode_round_trip hdecode
  have hname : "b" ∈ Members.names running.sections := List.mem_cons_self ..
  exact ⟨hdecode, floatless_running, hback floatless_running, hname, huntyped "b" hname⟩

end Running

end TwinLink.Snapshot
