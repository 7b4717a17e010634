import TwinLink.Manager.Channels
import TwinLink.Proofs.Json.Fields
import TwinLink.Proofs.Json.Integers
import TwinLink.Proofs.Json.Unambiguity

/-! The schema of snapshots. Of a document within the limits of the reader three members are asked
for: `tick` has to be there once, `timestamp` and `status` may be there once, and each has to be of
its kind. Whatever the order, all other members are kept as sections, and none is lost but those
that a later one of the same name replaces. -/

namespace TwinLink

open Json (Piece Document Members foldMembers once? keep Picks Handles Reads Value)
open Json.Quoted (text?)

variable {depth : Nat} {ms : List (List Piece × Document)}

theorem Timestamp.read_picks : Picks depth (Timestamp.read depth) Timestamp.ofValue? := by
  intro s a t
  simp only [Timestamp.read, Json.bind_eq_ok, Prod.exists]
  constructor
  · rintro ⟨v, u, hv, h⟩
    split at h
    · next ha =>
      cases h
      exact ⟨v, hv, ha⟩
    · cases h
  · rintro ⟨v, hv, ha⟩
    refine ⟨v, t, hv, ?_⟩
    rw [ha]

namespace Snapshot

variable {d d' : Draft} {s : Snapshot}

/-- Whether a member has a type of its own. -/
def isTyped (name : String) : Bool := name == "tick" || name == "timestamp" || name == "status"

/-- The members that are kept as sections. -/
def others (ms : List (List Piece × Document)) : List (List Piece × Document) :=
  ms.filter fun m => !(text? m.1).any isTyped

def tick? (depth : Nat) (e : Document) : Option Nat := (e.value? depth).bind Value.natural?

def timestamp? (depth : Nat) (e : Document) : Option (Option Timestamp) :=
  (e.value? depth).bind (Value.optional? Timestamp.ofValue?)

def status? (depth : Nat) (e : Document) : Option (Option String) :=
  (e.value? depth).bind (Value.optional? Value.string?)

/-- What a member adds to what has been read. -/
def accept (depth : Nat) (d : Draft) (name : String) (e : Document) : Option Draft :=
  if name = "tick" then
    (once? (tick? depth) d.tick? [e]).map fun t => { d with tick? := t }
  else if name = "timestamp" then
    (once? (timestamp? depth) d.timestamp? [e]).map fun t => { d with timestamp? := t }
  else if name = "status" then
    (once? (status? depth) d.status? [e]).map fun t => { d with status? := t }
  else (e.value? depth).map fun v => { d with sections := Members.insert name v d.sections }

theorem handles_member : Handles (member depth) (accept depth) := by
  intro d name
  unfold member accept
  by_cases htick : name = "tick"
  · simp only [htick, if_true]
    exact Json.natural_picks.reads.once d.tick? _ fun t => { d with tick? := t }
  by_cases htimestamp : name = "timestamp"
  · simp only [htimestamp, if_true, show ¬"timestamp" = "tick" by decide, if_false]
    exact Timestamp.read_picks.optional.reads.once d.timestamp? _ fun t =>
      { d with timestamp? := t }
  by_cases hstatus : name = "status"
  · simp only [hstatus, if_true, show ¬"status" = "tick" by decide,
      show ¬"status" = "timestamp" by decide, if_false]
    exact Json.string_picks.optional.reads.once d.status? _ fun t => { d with status? := t }
  · simp only [htick, htimestamp, hstatus, if_false]
    exact (Json.value_reads depth).member fun v =>
      { d with sections := Members.insert name v d.sections }

/-- The slots after a member are those before it, each with what stands under its own name. -/
theorem accept_eq_some {ps : List Piece} {name : String} {e : Document}
    (hname : text? ps = some name) : accept depth d name e = some d' ↔
      once? (tick? depth) d.tick? (if name = "tick" then [e] else []) = some d'.tick? ∧
      once? (timestamp? depth) d.timestamp? (if name = "timestamp" then [e] else []) =
        some d'.timestamp? ∧
      once? (status? depth) d.status? (if name = "status" then [e] else []) = some d'.status? ∧
      foldMembers (keep depth) d.sections (others [(ps, e)]) = some d'.sections := by
  obtain ⟨tick, timestamp, status, sections⟩ := d
  obtain ⟨tick', timestamp', status', sections'⟩ := d'
  unfold accept
  by_cases htick : name = "tick"
  · simp [htick, hname, once?, others, isTyped, foldMembers]
  by_cases htimestamp : name = "timestamp"
  · simp [htimestamp, hname, once?, others, isTyped, foldMembers, and_left_comm]
  by_cases hstatus : name = "status"
  · simp [hstatus, hname, once?, others, isTyped, foldMembers]
    constructor
    · rintro ⟨h, rfl, rfl, rfl⟩
      exact ⟨rfl, rfl, h, rfl⟩
    · rintro ⟨rfl, rfl, h, rfl⟩
      exact ⟨h, rfl, rfl, rfl⟩
  · simp [htick, htimestamp, hstatus, hname, once?, others, isTyped, foldMembers]
    constructor
    · rintro ⟨v, hv, rfl, rfl, rfl, rfl⟩
      exact ⟨rfl, rfl, rfl, v, hv, rfl⟩
    · rintro ⟨rfl, rfl, rfl, v, hv, rfl⟩
      exact ⟨v, hv, rfl, rfl, rfl, rfl⟩

theorem others_cons {m : List Piece × Document} : others (m :: ms) = others [m] ++ others ms :=
  List.filter_append [m] ms

/-- The slots are filled apart from each other and from the sections. -/
theorem foldMembers_accept : foldMembers (accept depth) d ms = some d' ↔
    once? (tick? depth) d.tick? (Document.under "tick" ms) = some d'.tick? ∧
    once? (timestamp? depth) d.timestamp? (Document.under "timestamp" ms) = some d'.timestamp? ∧
    once? (status? depth) d.status? (Document.under "status" ms) = some d'.status? ∧
    foldMembers (keep depth) d.sections (others ms) = some d'.sections := by
  induction ms generalizing d with
  | nil =>
    cases d
    cases d'
    simp [foldMembers, Document.under, once?, others]
  | cons m ms ih =>
    obtain ⟨ps, e⟩ := m
    cases hname : text? ps with
    | none =>
      have hleft : foldMembers (accept depth) d ((ps, e) :: ms) ≠ some d' := by
        intro h
        obtain ⟨name, _, hsome, -⟩ := Json.foldMembers_cons.mp h
        rw [hname] at hsome
        cases hsome
      have hothers : others [(ps, e)] = [(ps, e)] := by simp [others, hname]
      rw [others_cons, hothers, Json.foldMembers_append]
      refine iff_of_false hleft ?_
      rintro ⟨-, -, -, mid, h, -⟩
      obtain ⟨name, _, hsome, -⟩ := Json.foldMembers_cons.mp h
      rw [hname] at hsome
      cases hsome
    | some name =>
      rw [Json.foldMembers_cons, others_cons, Json.under_cons hname, Json.under_cons hname,
        Json.under_cons hname, Json.once?_append, Json.once?_append, Json.once?_append,
        Json.foldMembers_append]
      constructor
      · rintro ⟨name', mid, hname', hmid, hrest⟩
        cases hname.symm.trans hname'
        obtain ⟨h₁, h₂, h₃, h₄⟩ := (accept_eq_some hname).mp hmid
        obtain ⟨g₁, g₂, g₃, g₄⟩ := ih.mp hrest
        exact ⟨⟨_, h₁, g₁⟩, ⟨_, h₂, g₂⟩, ⟨_, h₃, g₃⟩, ⟨_, h₄, g₄⟩⟩
      · rintro ⟨⟨tick, h₁, g₁⟩, ⟨timestamp, h₂, g₂⟩, ⟨status, h₃, g₃⟩, ⟨sections, h₄, g₄⟩⟩
        exact ⟨name, ⟨tick, timestamp, status, sections⟩, hname,
          (accept_eq_some hname).mpr ⟨h₁, h₂, h₃, h₄⟩, ih.mpr ⟨g₁, g₂, g₃, g₄⟩⟩

/-- The snapshot that a document makes. -/
def meaning? (depth : Nat) : Document → Option Snapshot
  | .object ms => (foldMembers (accept depth) Draft.empty ms).bind fun d => (finish d).toOption
  | _ => none

theorem read_reads (depth : Nat) : Reads (read depth) (meaning? depth) where
  sound {s t a} h := by
    unfold read at h
    split at h
    · cases h
    · next hs =>
      simp only [Json.bind_eq_ok, Prod.exists] at h
      obtain ⟨d, u, hm, a', hf, h⟩ := h
      cases h
      obtain ⟨ms, hms, hfold⟩ := (Json.members_eq_ok handles_member).mp hm
      refine ⟨.object ms, hs ▸ .object hms, ?_⟩
      rw [meaning?, hfold, Option.bind_some, hf]
      rfl
    · cases h
  complete {s t a e} he _ ha := by
    cases e with
    | object ms =>
      obtain ⟨d, hfold, hf⟩ := Option.bind_eq_some_iff.mp ha
      generalize hs : Json.skipBlanks s = u at he
      cases he with
      | object hms =>
        simp only [read, hs, Json.bind_eq_ok, Prod.exists]
        exact ⟨d, t, (Json.members_eq_ok handles_member).mpr ⟨ms, hms, hfold⟩, a,
          Json.toOption_eq_some.mp hf, rfl⟩
    | _ => cases ha

/-- The members that make a snapshot, and which. -/
structure Given (ms : List (List Piece × Document)) (s : Snapshot) : Prop where
  tick : ∃ e, Document.under "tick" ms = [e] ∧ tick? 126 e = some s.tick
  timestamp : Document.under "timestamp" ms = [] ∧ s.timestamp = none ∨
    ∃ e, Document.under "timestamp" ms = [e] ∧ timestamp? 126 e = some s.timestamp
  status : Document.under "status" ms = [] ∧ s.status = none ∨
    ∃ e, Document.under "status" ms = [e] ∧ status? 126 e = some s.status
  sections : foldMembers (keep 126) [] (others ms) = some s.sections

/-- An empty slot that may stay empty. -/
theorem once?_join {α : Type} {meaning? : Document → Option (Option α)}
    {slot : Option (Option α)} {es : List Document} (h : once? meaning? none es = some slot) :
    es = [] ∧ slot.join = none ∨ ∃ e, es = [e] ∧ meaning? e = some slot.join := by
  rcases Json.once?_empty.mp h with ⟨rfl, rfl⟩ | ⟨e, a, rfl, ha, rfl⟩
  · exact .inl ⟨rfl, rfl⟩
  · exact .inr ⟨e, rfl, ha⟩

theorem exists_once? {α : Type} {meaning? : Document → Option (Option α)} {a : Option α}
    {es : List Document} (h : es = [] ∧ a = none ∨ ∃ e, es = [e] ∧ meaning? e = some a) :
    ∃ slot, once? meaning? none es = some slot ∧ slot.join = a := by
  rcases h with ⟨rfl, rfl⟩ | ⟨e, rfl, ha⟩
  · exact ⟨none, rfl, rfl⟩
  · exact ⟨some a, by rw [once?, ha]; rfl, rfl⟩

theorem meaning?_eq_some : meaning? 126 (.object ms) = some s ↔ Given ms s := by
  rw [meaning?, Option.bind_eq_some_iff]
  constructor
  · rintro ⟨⟨tick, timestamp, status, sections⟩, hfold, hf⟩
    obtain ⟨htick, htimestamp, hstatus, hsections⟩ := foldMembers_accept.mp hfold
    rcases Json.once?_empty.mp htick with ⟨-, rfl⟩ | ⟨e, n, he, hn, rfl⟩
    · cases hf
    · cases hf
      exact ⟨⟨e, he, hn⟩, once?_join htimestamp, once?_join hstatus, hsections⟩
  · rintro ⟨⟨e, he, hn⟩, htimestamp, hstatus, hsections⟩
    obtain ⟨timestamp, htimestamp, hjoin⟩ := exists_once? htimestamp
    obtain ⟨status, hstatus, hjoin'⟩ := exists_once? hstatus
    have htick : once? (tick? 126) none (Document.under "tick" ms) = some (some s.tick) :=
      Json.once?_empty.mpr (.inr ⟨e, s.tick, he, hn, rfl⟩)
    refine ⟨⟨some s.tick, timestamp, status, s.sections⟩,
      foldMembers_accept.mpr ⟨htick, htimestamp, hstatus, hsections⟩, ?_⟩
    rw [finish, hjoin, hjoin']
    rfl

theorem decode_eq_ok {text : String} :
    decode text = .ok s ↔ ∃ ms, (Document.object ms).Fills text ∧ Given ms s := by
  show Json.document (read 126) text = .ok s ↔ _
  rw [Json.document_eq_ok (read_reads 126)]
  constructor
  · rintro ⟨e, he, hs⟩
    cases e with
    | object ms => exact ⟨ms, he, meaning?_eq_some.mp hs⟩
    | _ => cases hs
  · rintro ⟨ms, he, hgiven⟩
    exact ⟨.object ms, he, meaning?_eq_some.mpr hgiven⟩

/-- What is asked of the members with a type of their own. -/
structure Schema (ms : List (List Piece × Document)) : Prop where
  tick : ∃ l, Document.under "tick" ms = [.number l] ∧ l.IsNatural ∧
    Nat.ofDigitChars 10 l.whole 0 ≤ Nat.pow 2 64 - 1
  timestamp : Document.under "timestamp" ms = [] ∨ ∃ e, Document.under "timestamp" ms = [e] ∧
    (e = .null ∨ (∃ l, e = .number l) ∨ ∃ ps, e = .string ps)
  status : Document.under "status" ms = [] ∨ ∃ e, Document.under "status" ms = [e] ∧
    (e = .null ∨ ∃ ps, e = .string ps)

/-- The snapshot holds what the members say: a `null` says as much as no member at all, and the
sections are the other members, each name at its first place with its last value. -/
structure Makes (ms : List (List Piece × Document)) (s : Snapshot) : Prop where
  tick : ∃ l, Document.under "tick" ms = [.number l] ∧ s.tick = Nat.ofDigitChars 10 l.whole 0
  timestamp : s.timestamp = (Document.under "timestamp" ms).head?.bind fun e =>
    (e.value? 126).bind Timestamp.ofValue?
  status : s.status = (Document.under "status" ms).head?.bind fun e =>
    (e.value? 126).bind Value.string?
  names : Members.names s.sections = (Json.givenNames (others ms)).eraseDups
  values : ∀ name, isTyped name = false → Members.find? name s.sections =
    (Document.under name ms).getLast?.bind (Document.value? 126)

section Kinds

variable {e : Document}

theorem exists_timestamp?_iff (he : e.Readable depth) : (∃ o, timestamp? depth e = some o) ↔
    e = .null ∨ (∃ l, e = .number l) ∨ ∃ ps, e = .string ps := by
  obtain ⟨v, hv⟩ := Option.isSome_iff_exists.mp (Document.isSome_value?_iff.mpr he)
  have hkind := Document.sameKind_of_value? hv
  have hpick : (Timestamp.ofValue? v).isSome ↔ (∃ n, v = .number n) ∨ ∃ x, v = .string x := by
    rcases v with _ | _ | (_ | _) | _ | _ | _ <;> simp [Timestamp.ofValue?]
  rw [timestamp?, hv, Option.bind_some, Value.exists_optional?_iff, hpick, hkind.null,
    hkind.number, hkind.string]

theorem exists_status?_iff (he : e.Readable depth) : (∃ o, status? depth e = some o) ↔
    e = .null ∨ ∃ ps, e = .string ps := by
  obtain ⟨v, hv⟩ := Option.isSome_iff_exists.mp (Document.isSome_value?_iff.mpr he)
  have hkind := Document.sameKind_of_value? hv
  have hpick : v.string?.isSome ↔ ∃ x, v = .string x := by
    cases v <;> simp [Value.string?]
  rw [status?, hv, Option.bind_some, Value.exists_optional?_iff, hpick, hkind.null, hkind.string]

end Kinds

/-- An element of a list that fills a text is well-formed if it is a number. -/
theorem wellFormed_of_under {text name : String} {l : Json.Numeral}
    (h : (Document.object ms).Fills text) (hl : .number l ∈ Document.under name ms) :
    l.WellFormed := by
  obtain ⟨t, hspells, -⟩ := h
  obtain ⟨m, hm, hml⟩ := List.mem_map.mp hl
  generalize Json.skipBlanks text.toList = u at hspells
  cases hspells with
  | object hms =>
    obtain ⟨s, t, hentry⟩ := hms.exists_of_mem (List.mem_of_mem_filter hm)
    obtain ⟨ps, e⟩ := m
    cases hml
    cases hentry with
    | mk _ _ hspells =>
      cases hspells with
      | number hl => exact hl

theorem readable_of_under {name : String} {e : Document}
    (h : (Document.object ms).Readable (depth + 1)) (he : e ∈ Document.under name ms) :
    e.Readable depth := by
  obtain ⟨m, hm, rfl⟩ := List.mem_map.mp he
  cases h with
  | object _ hvalues => exact hvalues m (List.mem_of_mem_filter hm)

theorem greatestNatural_eq : Json.Number.greatestNatural = Nat.pow 2 64 - 1 := by decide

theorem Given.schema {text : String} (hfill : (Document.object ms).Fills text)
    (hr : (Document.object ms).Readable 127) (h : Given ms s) : Schema ms where
  tick := by
    obtain ⟨e, he, hn⟩ := h.tick
    obtain ⟨l, rfl, hl⟩ := Document.value?_eq_natural.mp hn
    have hw := wellFormed_of_under hfill (he ▸ List.mem_singleton_self _)
    obtain ⟨hnatural, hvalue, hfit⟩ := (Json.Numeral.number?_eq_natural hw.whole).mp hl
    exact ⟨l, he, hnatural, by rw [hvalue, ← greatestNatural_eq]; exact hfit⟩
  timestamp := by
    rcases h.timestamp with ⟨hnil, -⟩ | ⟨e, he, ho⟩
    · exact .inl hnil
    · have hreadable := readable_of_under hr (he ▸ List.mem_singleton_self e)
      exact .inr ⟨e, he, (exists_timestamp?_iff hreadable).mp ⟨_, ho⟩⟩
  status := by
    rcases h.status with ⟨hnil, -⟩ | ⟨e, he, ho⟩
    · exact .inl hnil
    · have hreadable := readable_of_under hr (he ▸ List.mem_singleton_self e)
      exact .inr ⟨e, he, (exists_status?_iff hreadable).mp ⟨_, ho⟩⟩

/-- A slot that may stay empty takes what is there. -/
theorem exists_slot {α : Type} {meaning? : Document → Option (Option α)} {es : List Document}
    (h : es = [] ∨ ∃ e, es = [e] ∧ ∃ o, meaning? e = some o) :
    ∃ o, es = [] ∧ o = none ∨ ∃ e, es = [e] ∧ meaning? e = some o := by
  rcases h with hnil | ⟨e, he, o, ho⟩
  · exact ⟨none, .inl ⟨hnil, rfl⟩⟩
  · exact ⟨o, .inr ⟨e, he, ho⟩⟩

theorem Schema.given {text : String} (hfill : (Document.object ms).Fills text)
    (hr : (Document.object ms).Readable 127) (h : Schema ms) : ∃ s, Given ms s := by
  obtain ⟨l, hl, hnatural, hfit⟩ := h.tick
  have hw := wellFormed_of_under hfill (hl ▸ List.mem_singleton_self _)
  have htick : tick? 126 (.number l) = some (Nat.ofDigitChars 10 l.whole 0) :=
    Document.value?_eq_natural.mpr ⟨l, rfl, (Json.Numeral.number?_eq_natural hw.whole).mpr
      ⟨hnatural, rfl, greatestNatural_eq ▸ hfit⟩⟩
  obtain ⟨timestamp, htimestamp⟩ := exists_slot (h.timestamp.imp_right fun ⟨e, he, hkind⟩ =>
    ⟨e, he, (exists_timestamp?_iff (readable_of_under hr (he ▸ List.mem_singleton_self e))).mpr
      hkind⟩)
  obtain ⟨status, hstatus⟩ := exists_slot (h.status.imp_right fun ⟨e, he, hkind⟩ =>
    ⟨e, he, (exists_status?_iff (readable_of_under hr (he ▸ List.mem_singleton_self e))).mpr
      hkind⟩)
  have hkept : (foldMembers (keep 126) [] (others ms)).isSome := by
    refine Json.isSome_foldMembers.mpr fun m hm => ?_
    cases hr with
    | object hnames hvalues =>
      have hmem := List.mem_of_mem_filter hm
      exact ⟨hnames m hmem, Document.isSome_value?_iff.mpr (hvalues m hmem)⟩
  obtain ⟨sections, hsections⟩ := Option.isSome_iff_exists.mp hkept
  exact ⟨⟨_, timestamp, status, sections⟩, ⟨_, hl, htick⟩, htimestamp, hstatus, hsections⟩

theorem under_others {name : String} (hname : isTyped name = false) :
    Document.under name (others ms) = Document.under name ms := by
  rw [Document.under, others, List.filter_filter, Document.under]
  congr 1
  refine List.filter_congr fun m _ => ?_
  by_cases h : text? m.1 = some name <;> simp [h, hname]

theorem Given.makes {text : String} (hfill : (Document.object ms).Fills text) (h : Given ms s) :
    Makes ms s where
  tick := by
    obtain ⟨e, he, hn⟩ := h.tick
    obtain ⟨l, rfl, hl⟩ := Document.value?_eq_natural.mp hn
    have hw := wellFormed_of_under hfill (he ▸ List.mem_singleton_self _)
    exact ⟨l, he, ((Json.Numeral.number?_eq_natural hw.whole).mp hl).2.1.symm⟩
  timestamp := by
    rcases h.timestamp with ⟨hnil, hnone⟩ | ⟨e, he, ho⟩
    · rw [hnil, hnone]
      rfl
    · obtain ⟨v, hv, hpick⟩ := Option.bind_eq_some_iff.mp ho
      rw [he, Value.optional?_eq_some rfl hpick, List.head?_cons, Option.bind_some, hv,
        Option.bind_some]
  status := by
    rcases h.status with ⟨hnil, hnone⟩ | ⟨e, he, ho⟩
    · rw [hnil, hnone]
      rfl
    · obtain ⟨v, hv, hpick⟩ := Option.bind_eq_some_iff.mp ho
      rw [he, Value.optional?_eq_some rfl hpick, List.head?_cons, Option.bind_some, hv,
        Option.bind_some]
  names := Json.names_kept h.sections
  values name hname := by rw [Json.find?_kept h.sections, under_others hname]

/-- The one member in a slot has a value. -/
theorem isSome_of_slot {α : Type} {pick : Value → Option α} {a : α} {es : List Document}
    {e e' : Document} (he : e ∈ es) (hes : es = [e'])
    (h : (e'.value? depth).bind pick = some a) : (e.value? depth).isSome := by
  obtain ⟨v, hv, -⟩ := Option.bind_eq_some_iff.mp h
  rw [hes, List.mem_singleton] at he
  rw [he, hv]
  rfl

theorem Given.typed (h : Given ms s) {name : String} (hname : isTyped name = true) {e : Document}
    (he : e ∈ Document.under name ms) : (e.value? 126).isSome := by
  simp only [isTyped, Bool.or_eq_true, beq_iff_eq] at hname
  rcases hname with (rfl | rfl) | rfl
  · obtain ⟨e', he', hn⟩ := h.tick
    exact isSome_of_slot he he' hn
  · rcases h.timestamp with ⟨hnil, -⟩ | ⟨e', he', ho⟩
    · rw [hnil] at he
      cases he
    · exact isSome_of_slot he he' ho
  · rcases h.status with ⟨hnil, -⟩ | ⟨e', he', ho⟩
    · rw [hnil] at he
      cases he
    · exact isSome_of_slot he he' ho

theorem Given.readable (h : Given ms s) : (Document.object ms).Readable 127 := by
  have hkept := Json.isSome_foldMembers.mp (Option.isSome_iff_exists.mpr ⟨_, h.sections⟩)
  have hread : ∀ m ∈ ms, (text? m.1).isSome ∧ (m.2.value? 126).isSome := by
    intro m hm
    by_cases htyped : (text? m.1).any isTyped = true
    · obtain ⟨name, hname, htyped⟩ := (Option.any_eq_true _ _).mp htyped
      have hunder : m.2 ∈ Document.under name ms :=
        List.mem_map_of_mem (List.mem_filter.mpr ⟨hm, by simpa using hname⟩)
      exact ⟨by rw [hname]; rfl, h.typed htyped hunder⟩
    · exact hkept m (List.mem_filter.mpr ⟨hm, by simpa using htyped⟩)
  exact .object (fun m hm => (hread m hm).1)
    fun m hm => Document.isSome_value?_iff.mp (hread m hm).2

theorem meaning_error {text : String} (h : ∀ s, decode text ≠ .ok s) : ∃ detail preview,
    Feed.meaning (.message text) = .failure (.decode detail) preview := by
  cases hd : decode text with
  | ok s => exact absurd hd (h s)
  | error fault =>
    refine ⟨fault.message, String.ofList (text.toList.take Feed.previewLength), ?_⟩
    simp only [Feed.meaning, hd]

/-- A text is a snapshot exactly if it is a document within the limits of the reader and keeps to
the schema, and then nothing of it is lost. Any other text is a decode error. -/
theorem decode_by_schema (text : String) :
    (∀ e : Document, e.Fills text → e.Readable Json.depthLimit →
      ((∃ s, decode text = .ok s) ↔ ∃ ms, e = .object ms ∧ Schema ms) ∧
      ∀ s, decode text = .ok s → ∃ ms, e = .object ms ∧ Makes ms s) ∧
    ((¬∃ e : Document, e.Fills text ∧ e.Readable Json.depthLimit) → ∀ s, decode text ≠ .ok s) ∧
    ((∀ s, decode text ≠ .ok s) → ∃ detail preview,
      Feed.meaning (.message text) = .failure (.decode detail) preview) := by
  refine ⟨fun e hfill hr => ⟨⟨?_, ?_⟩, ?_⟩, fun hnone s h => ?_, meaning_error⟩
  · rintro ⟨s, h⟩
    obtain ⟨ms, hms, hgiven⟩ := decode_eq_ok.mp h
    obtain rfl := hms.unique hfill
    exact ⟨ms, rfl, hgiven.schema hfill hr⟩
  · rintro ⟨ms, rfl, hschema⟩
    obtain ⟨s, hgiven⟩ := hschema.given hfill hr
    exact ⟨s, decode_eq_ok.mpr ⟨ms, hfill, hgiven⟩⟩
  · intro s h
    obtain ⟨ms, hms, hgiven⟩ := decode_eq_ok.mp h
    obtain rfl := hms.unique hfill
    exact ⟨ms, rfl, hgiven.makes hfill⟩
  · obtain ⟨ms, hms, hgiven⟩ := decode_eq_ok.mp h
    exact hnone ⟨.object ms, hms, hgiven.readable⟩

section First

def firstText : String := "\x7b\"macro\":null,\"tick\":7,\"macro\":\"up\",\"status\":null\x7d"

def first : Snapshot := ⟨7, none, none, [("macro", .string "up")]⟩

theorem decode_by_schema_first :
    (∃ ms, (Document.object ms).Fills firstText ∧
      (Document.object ms).Readable Json.depthLimit ∧ Schema ms ∧ Makes ms first) ∧
    (¬∃ e : Document, e.Fills "" ∧ e.Readable Json.depthLimit) ∧ (∀ s, decode "" ≠ .ok s) ∧
    ∃ detail preview, Feed.meaning (.message "") = .failure (.decode detail) preview := by
  have hdecode : decode firstText = .ok first := rfl
  obtain ⟨ms, hfill, hgiven⟩ := decode_eq_ok.mp hdecode
  obtain ⟨hiff, hmakes⟩ := (decode_by_schema firstText).1 _ hfill hgiven.readable
  obtain ⟨ms', heq, hschema⟩ := hiff.mp ⟨first, hdecode⟩
  cases heq
  obtain ⟨ms', heq, hmakes⟩ := hmakes first hdecode
  cases heq
  have hempty : ¬∃ e : Document, e.Fills "" ∧ e.Readable Json.depthLimit := by
    rintro ⟨e, ⟨t, h, -⟩, -⟩
    obtain ⟨c, u, hnil, -⟩ := h.starts
    cases hnil
  obtain ⟨-, hnone, herror⟩ := decode_by_schema ""
  exact ⟨⟨ms, hfill, hgiven.readable, hschema, hmakes⟩, hempty, hnone hempty,
    herror (hnone hempty)⟩

end First

end Snapshot

end TwinLink
