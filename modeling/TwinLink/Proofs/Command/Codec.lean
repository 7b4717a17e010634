import TwinLink.Command
import TwinLink.Proofs.Json.Fields
import TwinLink.Proofs.Json.Printing
import TwinLink.Proofs.Json.Unambiguity

/-! The text of a command and what is read of one. An object is a command if it has one member
`type`, a string, and at most one member `payload`; all others are passed over. -/

namespace TwinLink.Command

open Json (Piece Document foldMembers once? Handles)
open Json.Quoted (text?)

variable {c : Command} {d d' : Draft} {depth : Nat} {ms : List (List Piece × Document)}

/-- What a member adds to what has been read. -/
def accept (depth : Nat) (d : Draft) (name : String) (doc : Document) : Option Draft :=
  if name = "type" then
    (once? (fun e => (e.value? depth).bind Json.Value.string?) d.type? [doc]).map fun t =>
      { d with type? := t }
  else if name = "payload" then
    (once? (Document.value? depth) d.payload? [doc]).map fun p => { d with payload? := p }
  else some d

theorem handles_member : Handles (member depth) (accept depth) := by
  intro d name
  unfold member accept
  by_cases ht : name = "type"
  · simp only [ht, if_true]
    exact Json.string_picks.reads.once d.type? _ fun t => { d with type? := t }
  by_cases hp : name = "payload"
  · simp only [hp, if_true, show ¬"payload" = "type" by decide, if_false]
    exact (Json.value_reads depth).once d.payload? _ fun p => { d with payload? := p }
  · simp only [ht, hp, if_false]
    exact Json.takes_skipped d

/-- The slots after a member are those before it, each with what stands under its own name. -/
theorem accept_eq_some {name : String} {doc : Document} : accept depth d name doc = some d' ↔
    once? (fun e => (e.value? depth).bind Json.Value.string?) d.type?
        (if name = "type" then [doc] else []) = some d'.type? ∧
      once? (Document.value? depth) d.payload? (if name = "payload" then [doc] else []) =
        some d'.payload? := by
  obtain ⟨t, p⟩ := d
  obtain ⟨t', p'⟩ := d'
  unfold accept
  by_cases ht : name = "type"
  · simp [ht, once?, Option.map_eq_some_iff]
  by_cases hp : name = "payload"
  · simp [hp, once?, Option.map_eq_some_iff, and_comm]
  · simp [ht, hp, once?]

/-- The slots are filled apart from each other. -/
theorem foldMembers_accept : foldMembers (accept depth) d ms = some d' ↔
    (∀ m ∈ ms, (text? m.1).isSome) ∧
      once? (fun e => (e.value? depth).bind Json.Value.string?) d.type? (Document.under "type" ms) =
        some d'.type? ∧
      once? (Document.value? depth) d.payload? (Document.under "payload" ms) =
        some d'.payload? := by
  induction ms generalizing d with
  | nil =>
    cases d
    cases d'
    simp [foldMembers, Document.under, once?]
  | cons m ms ih =>
    obtain ⟨ps, doc⟩ := m
    rw [Json.foldMembers_cons, List.forall_mem_cons]
    constructor
    · rintro ⟨name, mid, hname, hmid, hrest⟩
      obtain ⟨hnames, htype, hpayload⟩ := ih.mp hrest
      obtain ⟨ht, hp⟩ := accept_eq_some.mp hmid
      rw [Json.under_cons hname, Json.under_cons hname, Json.once?_append, Json.once?_append]
      exact ⟨⟨by rw [hname]; rfl, hnames⟩, ⟨_, ht, htype⟩, ⟨_, hp, hpayload⟩⟩
    · rintro ⟨⟨hsome, hnames⟩, htype, hpayload⟩
      obtain ⟨name, hname⟩ := Option.isSome_iff_exists.mp hsome
      rw [Json.under_cons hname, Json.once?_append] at htype hpayload
      obtain ⟨t, ht, htype⟩ := htype
      obtain ⟨p, hp, hpayload⟩ := hpayload
      exact ⟨name, ⟨t, p⟩, hname, accept_eq_some.mpr ⟨ht, hp⟩, ih.mpr ⟨hnames, htype, hpayload⟩⟩

/-- What the members of an object say about a command. Any other member may come with them. -/
structure Spelled (ms : List (List Piece × Document)) (c : Command) : Prop where
  names : ∀ m ∈ ms, (text? m.1).isSome
  type : ∃ us, Document.under "type" ms = [.string us] ∧ text? us = some c.type
  payload : Document.under "payload" ms = [] ∧ c.payload = emptyPayload ∨
    ∃ d, Document.under "payload" ms = [d] ∧ d.value? (Json.depthLimit - 1) = some c.payload

theorem foldMembers_finish : (∃ d, foldMembers (accept (Json.depthLimit - 1)) ⟨none, none⟩ ms =
    some d ∧ finish d = .ok c) ↔ Spelled ms c := by
  simp only [foldMembers_accept, Json.once?_empty, Json.Document.value?_eq_string]
  constructor
  · rintro ⟨⟨type?, payload?⟩, ⟨hnames, htype, hpayload⟩, hfinish⟩
    dsimp only at htype hpayload
    rcases htype with ⟨-, rfl⟩ | ⟨_, type, hunder, ⟨us, rfl, hus⟩, rfl⟩
    · cases hfinish
    · cases hfinish
      refine ⟨hnames, ⟨us, hunder, hus⟩, ?_⟩
      rcases hpayload with ⟨hnil, rfl⟩ | ⟨e, v, hunder, hv, rfl⟩
      · exact .inl ⟨hnil, rfl⟩
      · exact .inr ⟨e, hunder, hv⟩
  · rintro ⟨hnames, ⟨us, hunder, hus⟩, hpayload⟩
    have htype : ∃ e a, Document.under "type" ms = [e] ∧
        (∃ ps, e = .string ps ∧ text? ps = some a) ∧ some c.type = some a :=
      ⟨_, _, hunder, ⟨us, rfl, hus⟩, rfl⟩
    rcases hpayload with ⟨hnil, hempty⟩ | ⟨e, hunder, hv⟩
    · refine ⟨⟨some c.type, none⟩, ⟨hnames, .inr htype, .inl ⟨hnil, rfl⟩⟩, ?_⟩
      rw [finish, Option.getD_none, ← hempty]
    · exact ⟨⟨some c.type, some c.payload⟩, ⟨hnames, .inr htype, .inr ⟨e, _, hunder, hv, rfl⟩⟩, rfl⟩

theorem decode_brace {text : String} {u : List Char}
    (h : Json.skipBlanks text.toList = '{' :: u) :
    decode text = .ok c ↔ ∃ ms, (Document.object ms).Fills text ∧ Spelled ms c := by
  have hread : decode text = .ok c ↔ ∃ d t, Json.members (member (Json.depthLimit - 1))
      ⟨none, none⟩ u = .ok (d, t) ∧ finish d = .ok c ∧ Json.skipBlanks t = [] := by
    simp only [decode, Json.document, read, h, Json.bind_eq_ok, Prod.exists, Except.ok.injEq,
      Prod.mk.injEq]
    constructor
    · rintro ⟨_, _, ⟨d, t, hm, _, hf, rfl, rfl⟩, hend⟩
      split at hend
      · next hnil =>
        cases hend
        exact ⟨d, t, hm, hf, List.isEmpty_iff.mp hnil⟩
      · cases hend
    · rintro ⟨d, t, hm, hf, hnil⟩
      exact ⟨c, t, ⟨d, t, hm, c, hf, rfl, rfl⟩, if_pos (List.isEmpty_iff.mpr hnil)⟩
  rw [hread]
  constructor
  · rintro ⟨d, t, hm, hf, hnil⟩
    obtain ⟨ms, hms, hfold⟩ := (Json.members_eq_ok handles_member).mp hm
    exact ⟨ms, ⟨t, h ▸ .object hms, hnil⟩, foldMembers_finish.mp ⟨d, hfold, hf⟩⟩
  · rintro ⟨ms, ⟨t, hd, hnil⟩, hspelled⟩
    obtain ⟨d, hfold, hf⟩ := foldMembers_finish.mpr hspelled
    rw [h] at hd
    cases hd with
    | object hms => exact ⟨d, t, (Json.members_eq_ok handles_member).mpr ⟨ms, hms, hfold⟩, hf, hnil⟩

section Written

/-- The object with its type and its payload under their names. -/
structure Written (c : Command) (ns us ps : List Piece) (d : Document) : Prop where
  typeName : text? ns = some "type"
  type : text? us = some c.type
  payloadName : text? ps = some "payload"
  payload : Json.Writes c.payload d
  spells : ∀ t, (Document.object [(ns, .string us), (ps, d)]).Spells (c.toValue.chars ++ t) t

theorem exists_written (c : Command) : ∃ ns us ps d, Written c ns us ps d := by
  obtain ⟨us, hus, htype⟩ := Json.exists_writes_string c.type
  obtain ⟨d, hd⟩ := Json.exists_writes c.payload
  obtain ⟨ns, hns⟩ := htype.member "type"
  obtain ⟨ps, hps⟩ := hd.member "payload"
  exact ⟨ns, us, ps, d, hns.name, hus, hps.name, hd,
    (Json.writes_object (.cons hns (.cons hps .nil))).spells⟩

variable {ns us ps : List Piece} {d : Document}

theorem Written.fills (h : Written c ns us ps d) :
    (Document.object [(ns, .string us), (ps, d)]).Fills c.toValue.text :=
  Json.fills_text h.spells

theorem Written.spelled (h : Written c ns us ps d) (hv : c.payload.Exact (Json.depthLimit - 1)) :
    Spelled [(ns, .string us), (ps, d)] c where
  names := by simp [h.typeName, h.payloadName]
  type := ⟨us, by simp [Document.under, h.typeName, h.payloadName], h.type⟩
  payload := by
    refine .inr ⟨d, by simp [Document.under, h.typeName, h.payloadName], ?_⟩
    exact h.payload.value _ hv

theorem encode_eq_ok {t : String} (h : c.encode = .ok t) : t = c.toValue.text := by
  unfold encode at h
  split at h
  · cases h
  · cases h
    rfl

theorem decode_text (hv : c.payload.Exact (Json.depthLimit - 1)) :
    decode c.toValue.text = .ok c := by
  obtain ⟨ns, us, ps, d, h⟩ := exists_written c
  obtain ⟨t, hspells, -⟩ := h.fills
  generalize hs : Json.skipBlanks c.toValue.text.toList = s at hspells
  cases hspells with
  | object => exact (decode_brace hs).mpr ⟨_, h.fills, h.spelled hv⟩

end Written

section Decoded

variable {s t : List Char}

/-- What every command has that was read inside one bracket. -/
def Sound (c : Command) : Prop :=
  c.payload.Nests (Json.depthLimit - 1) ∧ c.payload.Distinct

theorem sound_emptyPayload (type : String) : Sound ⟨type, emptyPayload⟩ := by
  refine ⟨.object (by simp), fun ms hms => ?_⟩
  cases hms with
  | self => exact List.nodup_nil
  | member hm => cases hm

theorem sound_of_value {type : String} {v : Json.Value}
    (h : Json.value (Json.depthLimit - 1) s = .ok (v, t)) : Sound ⟨type, v⟩ := by
  obtain ⟨d, -, hd⟩ := (Json.value_reads _).sound h
  exact Json.value?_sound hd

theorem sound_spelled (h : Spelled ms c) : Sound c := by
  rcases h.payload with ⟨-, hempty⟩ | ⟨d, -, hd⟩
  · have := sound_emptyPayload c.type
    rwa [Sound, ← hempty] at this
  · exact Json.value?_sound hd

theorem sound_fromItems (h : fromItems (Json.depthLimit - 1) s = .ok (c, t)) : Sound c := by
  unfold fromItems at h
  split at h
  · cases h
  · cases h
  · obtain ⟨⟨type, s₁⟩, -, h⟩ := Json.bind_eq_ok.mp h
    dsimp only at h
    split at h
    · cases h
    · cases h
      exact sound_emptyPayload type
    · split at h
      · cases h
      · cases h
      · simp only [Json.bind_eq_ok, Prod.exists] at h
        obtain ⟨v, s₂, hv, s₃, -, h⟩ := h
        cases h
        exact sound_of_value hv
    · cases h

theorem sound_decode {text : String} (h : decode text = .ok c) : Sound c := by
  simp only [decode, Json.document, Json.bind_eq_ok, Prod.exists] at h
  obtain ⟨c', t, h, hend⟩ := h
  split at hend <;> cases hend
  unfold read at h
  split at h
  · cases h
  · simp only [Json.bind_eq_ok, Prod.exists] at h
    obtain ⟨d, s, hm, c'', hf, h⟩ := h
    cases h
    obtain ⟨ms, -, hfold⟩ := (Json.members_eq_ok handles_member).mp hm
    exact sound_spelled (foldMembers_finish.mp ⟨d, hfold, hf⟩)
  · exact sound_fromItems h
  · cases h

end Decoded

/-- The wire text gives the command back, in all that it holds and in its order. An object is a
map, so that no name comes twice in one. -/
theorem codec_round_trip :
    (∀ (c : Command) (t : String), c.payload.Exact 126 → c.encode = .ok t → decode t = .ok c) ∧
    (∀ (c₁ c₂ : Command) (t : String), c₁.payload.Exact 126 → c₂.payload.Exact 126 →
      c₁.encode = .ok t → c₂.encode = .ok t → c₁ = c₂) ∧
    (∀ (text : String) (c : Command) (t : String), decode text = .ok c → c.payload.Whole →
      c.encode = .ok t → decode t = .ok c) := by
  have hback : ∀ (c : Command) (t : String), c.payload.Exact 126 → c.encode = .ok t →
      decode t = .ok c := by
    intro c t hv ht
    rw [encode_eq_ok ht]
    exact decode_text hv
  refine ⟨hback, fun c₁ c₂ t hv₁ hv₂ h₁ h₂ => ?_, fun text c t hd hv ht => ?_⟩
  · have hboth := (hback c₁ t hv₁ h₁).symm.trans (hback c₂ t hv₂ h₂)
    exact Except.ok.inj hboth
  · obtain ⟨hnests, hdistinct⟩ := sound_decode hd
    exact hback c t ⟨hv, hdistinct, hnests⟩ ht

section Ratio

/-- A command of no known kind. -/
def ratio : Command :=
  ⟨"RATIO", .object [("of", .array [.number (.integer 7), .number (.integer (-2))])]⟩

def ratioText : String := "\x7b\"type\":\"RATIO\",\"payload\":\x7b\"of\":[7,-2]\x7d\x7d"

theorem exact_ratio : ratio.payload.Exact 126 where
  whole n hn := by
    cases hn with
    | member hm hn =>
      rw [List.mem_singleton] at hm
      subst hm
      cases hn with
      | item hv hn =>
        simp only [List.mem_cons, List.not_mem_nil, or_false] at hv
        rcases hv with rfl | rfl <;> cases hn <;> exact ⟨_, rfl, by decide⟩
  distinct ms hms := by
    cases hms with
    | self => simp [Json.Members.names]
    | member hm hms =>
      rw [List.mem_singleton] at hm
      subst hm
      cases hms with
      | item hv hms =>
        simp only [List.mem_cons, List.not_mem_nil, or_false] at hv
        rcases hv with rfl | rfl <;> cases hms
  nests := by
    refine .object ?_
    simp only [List.mem_singleton, forall_eq]
    refine .array ?_
    simp only [List.mem_cons, List.not_mem_nil, or_false, forall_eq_or_imp, forall_eq]
    exact ⟨.number, .number⟩

theorem codec_round_trip_ratio :
    (ratio.payload.Exact 126 ∧ ratio.encode = .ok ratioText ∧ decode ratioText = .ok ratio) ∧
      decode "[\"RATIO\", \x7b\"of\" : [7, -2]\x7d]" = .ok ratio ∧ ratio.payload.Whole ∧
      decode ratioText = .ok ratio := by
  have hencode : ratio.encode = .ok ratioText := rfl
  have hitems : decode "[\"RATIO\", \x7b\"of\" : [7, -2]\x7d]" = .ok ratio := rfl
  obtain ⟨hback, -, hagain⟩ := codec_round_trip
  exact ⟨⟨exact_ratio, hencode, hback _ _ exact_ratio hencode⟩, hitems, exact_ratio.whole,
    hagain _ _ _ hitems exact_ratio.whole hencode⟩

end Ratio

end TwinLink.Command
