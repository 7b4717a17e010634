import TwinLink.Proofs.Json.Reading

/-! Readers of one kind of value, and passing over a value of any kind. A reader of one kind
accepts what the reader of all values accepts, as far as it can pick what it wants from the value.
Passing over accepts every document, whatever its numbers and surrogates are and however deep its
brackets nest: its fuel is the length of the text. -/

namespace TwinLink.Json

variable {α : Type} {s t u : List Char} {depth fuel : Nat}

namespace Value

/-- A whole number that is not negative. -/
def natural? : Value → Option Nat
  | .number (.integer (.ofNat n)) => some n
  | _ => none

def string? : Value → Option String
  | .string s => some s
  | _ => none

def optional? (pick : Value → Option α) : Value → Option (Option α)
  | .null => some none
  | v => (pick v).map some

end Value

theorem value_skipBlanks : value depth (skipBlanks s) = value depth s := by
  unfold value
  rw [skipBlanks_idem]

/-- `item` reads a value and picks something from it. -/
def Picks (depth : Nat) (item : Read α) (pick : Value → Option α) : Prop :=
  ∀ s a t, item s = .ok (a, t) ↔ ∃ v, value depth s = .ok (v, t) ∧ pick v = some a

theorem Picks.reads {item : Read α} {pick : Value → Option α} (h : Picks depth item pick) :
    Reads item fun d => (d.value? depth).bind pick where
  sound hi := by
    obtain ⟨v, hv, ha⟩ := (h _ _ _).mp hi
    obtain ⟨d, hd, hmeaning⟩ := (value_reads depth).sound hv
    exact ⟨d, hd, by rw [hmeaning, Option.bind_some, ha]⟩
  complete hd ht hmeaning := by
    obtain ⟨v, hv, ha⟩ := Option.bind_eq_some_iff.mp hmeaning
    exact (h _ _ _).mpr ⟨v, (value_reads depth).complete hd ht hv, ha⟩

section Natural

variable {r : Except Fault (Number × List Char)} {n : Nat}

theorem Value.natural?_eq_some {v : Value} :
    v.natural? = some n ↔ v = .number (.integer (.ofNat n)) := by
  unfold natural?
  split
  · exact ⟨fun h => by cases h; rfl, fun h => by cases h; rfl⟩
  · next hne =>
    constructor
    · intro h
      cases h
    · intro h
      exact absurd h (hne n)

theorem toNatural_eq_ok : (do match ← r with
      | (.integer (.ofNat n), s) => .ok (n, s)
      | (.integer n, _) => .error (.invalidValue (.number (.integer n)) "u64")
      | (n, _) => .error (.invalidType (.number n) "u64")) = .ok (n, t) ↔
    r = .ok (.integer (.ofNat n), t) := by
  rw [bind_eq_ok]
  constructor
  · rintro ⟨x, rfl, h⟩
    split at h <;> cases h
    rfl
  · rintro rfl
    exact ⟨_, rfl, rfl⟩

theorem map_number_eq_ok : (∃ v, r.map (fun r => (Value.number r.1, r.2)) = .ok (v, t) ∧
    v.natural? = some n) ↔ r = .ok (.integer (.ofNat n), t) := by
  simp only [map_eq_ok, Value.natural?_eq_some]
  constructor
  · rintro ⟨_, ⟨⟨x, u⟩, rfl, h⟩, rfl⟩
    cases h
    rfl
  · rintro rfl
    exact ⟨_, ⟨_, rfl, rfl⟩, rfl⟩

/-- A number begins with its sign or with a digit. -/
theorem value_number_starts {x : Number} (h : value depth s = .ok (.number x, t)) :
    ∃ c u, skipBlanks s = c :: u ∧ (c = '-' ∨ c.isDigit = true) := by
  obtain ⟨d, hd, hv⟩ := (value_reads depth).sound h
  cases d with
  | number l =>
    cases hd with
    | number hl hs =>
      obtain ⟨c, u, hc, hstart⟩ := Numeral.chars_starts hl
      exact ⟨c, u ++ t, by rw [hs, hc, List.cons_append], hstart⟩
  | _ => cases depth <;> simp [Document.value?] at hv

theorem natural_picks : Picks depth natural Value.natural? := by
  intro s n t
  unfold natural
  simp only
  split
  · next hs => simp [value, hs]
  · next u hs =>
    simp only [value, hs]
    exact toNatural_eq_ok.trans map_number_eq_ok.symm
  · next c u hc hs =>
    by_cases hdigit : c.isDigit = true
    · rw [if_pos hdigit, value_digit hs hdigit]
      exact toNatural_eq_ok.trans map_number_eq_ok.symm
    · rw [if_neg hdigit]
      constructor
      · intro h
        cases h
      · rintro ⟨v, hv, hn⟩
        rw [Value.natural?_eq_some.mp hn] at hv
        obtain ⟨c', u', hs', hc' | hc'⟩ := value_number_starts hv
        · exact absurd ((List.cons.inj (hs.symm.trans hs')).1.trans hc') hc
        · rw [← (List.cons.inj (hs.symm.trans hs')).1] at hc'
          exact absurd hc' hdigit

end Natural

theorem Value.optional?_eq_some {pick : Value → Option α} {v : Value} {o : Option α}
    (hnull : pick .null = none) (h : v.optional? pick = some o) : o = pick v := by
  cases v with
  | null =>
    cases h
    exact hnull.symm
  | _ =>
    obtain ⟨x, hx, rfl⟩ := Option.map_eq_some_iff.mp h
    exact hx.symm

theorem Value.exists_optional?_iff {pick : Value → Option α} {v : Value} :
    (∃ o, v.optional? pick = some o) ↔ v = .null ∨ (pick v).isSome := by
  rw [← Option.isSome_iff_exists]
  cases v <;> simp [optional?]

theorem value_null_starts (h : value depth s = .ok (.null, t)) : ∃ u, skipBlanks s = 'n' :: u := by
  obtain ⟨d, hd, hv⟩ := (value_reads depth).sound h
  cases d with
  | null =>
    generalize skipBlanks s = u at hd
    cases hd
    exact ⟨_, rfl⟩
  | number l =>
    rw [Document.value?, Option.map_eq_some_iff] at hv
    obtain ⟨n, -, hv⟩ := hv
    cases hv
  | string ps =>
    rw [Document.value?, Option.map_eq_some_iff] at hv
    obtain ⟨n, -, hv⟩ := hv
    cases hv
  | _ => cases depth <;> simp [Document.value?] at hv

theorem Picks.optional {item : Read α} {pick : Value → Option α} (h : Picks depth item pick) :
    Picks depth (optional item) (Value.optional? pick) := by
  intro s a t
  unfold Json.optional
  split
  · next u hs =>
    simp only [value, hs, map_eq_ok, Prod.mk.injEq]
    constructor
    · rintro ⟨_, hu, rfl, rfl⟩
      exact ⟨.null, ⟨_, hu, rfl, rfl⟩, rfl⟩
    · rintro ⟨_, ⟨_, hu, rfl, rfl⟩, ha⟩
      cases ha
      exact ⟨_, hu, rfl, rfl⟩
  · next hne =>
    have hpick : ∀ v, value depth s = .ok (v, t) → v.optional? pick = (pick v).map some := by
      intro v hv
      cases v with
      | null =>
        obtain ⟨u, hs⟩ := value_null_starts hv
        exact absurd hs (hne u)
      | _ => rfl
    rw [map_eq_ok]
    constructor
    · rintro ⟨⟨x, u⟩, hx, hr⟩
      cases hr
      obtain ⟨v, hv, ha⟩ := (h _ _ _).mp hx
      rw [value_skipBlanks] at hv
      exact ⟨v, hv, by rw [hpick v hv, ha, Option.map_some]⟩
    · rintro ⟨v, hv, ha⟩
      rw [hpick v hv, Option.map_eq_some_iff] at ha
      obtain ⟨x, hx, rfl⟩ := ha
      exact ⟨(x, t), (h _ _ _).mpr ⟨v, value_skipBlanks.trans hv, hx⟩, rfl⟩

theorem string_picks : Picks depth string Value.string? := by
  intro s a t
  unfold string value
  generalize skipBlanks s = u
  split
  · simp [map_eq_ok, Value.string?]
  · next hne =>
    constructor
    · intro h
      cases h
    · rintro ⟨v, hv, ha⟩
      split at hv
      case h_5 u => exact absurd rfl (hne u)
      case h_7 | h_8 | h_9 =>
        split at hv <;> first
        | cases hv
        | obtain ⟨n, -, h⟩ := map_eq_ok.mp hv
          cases h
          cases ha
      all_goals
        first
        | cases hv
        | obtain ⟨n, -, h⟩ := map_eq_ok.mp hv
          cases h
          cases ha

namespace Document

variable {d : Document} {v : Value}

/-- A value shows what kind of document it comes from. -/
structure SameKind (d : Document) (v : Value) : Prop where
  null : v = .null ↔ d = .null
  number : (∃ n, v = .number n) ↔ ∃ l, d = .number l
  string : (∃ x, v = .string x) ↔ ∃ ps, d = .string ps
  object : (∃ members, v = .object members) ↔ ∃ ms, d = .object ms

theorem sameKind_of_value? (h : d.value? depth = some v) : SameKind d v := by
  cases d with
  | array ds =>
    cases depth with
    | zero => simp [value?] at h
    | succ depth =>
      rw [value?, Option.map_eq_some_iff] at h
      obtain ⟨vs, -, rfl⟩ := h
      constructor <;> simp
  | object ms =>
    cases depth with
    | zero => simp [value?] at h
    | succ depth =>
      rw [value?, Option.map_eq_some_iff] at h
      obtain ⟨members, -, rfl⟩ := h
      constructor <;> simp
  | number l =>
    rw [value?, Option.map_eq_some_iff] at h
    obtain ⟨n, -, rfl⟩ := h
    constructor <;> simp
  | string ps =>
    rw [value?, Option.map_eq_some_iff] at h
    obtain ⟨x, -, rfl⟩ := h
    constructor <;> simp
  | _ =>
    rw [value?, Option.some.injEq] at h
    subst h
    constructor <;> simp

theorem value?_eq_string {x : String} : (d.value? depth).bind Value.string? = some x ↔
    ∃ ps, d = .string ps ∧ Quoted.text? ps = some x := by
  constructor
  · intro h
    obtain ⟨v, hv, hx⟩ := Option.bind_eq_some_iff.mp h
    unfold Value.string? at hx
    split at hx <;> cases hx
    obtain ⟨ps, rfl⟩ := (sameKind_of_value? hv).string.mp ⟨x, rfl⟩
    rw [value?, Option.map_eq_some_iff] at hv
    obtain ⟨x', hx', hv⟩ := hv
    cases hv
    exact ⟨ps, rfl, hx'⟩
  · rintro ⟨ps, rfl, hx⟩
    rw [value?, hx]
    rfl

theorem value?_eq_natural {n : Nat} : (d.value? depth).bind Value.natural? = some n ↔
    ∃ l, d = .number l ∧ l.number? = some (.integer (.ofNat n)) := by
  constructor
  · intro h
    obtain ⟨v, hv, hn⟩ := Option.bind_eq_some_iff.mp h
    rw [Value.natural?_eq_some.mp hn] at hv
    obtain ⟨l, rfl⟩ := (sameKind_of_value? hv).number.mp ⟨_, rfl⟩
    rw [value?, Option.map_eq_some_iff] at hv
    obtain ⟨n', hn', hv⟩ := hv
    cases hv
    exact ⟨l, rfl, hn'⟩
  · rintro ⟨l, rfl, hn⟩
    rw [value?, hn]
    rfl

end Document

namespace Skip

variable {ds : List Document} {ms : List (List Piece × Document)}

theorem valueFrom_items {c : Char} (hs : skipBlanks s = '[' :: t) (ht : skipBlanks t = c :: u)
    (hc : c ≠ ']') :
    valueFrom (fuel + 1) s = valueFrom fuel (c :: u) >>= itemsFrom fuel := by
  simp only [valueFrom, hs, ht]
  split
  · next heq => cases heq
  · next heq => exact absurd (List.cons.inj heq).1 hc
  · rfl

theorem valueFrom_members {c : Char} (hs : skipBlanks s = '{' :: t) (ht : skipBlanks t = c :: u)
    (hc : c ≠ '}') : valueFrom (fuel + 1) s =
      name (c :: u) >>= fun x => valueFrom fuel x >>= membersFrom fuel := by
  simp only [valueFrom, hs, ht]
  split
  · next heq => cases heq
  · next heq => exact absurd (List.cons.inj heq).1 hc
  · rfl

theorem name_eq_ok : name s = .ok t ↔ ∃ ps s₁ s₂, skipBlanks s = '"' :: s₁ ∧
    Quoted.Spells ps s₁ s₂ ∧ skipBlanks s₂ = ':' :: t := by
  unfold name
  constructor
  · intro h
    split at h
    · next s₁ hs =>
      obtain ⟨s₂, hskip, hcolon⟩ := bind_eq_ok.mp h
      obtain ⟨ps, hps⟩ := Quoted.skip_eq_ok.mp hskip
      exact ⟨ps, s₁, s₂, hs, hps, colon_eq_ok.mp hcolon⟩
    · cases h
    · cases h
  · rintro ⟨ps, s₁, s₂, hs, hps, hcolon⟩
    simp only [hs]
    exact bind_eq_ok.mpr ⟨s₂, Quoted.skip_eq_ok.mpr ⟨ps, hps⟩, colon_eq_ok.mpr hcolon⟩

theorem name_entry {s₁ : List Char} {d : Document} (hname : name s = .ok s₁)
    (hd : d.Spells (skipBlanks s₁) t) :
    ∃ ps, Entry Document.Spells (ps, d) (skipBlanks s) t := by
  obtain ⟨ps, s₂, s₃, hs, hps, hcolon⟩ := name_eq_ok.mp hname
  exact ⟨ps, hs ▸ .mk hps hcolon hd⟩

theorem name_skipBlanks : name (skipBlanks s) = name s := by
  unfold name
  rw [skipBlanks_idem]

/-- The three mutual readers with one fuel accept values and what follows a first element. -/
structure Sound (fuel : Nat) : Prop where
  value : ∀ s t, valueFrom fuel s = .ok t → ∃ d : Document, d.Spells (skipBlanks s) t
  items : ∀ s t, itemsFrom fuel s = .ok t → ∃ ds, More Document.Spells ']' ds s t
  members : ∀ s t, membersFrom fuel s = .ok t → ∃ ms, More (Entry Document.Spells) '}' ms s t

theorem Sound.items_succ (h : Sound fuel) (hs : itemsFrom (fuel + 1) s = .ok t) :
    ∃ ds, More Document.Spells ']' ds s t := by
  unfold itemsFrom at hs
  split at hs
  · cases hs
  · next hclose =>
    cases hs
    exact ⟨[], .close hclose⟩
  · next s₁ hcomma =>
    obtain ⟨s₂, hv, hrest⟩ := bind_eq_ok.mp hs
    obtain ⟨d, hd⟩ := h.value _ _ hv
    obtain ⟨ds, hds⟩ := h.items _ _ hrest
    exact ⟨d :: ds, .next hcomma hd hds⟩
  · cases hs

theorem Sound.members_succ (h : Sound fuel) (hs : membersFrom (fuel + 1) s = .ok t) :
    ∃ ms, More (Entry Document.Spells) '}' ms s t := by
  unfold membersFrom at hs
  split at hs
  · cases hs
  · next hclose =>
    cases hs
    exact ⟨[], .close hclose⟩
  · next s₁ hcomma =>
    simp only [bind_eq_ok] at hs
    obtain ⟨s₂, hname, s₃, hv, hrest⟩ := hs
    obtain ⟨d, hd⟩ := h.value _ _ hv
    obtain ⟨ps, hentry⟩ := name_entry hname hd
    obtain ⟨ms, hms⟩ := h.members _ _ hrest
    exact ⟨(ps, d) :: ms, .next hcomma hentry hms⟩
  · cases hs

theorem Sound.value_succ (h : Sound fuel) (hs : valueFrom (fuel + 1) s = .ok t) :
    ∃ d : Document, d.Spells (skipBlanks s) t := by
  unfold valueFrom at hs
  split at hs
  · cases hs
  · next hblank =>
    obtain rfl := ident_eq_ok.mp hs
    exact ⟨.null, hblank ▸ .null⟩
  · next hblank =>
    obtain rfl := ident_eq_ok.mp hs
    exact ⟨.bool true, hblank ▸ .isTrue⟩
  · next hblank =>
    obtain rfl := ident_eq_ok.mp hs
    exact ⟨.bool false, hblank ▸ .isFalse⟩
  · next hblank =>
    obtain ⟨ps, hps⟩ := Quoted.skip_eq_ok.mp hs
    exact ⟨.string ps, hblank ▸ .string hps⟩
  · next hblank =>
    obtain ⟨l, hl, hneg, rfl⟩ := number_sound true hs
    refine ⟨.number l, .number hl ?_⟩
    rw [hblank, Numeral.chars, hneg, if_pos rfl, List.cons_append]
  · next s₁ hblank =>
    split at hs
    · cases hs
    · next hclose =>
      cases hs
      exact ⟨.array [], hblank ▸ .array (.empty hclose)⟩
    · obtain ⟨s₂, hv, hrest⟩ := bind_eq_ok.mp hs
      obtain ⟨d, hd⟩ := h.value _ _ hv
      obtain ⟨ds, hds⟩ := h.items _ _ hrest
      rw [skipBlanks_idem] at hd
      exact ⟨.array (d :: ds), hblank ▸ .array (.first hd hds)⟩
  · next s₁ hblank =>
    split at hs
    · cases hs
    · next hclose =>
      cases hs
      exact ⟨.object [], hblank ▸ .object (.empty hclose)⟩
    · simp only [bind_eq_ok] at hs
      obtain ⟨s₂, hname, s₃, hv, hrest⟩ := hs
      obtain ⟨d, hd⟩ := h.value _ _ hv
      obtain ⟨ps, hentry⟩ := name_entry hname hd
      obtain ⟨ms, hms⟩ := h.members _ _ hrest
      rw [skipBlanks_idem] at hentry
      exact ⟨.object ((ps, d) :: ms), hblank ▸ .object (.first hentry hms)⟩
  · next c u _ _ _ _ _ _ _ hblank =>
    split at hs
    · obtain ⟨l, hl, hneg, hu⟩ := number_sound false hs
      refine ⟨.number l, .number hl ?_⟩
      rw [hblank, Numeral.chars, hneg, if_neg (by simp), hu]
    · cases hs

theorem sound (fuel : Nat) : Sound fuel := by
  induction fuel with
  | zero =>
    constructor <;>
    · intro s t h
      cases h
  | succ fuel ih =>
    exact ⟨fun _ _ => ih.value_succ, fun _ _ => ih.items_succ, fun _ _ => ih.members_succ⟩

/-- A document is passed over if the fuel exceeds the length of the text before it. -/
def Passed (d : Document) : Prop := ∀ {fuel s t}, d.Spells (skipBlanks s) t → Delimited t →
  s.length < fuel → valueFrom fuel s = .ok t

theorem itemsFrom_complete (hds : ∀ d ∈ ds, Passed d) (h : More Document.Spells ']' ds s t)
    (hf : s.length < fuel) : itemsFrom fuel s = .ok t := by
  induction h generalizing fuel with
  | close h =>
    obtain ⟨fuel, rfl⟩ := Nat.exists_eq_succ_of_ne_zero (show fuel ≠ 0 by omega)
    simp only [itemsFrom, h]
  | @next d ds s s₁ s₂ t h hd hmore ih =>
    have hlt := length_lt_of_skipBlanks h
    have hblanks := length_skipBlanks_le s₁
    have hlen := hd.length_lt
    obtain ⟨fuel, rfl⟩ := Nat.exists_eq_succ_of_ne_zero (show fuel ≠ 0 by omega)
    have hv := hds d (List.mem_cons_self ..) hd (hmore.delimited (by decide))
      (show s₁.length < fuel by omega)
    have hrest := ih (fun e he => hds e (List.mem_cons_of_mem _ he))
      (show s₂.length < fuel by omega)
    simp only [itemsFrom, h]
    exact bind_eq_ok.mpr ⟨s₂, hv, hrest⟩

theorem entry_complete {ps : List Piece} {d : Document} (hd : Passed d)
    (h : Entry Document.Spells (ps, d) (skipBlanks s) t) (ht : Delimited t)
    (hf : s.length < fuel + 1) :
    ∃ s₁, name s = .ok s₁ ∧ valueFrom fuel s₁ = .ok t := by
  have hblanks := length_skipBlanks_le s
  generalize hs : skipBlanks s = u at h hblanks
  cases h with
  | @mk _ _ s₁ s₂ s₃ _ hn hcolon hx =>
    have hname := hn.length_lt
    have hlt := length_lt_of_skipBlanks hcolon
    rw [List.length_cons] at hblanks
    exact ⟨s₃, name_eq_ok.mpr ⟨ps, s₁, s₂, hs, hn, hcolon⟩, hd hx ht (by omega)⟩

theorem membersFrom_complete (hms : ∀ m ∈ ms, Passed m.2)
    (h : More (Entry Document.Spells) '}' ms s t) (hf : s.length < fuel) :
    membersFrom fuel s = .ok t := by
  induction h generalizing fuel with
  | close h =>
    obtain ⟨fuel, rfl⟩ := Nat.exists_eq_succ_of_ne_zero (show fuel ≠ 0 by omega)
    simp only [membersFrom, h]
  | @next m ms s s₁ s₂ t h hm hmore ih =>
    have hlt := length_lt_of_skipBlanks h
    have hblanks := length_skipBlanks_le s₁
    have hlen := hm.length_lt fun s t => Document.Spells.length_lt
    obtain ⟨fuel, rfl⟩ := Nat.exists_eq_succ_of_ne_zero (show fuel ≠ 0 by omega)
    obtain ⟨s₃, hname, hv⟩ := entry_complete (hms m (List.mem_cons_self ..)) hm
      (hmore.delimited (by decide)) (show s₁.length < fuel + 1 by omega)
    have hrest := ih (fun e he => hms e (List.mem_cons_of_mem _ he))
      (show s₂.length < fuel by omega)
    simp only [membersFrom, h, bind_eq_ok]
    exact ⟨s₃, hname, s₂, hv, hrest⟩

theorem number_passed {l : Numeral} (hl : l.WellFormed) (hs : skipBlanks s = l.chars ++ t)
    (ht : Delimited t) : valueFrom (fuel + 1) s = .ok t := by
  rw [Numeral.chars] at hs
  split at hs
  · rw [List.cons_append] at hs
    simp only [valueFrom, hs]
    exact number_complete hl ht
  · have hnumber := number_complete hl ht
    obtain ⟨d, ds, hd⟩ := List.exists_cons_of_ne_nil hl.whole.1
    have hdigit : d.isDigit = true := hl.whole.2 d (by simp [hd])
    have hu : l.unsigned ++ t = d :: (ds ++ l.tail ++ t) := by simp [Numeral.unsigned, hd]
    rw [hu] at hs hnumber
    unfold valueFrom
    rw [hs]
    split
    case h_9 heq =>
      cases heq
      rw [if_pos hdigit, hnumber]
    all_goals
      next heq => first
        | cases heq
          cases hdigit
        | cases heq

theorem items_passed (hds : ∀ d ∈ ds, Passed d) {s₁ : List Char} (hs : skipBlanks s = '[' :: s₁)
    (h : Listed Document.Spells ']' ds s₁ t) (hf : s.length < fuel + 1) :
    valueFrom (fuel + 1) s = .ok t := by
  have hlt := length_lt_of_skipBlanks hs
  cases h with
  | empty h => simp only [valueFrom, hs, h]
  | @first d ds _ s₂ _ hd hmore =>
    have hlen := hd.length_lt
    have hblanks := length_skipBlanks_le s₁
    have hv := hds d (List.mem_cons_self ..) (skipBlanks_idem.symm ▸ hd)
      (hmore.delimited (by decide)) (show (skipBlanks s₁).length < fuel by omega)
    have hrest := itemsFrom_complete (fun e he => hds e (List.mem_cons_of_mem _ he)) hmore
      (show s₂.length < fuel by omega)
    obtain ⟨c, u, hc, hdelim⟩ := hd.starts
    rw [valueFrom_items hs hc (by rintro rfl; cases hdelim), ← hc, bind_eq_ok]
    exact ⟨s₂, hv, hrest⟩

theorem members_passed (hms : ∀ m ∈ ms, Passed m.2) {s₁ : List Char}
    (hs : skipBlanks s = '{' :: s₁) (h : Listed (Entry Document.Spells) '}' ms s₁ t)
    (hf : s.length < fuel + 1) : valueFrom (fuel + 1) s = .ok t := by
  have hlt := length_lt_of_skipBlanks hs
  cases h with
  | empty h => simp only [valueFrom, hs, h]
  | @first m ms _ s₂ _ hm hmore =>
    have hlen := hm.length_lt fun s t => Document.Spells.length_lt
    have hblanks := length_skipBlanks_le s₁
    obtain ⟨s₃, hname, hv⟩ := entry_complete (hms m (List.mem_cons_self ..)) hm
      (hmore.delimited (by decide)) (show s₁.length < fuel + 1 by omega)
    have hrest := membersFrom_complete (fun e he => hms e (List.mem_cons_of_mem _ he)) hmore
      (show s₂.length < fuel by omega)
    obtain ⟨ps, s₄, s₅, hquote, -, -⟩ := name_eq_ok.mp hname
    rw [valueFrom_members hs hquote (by decide), ← hquote, name_skipBlanks, bind_eq_ok]
    exact ⟨s₃, hname, bind_eq_ok.mpr ⟨s₂, hv, hrest⟩⟩

theorem passed (d : Document) : Passed d := by
  induction d using Document.induction
  all_goals
    intro fuel s t h ht hf
    obtain ⟨fuel, rfl⟩ := Nat.exists_eq_succ_of_ne_zero (show fuel ≠ 0 by omega)
    generalize hs : skipBlanks s = u at h
  case null =>
    cases h
    simp only [valueFrom, hs]
    exact ident_eq_ok.mpr rfl
  case bool b =>
    cases h <;> simp only [valueFrom, hs] <;> exact ident_eq_ok.mpr rfl
  case number l =>
    cases h with
    | number hl hu => exact number_passed hl (hs.trans hu) ht
  case string ps =>
    cases h with
    | string h =>
      simp only [valueFrom, hs]
      exact Quoted.skip_eq_ok.mpr ⟨ps, h⟩
  case array ds ih =>
    cases h with
    | array h => exact items_passed ih hs h hf
  case object ms ih =>
    cases h with
    | object h => exact members_passed ih hs h hf

theorem value_eq_ok (ht : Delimited t) :
    value s = .ok t ↔ ∃ d : Document, d.Spells (skipBlanks s) t :=
  ⟨(sound _).value s t, fun ⟨d, hd⟩ => passed d hd ht (by omega)⟩

end Skip

end TwinLink.Json
