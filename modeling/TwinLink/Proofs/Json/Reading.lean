import TwinLink.Proofs.Json.Numerals

/-! Reading documents. A reader of values meets the grammar on both sides: what it accepts is the
text of a document that has a value within its limits, and every such text is accepted if a
delimiter follows. `Reads` states this for any reader of one value and `Takes` for what a reader of
objects does behind a name; lists and objects are read right if their items and members are. -/

namespace TwinLink.Json

variable {c : Char} {s t u : List Char}

section Blanks

theorem skipBlanks_cons (h : isBlank c = false) : skipBlanks (c :: s) = c :: s :=
  List.dropWhile_cons_of_neg (by simp [h])

theorem not_isBlank_of_skipBlanks (h : skipBlanks s = c :: t) : isBlank c = false := by
  have hnot := List.head?_dropWhile_not isBlank s
  rw [show s.dropWhile isBlank = c :: t from h] at hnot
  simpa using hnot

theorem skipBlanks_idem : skipBlanks (skipBlanks s) = skipBlanks s := by
  cases h : skipBlanks s with
  | nil => rfl
  | cons c t => exact skipBlanks_cons (not_isBlank_of_skipBlanks h)

theorem isDelimiter_of_isBlank (h : isBlank c = true) : isDelimiter c = true := by
  simp [isDelimiter, h]

/-- Blanks and a delimiter, or blanks alone, begin with a delimiter. -/
theorem delimited_of_skipBlanks (h : ∀ c ∈ (skipBlanks s).head?, isDelimiter c = true) :
    Delimited s := by
  intro c hc
  obtain ⟨u, rfl⟩ := List.head?_eq_some_iff.mp hc
  by_cases hb : isBlank c = true
  · exact isDelimiter_of_isBlank hb
  · refine h c ?_
    rw [skipBlanks_cons (by simpa using hb)]
    rfl

theorem Delimited.of_isDelimiter (hc : isDelimiter c = true) (h : skipBlanks s = c :: t) :
    Delimited s := by
  refine delimited_of_skipBlanks fun d hd => ?_
  rw [h] at hd
  cases hd
  exact hc

theorem Delimited.of_nil (h : skipBlanks s = []) : Delimited s := by
  refine delimited_of_skipBlanks fun d hd => ?_
  rw [h] at hd
  cases hd

end Blanks

theorem length_skipBlanks_le (s : List Char) : (skipBlanks s).length ≤ s.length :=
  (List.dropWhile_suffix isBlank).length_le

theorem length_lt_of_skipBlanks (h : skipBlanks s = c :: t) : t.length < s.length := by
  have := length_skipBlanks_le s
  rw [h] at this
  exact this

theorem ident_eq_ok {word : List Char} : ident word s = .ok t ↔ s = word ++ t := by
  induction word generalizing s with
  | nil => simp [ident]
  | cons w word ih =>
    rcases s with _ | ⟨c, s⟩
    · simp [ident]
    · by_cases h : w = c
      · simp [ident, h, ih]
      · simp [ident, h, Ne.symm h]

namespace Numeral

variable {l : Numeral}

theorem chars_starts (hl : l.WellFormed) :
    ∃ c u, l.chars = c :: u ∧ (c = '-' ∨ c.isDigit = true) := by
  obtain ⟨d, ds, hd⟩ := List.exists_cons_of_ne_nil hl.whole.1
  have hdigit := hl.whole.2 d (by simp [hd])
  rw [chars]
  split
  · exact ⟨'-', _, rfl, .inl rfl⟩
  · exact ⟨d, ds ++ l.tail, by rw [unsigned, hd, List.cons_append], .inr hdigit⟩

end Numeral

section Lists

variable {α : Type} {R : α → List Char → List Char → Prop} {close : Char} {x : α} {xs : List α}

theorem More.delimited (hclose : isDelimiter close = true) (h : More R close xs s t) :
    Delimited s := by
  cases h with
  | close h => exact .of_isDelimiter hclose h
  | next h => exact .of_isDelimiter (by decide) h

theorem More.length_lt (hR : ∀ x ∈ xs, ∀ s t, R x s t → t.length < s.length)
    (h : More R close xs s t) : t.length < s.length := by
  induction h with
  | close h => exact length_lt_of_skipBlanks h
  | @next x xs s s₁ s₂ t h hx _ ih =>
    have hs := length_lt_of_skipBlanks h
    have hblanks := length_skipBlanks_le s₁
    have hitem := hR x (List.mem_cons_self ..) _ _ hx
    have hmore := ih fun y hy => hR y (List.mem_cons_of_mem _ hy)
    omega

theorem Listed.length_lt (hR : ∀ x ∈ xs, ∀ s t, R x s t → t.length < s.length)
    (h : Listed R close xs s t) : t.length < s.length := by
  cases h with
  | empty h => exact length_lt_of_skipBlanks h
  | first hx hxs =>
    have hblanks := length_skipBlanks_le s
    have hitem := hR _ (List.mem_cons_self ..) _ _ hx
    have hmore := hxs.length_lt fun y hy => hR y (List.mem_cons_of_mem _ hy)
    omega

theorem More.exists_of_mem (h : More R close xs s t) (hx : x ∈ xs) : ∃ s t, R x s t := by
  induction h with
  | close => cases hx
  | next _ hy _ ih =>
    rcases List.mem_cons.mp hx with rfl | hx
    · exact ⟨_, _, hy⟩
    · exact ih hx

theorem Listed.exists_of_mem (h : Listed R close xs s t) (hx : x ∈ xs) : ∃ s t, R x s t := by
  cases h with
  | empty => cases hx
  | first hy hmore =>
    rcases List.mem_cons.mp hx with rfl | hx
    · exact ⟨_, _, hy⟩
    · exact hmore.exists_of_mem hx

theorem Entry.length_lt {ps : List Piece} (hR : ∀ s t, R x s t → t.length < s.length)
    (h : Entry R (ps, x) s t) : t.length < s.length := by
  cases h with
  | @mk _ _ s s₁ s₂ _ hn h hx =>
    have hname := hn.length_lt
    have hcolon := length_lt_of_skipBlanks h
    have hblanks := length_skipBlanks_le s₂
    have hitem := hR _ _ hx
    rw [List.length_cons]
    omega

end Lists

namespace Document

variable {d : Document}

theorem Spells.length_lt (h : Spells d s t) : t.length < s.length := by
  induction d using Document.induction generalizing s t with
  | null =>
    cases h
    simp only [List.length_cons]
    omega
  | bool b =>
    cases h <;>
    · simp only [List.length_cons]
      omega
  | number l =>
    cases h with
    | number hl hs =>
      obtain ⟨c, u, hc, -⟩ := Numeral.chars_starts hl
      rw [hs, hc, List.cons_append, List.length_cons, List.length_append]
      omega
  | string ps =>
    cases h with
    | string h => exact Nat.lt_succ_of_lt h.length_lt
  | array ds ih =>
    cases h with
    | array h => exact Nat.lt_succ_of_lt (h.length_lt fun d hd s t => ih d hd)
  | object ms ih =>
    cases h with
    | object h =>
      refine Nat.lt_succ_of_lt (h.length_lt fun m hm s t => ?_)
      exact Entry.length_lt fun s t => ih m hm

/-- A value never begins with what may follow one. -/
theorem Spells.starts (h : Spells d s t) : ∃ c u, s = c :: u ∧ isDelimiter c = false := by
  cases h with
  | number hl hs =>
    obtain ⟨c, u, hc, hnum⟩ := Numeral.chars_starts hl
    refine ⟨c, u ++ t, by rw [hs, hc, List.cons_append], ?_⟩
    by_contra hd
    rcases isDelimiter_iff.mp (by simpa using hd) with rfl | rfl | rfl | rfl | rfl | rfl | rfl <;>
      simp at hnum
  | _ => exact ⟨_, _, rfl, by decide⟩

theorem Spells.skipBlanks_eq (h : Spells d s t) : skipBlanks s = s := by
  obtain ⟨c, u, rfl, hc⟩ := h.starts
  refine skipBlanks_cons ?_
  by_contra hb
  rw [isDelimiter_of_isBlank (by simpa using hb)] at hc
  cases hc

end Document

/-- `item` reads the documents of which `meaning?` makes something. -/
structure Reads {α : Type} (item : Read α) (meaning? : Document → Option α) : Prop where
  sound : ∀ {s t a}, item s = .ok (a, t) → ∃ d : Document, d.Spells (skipBlanks s) t ∧
    meaning? d = some a
  complete : ∀ {s t a} {d : Document}, d.Spells (skipBlanks s) t → Delimited t →
    meaning? d = some a → item s = .ok (a, t)

section Items

variable {α : Type} {item : Read α} {meaning? : Document → Option α} {fuel : Nat} {as : List α}
  {ds : List Document}

theorem mapM_cons_eq_some {d : Document} : (d :: ds).mapM meaning? = some as ↔
    ∃ a rest, meaning? d = some a ∧ ds.mapM meaning? = some rest ∧ as = a :: rest := by
  simp only [List.mapM_cons, Option.bind_eq_bind, Option.bind_eq_some_iff, Option.pure_def,
    Option.some.injEq]
  constructor
  · rintro ⟨a, ha, rest, hrest, rfl⟩
    exact ⟨a, rest, ha, hrest, rfl⟩
  · rintro ⟨a, rest, ha, hrest, rfl⟩
    exact ⟨a, ha, rest, hrest, rfl⟩

theorem moreItems_comma {s₁ : List Char} (h : skipBlanks s = ',' :: s₁)
    (hs : skipBlanks s₁ = c :: u) (hc : c ≠ ']') : moreItems item (fuel + 1) s =
      item (c :: u) >>= fun r => moreItems item fuel r.2 >>= fun q => .ok (r.1 :: q.1, q.2) := by
  simp only [moreItems, h, hs]
  split
  · next heq => cases heq
  · next heq => exact absurd (List.cons.inj heq).1 hc
  · rfl

theorem items_first (hs : skipBlanks s = c :: u) (hc : c ≠ ']') : items item s =
    item (c :: u) >>= fun r => moreItems item r.2.length r.2 >>= fun q =>
      .ok (r.1 :: q.1, q.2) := by
  simp only [items, hs]
  split
  · next heq => cases heq
  · next heq => exact absurd (List.cons.inj heq).1 hc
  · rfl

theorem moreItems_sound (hr : Reads item meaning?) (h : moreItems item fuel s = .ok (as, t)) :
    ∃ ds, More Document.Spells ']' ds s t ∧ ds.mapM meaning? = some as := by
  induction fuel generalizing s as with
  | zero => cases h
  | succ fuel ih =>
    unfold moreItems at h
    split at h
    · cases h
    · next hs =>
      cases h
      exact ⟨[], .close hs, rfl⟩
    · next s₁ hs =>
      split at h
      · cases h
      · cases h
      · simp only [bind_eq_ok, Prod.exists, Except.ok.injEq, Prod.mk.injEq] at h
        obtain ⟨a, s₂, hi, rest, s₃, hm, rfl, rfl⟩ := h
        obtain ⟨d, hd, ha⟩ := hr.sound hi
        obtain ⟨ds, hds, has⟩ := ih hm
        rw [skipBlanks_idem] at hd
        exact ⟨d :: ds, .next hs hd hds, mapM_cons_eq_some.mpr ⟨a, rest, ha, has, rfl⟩⟩
    · cases h

theorem moreItems_complete (hr : Reads item meaning?) (h : More Document.Spells ']' ds s t)
    (has : ds.mapM meaning? = some as) (hf : s.length ≤ fuel) :
    moreItems item fuel s = .ok (as, t) := by
  induction h generalizing as fuel with
  | close h =>
    have hlt := length_lt_of_skipBlanks h
    cases has
    obtain ⟨fuel, rfl⟩ := Nat.exists_eq_succ_of_ne_zero (show fuel ≠ 0 by omega)
    simp [moreItems, h]
  | @next d ds s s₁ s₂ t h hd hds ih =>
    have hlt := length_lt_of_skipBlanks h
    obtain ⟨a, rest, ha, hrest, rfl⟩ := mapM_cons_eq_some.mp has
    obtain ⟨fuel, rfl⟩ := Nat.exists_eq_succ_of_ne_zero (show fuel ≠ 0 by omega)
    have hlen := hd.length_lt
    have hblanks := length_skipBlanks_le s₁
    have hitem := hr.complete (skipBlanks_idem.symm ▸ hd) (hds.delimited (by decide)) ha
    have hmore := ih hrest (show s₂.length ≤ fuel by omega)
    obtain ⟨c, u, hs₁, hc⟩ := hd.starts
    rw [moreItems_comma h hs₁ (by rintro rfl; cases hc), ← hs₁, bind_eq_ok]
    exact ⟨_, hitem, bind_eq_ok.mpr ⟨_, hmore, rfl⟩⟩

/-- Items are read, and an array with them, if each one is. -/
theorem items_eq_ok (hr : Reads item meaning?) : items item s = .ok (as, t) ↔
    ∃ ds, Listed Document.Spells ']' ds s t ∧ ds.mapM meaning? = some as := by
  constructor
  · intro h
    unfold items at h
    split at h
    · cases h
    · next hs =>
      cases h
      exact ⟨[], .empty hs, rfl⟩
    · simp only [bind_eq_ok, Prod.exists, Except.ok.injEq, Prod.mk.injEq] at h
      obtain ⟨a, s₂, hi, rest, s₃, hm, rfl, rfl⟩ := h
      obtain ⟨d, hd, ha⟩ := hr.sound hi
      obtain ⟨ds, hds, has⟩ := moreItems_sound hr hm
      rw [skipBlanks_idem] at hd
      exact ⟨d :: ds, .first hd hds, mapM_cons_eq_some.mpr ⟨a, rest, ha, has, rfl⟩⟩
  · rintro ⟨ds, h, has⟩
    cases h with
    | empty h =>
      cases has
      simp [items, h]
    | first hd hds =>
      obtain ⟨a, rest, ha, hrest, rfl⟩ := mapM_cons_eq_some.mp has
      have hitem := hr.complete (skipBlanks_idem.symm ▸ hd) (hds.delimited (by decide)) ha
      have hmore := moreItems_complete hr hds hrest (Nat.le_refl _)
      obtain ⟨c, u, hs, hc⟩ := hd.starts
      rw [items_first hs (by rintro rfl; cases hc), ← hs, bind_eq_ok]
      exact ⟨_, hitem, bind_eq_ok.mpr ⟨_, hmore, rfl⟩⟩

end Items

/-- `item` reads a colon and a document of which `meaning?` makes something. -/
structure Takes {α : Type} (item : Read α) (meaning? : Document → Option α) : Prop where
  sound : ∀ {s t a}, item s = .ok (a, t) → ∃ (d : Document) (s₁ : List Char),
    skipBlanks s = ':' :: s₁ ∧ d.Spells (skipBlanks s₁) t ∧ meaning? d = some a
  complete : ∀ {s s₁ t a} {d : Document}, skipBlanks s = ':' :: s₁ → d.Spells (skipBlanks s₁) t →
    Delimited t → meaning? d = some a → item s = .ok (a, t)

/-- `member` takes what is under a name, and makes of it what `step` says. -/
def Handles {σ : Type} (member : σ → String → Read σ) (step : σ → String → Document → Option σ) :
    Prop := ∀ acc name, Takes (member acc name) (step acc name)

section Members

variable {σ : Type} {member : σ → String → Read σ} {step : σ → String → Document → Option σ}
  {acc acc' : σ} {fuel : Nat} {ps : List Piece} {d : Document}
  {ms : List (List Piece × Document)}

theorem foldMembers_cons : foldMembers step acc ((ps, d) :: ms) = some acc' ↔
    ∃ name mid, Quoted.text? ps = some name ∧ step acc name d = some mid ∧
      foldMembers step mid ms = some acc' := by
  simp only [foldMembers, List.foldlM_cons, Option.bind_eq_bind, Option.bind_eq_some_iff]
  constructor
  · rintro ⟨mid, ⟨name, hn, hs⟩, h⟩
    exact ⟨name, mid, hn, hs, h⟩
  · rintro ⟨name, mid, hn, hs, h⟩
    exact ⟨mid, ⟨name, hn, hs⟩, h⟩

theorem moreMembers_comma {s₁ : List Char} (h : skipBlanks s = ',' :: s₁)
    (hs : skipBlanks s₁ = '"' :: u) : moreMembers member (fuel + 1) acc s =
      Quoted.decode u >>= fun r => member acc r.1 r.2 >>= fun q =>
        moreMembers member fuel q.1 q.2 := by
  simp [moreMembers, h, hs]

theorem members_first (hs : skipBlanks s = '"' :: u) : members member acc s =
    Quoted.decode u >>= fun r => member acc r.1 r.2 >>= fun q =>
      moreMembers member q.2.length q.1 q.2 := by
  simp [members, hs]

theorem moreMembers_sound (hh : Handles member step)
    (h : moreMembers member fuel acc s = .ok (acc', t)) :
    ∃ ms, More (Entry Document.Spells) '}' ms s t ∧ foldMembers step acc ms = some acc' := by
  induction fuel generalizing s acc with
  | zero => cases h
  | succ fuel ih =>
    unfold moreMembers at h
    split at h
    · cases h
    · next hs =>
      cases h
      exact ⟨[], .close hs, rfl⟩
    · next s₁ hs =>
      split at h
      · next s₂ hs₁ =>
        simp only [bind_eq_ok, Prod.exists] at h
        obtain ⟨name, s₃, hn, mid, s₄, hm, h⟩ := h
        obtain ⟨ps, hps, hname⟩ := Quoted.decode_eq_ok.mp hn
        obtain ⟨d, s₅, hcolon, hd, hstep⟩ := (hh _ _).sound hm
        obtain ⟨ms, hms, hfold⟩ := ih h
        refine ⟨(ps, d) :: ms, .next hs ?_ hms, foldMembers_cons.mpr ⟨_, _, hname, hstep, hfold⟩⟩
        rw [hs₁]
        exact .mk hps hcolon hd
      · cases h
      · cases h
      · cases h
    · cases h

theorem moreMembers_complete (hh : Handles member step)
    (h : More (Entry Document.Spells) '}' ms s t) (hfold : foldMembers step acc ms = some acc')
    (hf : s.length ≤ fuel) : moreMembers member fuel acc s = .ok (acc', t) := by
  induction h generalizing acc fuel with
  | close h =>
    have hlt := length_lt_of_skipBlanks h
    cases hfold
    obtain ⟨fuel, rfl⟩ := Nat.exists_eq_succ_of_ne_zero (show fuel ≠ 0 by omega)
    simp [moreMembers, h]
  | @next m ms s s₁ s₂ t h hm hms ih =>
    obtain ⟨ps, d⟩ := m
    obtain ⟨name, mid, hname, hstep, hfold⟩ := foldMembers_cons.mp hfold
    have hlt := length_lt_of_skipBlanks h
    have hblanks := length_skipBlanks_le s₁
    have hlen := hm.length_lt fun s t => Document.Spells.length_lt
    obtain ⟨fuel, rfl⟩ := Nat.exists_eq_succ_of_ne_zero (show fuel ≠ 0 by omega)
    have hmore := ih hfold (show s₂.length ≤ fuel by omega)
    generalize hs₁ : skipBlanks s₁ = u at hm
    cases hm with
    | mk hn hcolon hd =>
      have hmember := (hh _ _).complete hcolon hd (hms.delimited (by decide)) hstep
      rw [moreMembers_comma h hs₁, bind_eq_ok]
      exact ⟨_, Quoted.decode_eq_ok.mpr ⟨ps, hn, hname⟩, bind_eq_ok.mpr ⟨_, hmember, hmore⟩⟩

/-- Members are read, and an object with them, if each one is handled. -/
theorem members_eq_ok (hh : Handles member step) : members member acc s = .ok (acc', t) ↔
    ∃ ms, Listed (Entry Document.Spells) '}' ms s t ∧ foldMembers step acc ms = some acc' := by
  constructor
  · intro h
    unfold members at h
    split at h
    · cases h
    · next hs =>
      cases h
      exact ⟨[], .empty hs, rfl⟩
    · next s₂ hs₁ =>
      simp only [bind_eq_ok, Prod.exists] at h
      obtain ⟨name, s₃, hn, mid, s₄, hm, h⟩ := h
      obtain ⟨ps, hps, hname⟩ := Quoted.decode_eq_ok.mp hn
      obtain ⟨d, s₅, hcolon, hd, hstep⟩ := (hh _ _).sound hm
      obtain ⟨ms, hms, hfold⟩ := moreMembers_sound hh h
      refine ⟨(ps, d) :: ms, .first ?_ hms, foldMembers_cons.mpr ⟨_, _, hname, hstep, hfold⟩⟩
      rw [hs₁]
      exact .mk hps hcolon hd
    · cases h
  · rintro ⟨ms, h, hfold⟩
    cases h with
    | empty h =>
      cases hfold
      simp [members, h]
    | @first m ms _ s₁ _ hm hms =>
      obtain ⟨ps, d⟩ := m
      obtain ⟨name, mid, hname, hstep, hfold⟩ := foldMembers_cons.mp hfold
      have hmore := moreMembers_complete hh hms hfold (Nat.le_refl _)
      generalize hs₁ : skipBlanks s = u at hm
      cases hm with
      | mk hn hcolon hd =>
        have hmember := (hh _ _).complete hcolon hd (hms.delimited (by decide)) hstep
        rw [members_first hs₁, bind_eq_ok]
        exact ⟨_, Quoted.decode_eq_ok.mpr ⟨ps, hn, hname⟩, bind_eq_ok.mpr ⟨_, hmember, hmore⟩⟩

theorem colon_eq_ok : colon s = .ok t ↔ skipBlanks s = ':' :: t := by
  unfold colon
  split
  · next h => simp [h]
  · next h => simp [h]
  · next hne hnil =>
    constructor
    · intro h
      cases h
    · intro h
      exact absurd h (hne t)

end Members

theorem Reads.takes {α σ : Type} {item : Read α} {meaning? : Document → Option α}
    (hr : Reads item meaning?) (put : α → σ) :
    Takes (fun s => do
        let (a, s) ← item (← colon s)
        .ok (put a, s))
      (fun d => (meaning? d).map put) where
  sound h := by
    simp only [bind_eq_ok, Prod.exists, Except.ok.injEq, Prod.mk.injEq] at h
    obtain ⟨s₁, hcolon, a, s₂, hi, rfl, rfl⟩ := h
    obtain ⟨d, hd, ha⟩ := hr.sound hi
    exact ⟨d, s₁, colon_eq_ok.mp hcolon, hd, by rw [ha, Option.map_some]⟩
  complete hcolon hd ht hstep := by
    obtain ⟨a, ha, rfl⟩ := Option.map_eq_some_iff.mp hstep
    simp only [bind_eq_ok, Prod.exists, Except.ok.injEq, Prod.mk.injEq]
    exact ⟨_, colon_eq_ok.mpr hcolon, _, _, hr.complete hd ht ha, rfl, rfl⟩

section Value

variable {depth : Nat}

theorem value_digit (hs : skipBlanks s = c :: u) (hc : c.isDigit = true) : value depth s =
    (Number.read false (c :: u)).map fun r => (Value.number r.1, r.2) := by
  unfold value
  rw [hs]
  split
  case h_9 heq =>
    cases heq
    rw [if_pos hc]
  all_goals
    next heq => first
      | cases heq
        cases hc
      | cases heq

/-- A number is read with its sign. -/
theorem value_number {l : Numeral} (hl : l.WellFormed) (hs : skipBlanks s = l.chars ++ t) :
    value depth s = (Number.read l.negative (l.unsigned ++ t)).map fun r =>
      (Value.number r.1, r.2) := by
  rw [Numeral.chars] at hs
  cases hneg : l.negative with
  | true =>
    rw [hneg, if_pos rfl, List.cons_append] at hs
    simp [value, hs]
  | false =>
    rw [hneg, if_neg (by simp)] at hs
    obtain ⟨d, ds, hd⟩ := List.exists_cons_of_ne_nil hl.whole.1
    have hu : l.unsigned ++ t = d :: (ds ++ l.tail ++ t) := by simp [Numeral.unsigned, hd]
    rw [hu] at hs ⊢
    exact value_digit hs (hl.whole.2 d (by simp [hd]))

/-- A word that stands for a value is read as this value. -/
theorem constant_eq_ok {word : List Char} {v v' : Value} :
    (ident word s).map (fun u => (v, u)) = .ok (v', t) ↔ s = word ++ t ∧ v = v' := by
  simp only [map_eq_ok, ident_eq_ok, Prod.mk.injEq]
  constructor
  · rintro ⟨_, hs, hv, rfl⟩
    exact ⟨hs, hv⟩
  · rintro ⟨hs, hv⟩
    exact ⟨t, hs, hv, rfl⟩

theorem value_sound (ih : ∀ k, depth = k + 1 → Reads (value k) (Document.value? k)) {v : Value}
    (h : value depth s = .ok (v, t)) : ∃ d : Document, d.Spells (skipBlanks s) t ∧
      d.value? depth = some v := by
  unfold value at h
  split at h
  · cases h
  · next hs =>
    obtain ⟨rfl, rfl⟩ := constant_eq_ok.mp h
    exact ⟨.null, hs ▸ .null, by rw [Document.value?]⟩
  · next hs =>
    obtain ⟨rfl, rfl⟩ := constant_eq_ok.mp h
    exact ⟨.bool true, hs ▸ .isTrue, by rw [Document.value?]⟩
  · next hs =>
    obtain ⟨rfl, rfl⟩ := constant_eq_ok.mp h
    exact ⟨.bool false, hs ▸ .isFalse, by rw [Document.value?]⟩
  · next hs =>
    simp only [map_eq_ok, Prod.exists, Prod.mk.injEq] at h
    obtain ⟨x, _, hx, rfl, rfl⟩ := h
    obtain ⟨ps, hps, htext⟩ := Quoted.decode_eq_ok.mp hx
    exact ⟨.string ps, hs ▸ .string hps, by rw [Document.value?, htext]; rfl⟩
  · next hs =>
    simp only [map_eq_ok, Prod.exists, Prod.mk.injEq] at h
    obtain ⟨n, _, hn, rfl, rfl⟩ := h
    obtain ⟨l, hl, hneg, rfl, hv⟩ := Number.read_sound hn
    refine ⟨.number l, .number hl ?_, by rw [Document.value?, hv]; rfl⟩
    rw [hs, Numeral.chars, hneg, if_pos rfl, List.cons_append]
  · next hs =>
    rcases depth with _ | depth
    · cases h
    simp only [map_eq_ok, Prod.exists, Prod.mk.injEq] at h
    obtain ⟨vs, _, hvs, rfl, rfl⟩ := h
    obtain ⟨ds, hds, hmap⟩ := (items_eq_ok (ih depth rfl)).mp hvs
    exact ⟨.array ds, hs ▸ .array hds, by rw [Document.value?, hmap]; rfl⟩
  · next hs =>
    rcases depth with _ | depth
    · cases h
    simp only [map_eq_ok, Prod.exists, Prod.mk.injEq] at h
    obtain ⟨members, _, hms, rfl, rfl⟩ := h
    obtain ⟨ms, hms, hfold⟩ := (members_eq_ok fun acc name =>
      (ih depth rfl).takes (Members.insert name · acc)).mp hms
    exact ⟨.object ms, hs ▸ .object hms, by rw [Document.value?, hfold]; rfl⟩
  · next c u _ _ _ _ _ _ _ hs =>
    split at h
    · simp only [map_eq_ok, Prod.exists, Prod.mk.injEq] at h
      obtain ⟨n, _, hn, rfl, rfl⟩ := h
      obtain ⟨l, hl, hneg, hu, hv⟩ := Number.read_sound hn
      refine ⟨.number l, .number hl ?_, by rw [Document.value?, hv]; rfl⟩
      rw [hs, Numeral.chars, hneg, if_neg (by simp), hu]
    · cases h

theorem value_complete (ih : ∀ k, depth = k + 1 → Reads (value k) (Document.value? k)) {v : Value}
    {d : Document} (h : d.Spells (skipBlanks s) t) (ht : Delimited t)
    (hv : d.value? depth = some v) : value depth s = .ok (v, t) := by
  generalize hs : skipBlanks s = u at h
  cases h with
  | null =>
    rw [Document.value?, Option.some.injEq] at hv
    subst hv
    simp only [value, hs]
    exact constant_eq_ok.mpr ⟨rfl, rfl⟩
  | isTrue =>
    rw [Document.value?, Option.some.injEq] at hv
    subst hv
    simp only [value, hs]
    exact constant_eq_ok.mpr ⟨rfl, rfl⟩
  | isFalse =>
    rw [Document.value?, Option.some.injEq] at hv
    subst hv
    simp only [value, hs]
    exact constant_eq_ok.mpr ⟨rfl, rfl⟩
  | number hl hu =>
    rw [Document.value?] at hv
    obtain ⟨n, hn, rfl⟩ := Option.map_eq_some_iff.mp hv
    have hread := Number.read_eq hl ht
    rw [hn] at hread
    rw [value_number hl (hs.trans hu), map_eq_ok]
    exact ⟨_, toOption_eq_some.mp hread, rfl⟩
  | @string ps s _ h =>
    rw [Document.value?] at hv
    obtain ⟨x, hx, rfl⟩ := Option.map_eq_some_iff.mp hv
    simp only [value, hs]
    exact map_eq_ok.mpr ⟨_, Quoted.decode_eq_ok.mpr ⟨ps, h, hx⟩, rfl⟩
  | @array ds s _ h =>
    rcases depth with _ | depth
    · simp [Document.value?] at hv
    rw [Document.value?] at hv
    obtain ⟨vs, hvs, rfl⟩ := Option.map_eq_some_iff.mp hv
    unfold value
    simp only [hs]
    exact map_eq_ok.mpr ⟨_, (items_eq_ok (ih depth rfl)).mpr ⟨ds, h, hvs⟩, rfl⟩
  | @object ms s _ h =>
    rcases depth with _ | depth
    · simp [Document.value?] at hv
    rw [Document.value?] at hv
    obtain ⟨vs, hvs, rfl⟩ := Option.map_eq_some_iff.mp hv
    unfold value
    simp only [hs]
    exact map_eq_ok.mpr ⟨_, (members_eq_ok fun acc name =>
      (ih depth rfl).takes (Members.insert name · acc)).mpr ⟨ms, h, hvs⟩, rfl⟩

theorem value_reads (depth : Nat) : Reads (value depth) (Document.value? depth) := by
  induction depth with
  | zero => exact ⟨value_sound (fun k hk => by cases hk), value_complete (fun k hk => by cases hk)⟩
  | succ depth ih =>
    have hk : ∀ k, depth + 1 = k + 1 → Reads (value k) (Document.value? k) := by
      rintro k hk
      cases hk
      exact ih
    exact ⟨value_sound hk, value_complete hk⟩

end Value

theorem document_eq_ok {α : Type} {item : Read α} {meaning? : Document → Option α} {a : α}
    {text : String} (hr : Reads item meaning?) :
    document item text = .ok a ↔ ∃ d : Document, d.Fills text ∧ meaning? d = some a := by
  simp only [document, bind_eq_ok, Prod.exists]
  constructor
  · rintro ⟨x, t, hx, h⟩
    obtain ⟨d, hd, hm⟩ := hr.sound hx
    split at h
    · next hnil =>
      cases h
      exact ⟨d, ⟨t, hd, List.isEmpty_iff.mp hnil⟩, hm⟩
    · cases h
  · rintro ⟨d, ⟨t, hd, hnil⟩, hm⟩
    exact ⟨a, t, hr.complete hd (.of_nil hnil) hm, if_pos (List.isEmpty_iff.mpr hnil)⟩

section Readable

variable {β σ : Type} {f : Document → Option β} {put : σ → String → β → σ} {acc : σ}
  {ds : List Document} {ms : List (List Piece × Document)}

theorem isSome_mapM : (ds.mapM f).isSome ↔ ∀ d ∈ ds, (f d).isSome := by
  induction ds with
  | nil => simp
  | cons d ds ih =>
    simp only [Option.isSome_iff_exists] at ih ⊢
    simp only [mapM_cons_eq_some, List.forall_mem_cons, ← ih]
    constructor
    · rintro ⟨_, b, bs, hb, hbs, rfl⟩
      exact ⟨⟨b, hb⟩, bs, hbs⟩
    · rintro ⟨⟨b, hb⟩, bs, hbs⟩
      exact ⟨b :: bs, b, bs, hb, hbs, rfl⟩

theorem isSome_foldMembers :
    (foldMembers (fun acc name d => (f d).map (put acc name)) acc ms).isSome ↔
      ∀ m ∈ ms, (Quoted.text? m.1).isSome ∧ (f m.2).isSome := by
  induction ms generalizing acc with
  | nil => simp [foldMembers]
  | cons m ms ih =>
    obtain ⟨ps, d⟩ := m
    simp only [Option.isSome_iff_exists] at ih ⊢
    simp only [foldMembers_cons, List.forall_mem_cons, Option.map_eq_some_iff]
    constructor
    · rintro ⟨out, name, mid, hname, ⟨b, hb, rfl⟩, h⟩
      exact ⟨⟨⟨name, hname⟩, b, hb⟩, ih.mp ⟨out, h⟩⟩
    · rintro ⟨⟨⟨name, hname⟩, b, hb⟩, h⟩
      obtain ⟨out, h⟩ := ih.mpr h
      exact ⟨out, name, _, hname, ⟨b, hb, rfl⟩, h⟩

/-- The limits are exactly those within which there is a value. -/
theorem Document.isSome_value?_iff {d : Document} {depth : Nat} :
    (d.value? depth).isSome ↔ d.Readable depth := by
  induction d using Document.induction generalizing depth with
  | null => simp [Document.value?, Readable.null]
  | bool b => simp [Document.value?, Readable.bool]
  | number l =>
    rw [Document.value?, Option.isSome_map]
    exact ⟨.number, fun h => by cases h; assumption⟩
  | string ps =>
    rw [Document.value?, Option.isSome_map]
    exact ⟨.string, fun h => by cases h; assumption⟩
  | array ds ih =>
    rcases depth with _ | depth
    · exact ⟨fun h => by simp [Document.value?] at h, fun h => by cases h⟩
    rw [Document.value?, Option.isSome_map, isSome_mapM]
    constructor
    · exact fun h => .array fun d hd => (ih d hd).mp (h d hd)
    · rintro (_ | _ | _ | _ | h | _) d hd
      exact (ih d hd).mpr (h d hd)
  | object ms ih =>
    rcases depth with _ | depth
    · exact ⟨fun h => by simp [Document.value?] at h, fun h => by cases h⟩
    rw [Document.value?, Option.isSome_map, isSome_foldMembers]
    constructor
    · exact fun h => .object (fun m hm => (h m hm).1) fun m hm => (ih m hm).mp (h m hm).2
    · intro h m hm
      cases h with
      | object hn h => exact ⟨hn m hm, (ih m hm).mpr (h m hm)⟩

end Readable

end TwinLink.Json
