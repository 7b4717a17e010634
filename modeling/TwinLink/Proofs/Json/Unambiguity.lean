import TwinLink.Proofs.Json.Reading

/-! A text has at most one document. The form of a value shows in its first character, except that
a numeral has no end of its own: it ends where a delimiter follows, which is why the texts compared
here have one behind them. -/

namespace TwinLink.Json

variable {s t t' : List Char}

namespace Quoted

theorem Spells.unique {ps ps' : List Piece} (h : Spells ps s t) (h' : Spells ps' s t') :
    ps = ps' ∧ t = t' := by
  induction h generalizing ps' with
  | close =>
    cases h' with
    | close => exact ⟨rfl, rfl⟩
    | char hc hq => exact absurd rfl hq
  | @char c ps s t hc hq hb _ ih =>
    cases h' with
    | close => exact absurd rfl hq
    | char _ _ _ h' =>
      obtain ⟨rfl, rfl⟩ := ih h'
      exact ⟨rfl, rfl⟩
    | letter => exact absurd rfl hb
    | unit => exact absurd rfl hb
  | @letter l c ps s t hl _ ih =>
    cases h' with
    | char _ _ hb => exact absurd rfl hb
    | letter hl' h' =>
      obtain ⟨rfl, rfl⟩ := ih h'
      rw [hl, Option.some.injEq] at hl'
      rw [hl']
      exact ⟨rfl, rfl⟩
    | unit => exact absurd rfl (letter_ne_unit hl)
  | unit h₁ h₂ h₃ h₄ _ ih =>
    cases h' with
    | char _ _ hb => exact absurd rfl hb
    | letter hl => exact absurd rfl (letter_ne_unit hl)
    | unit g₁ g₂ g₃ g₄ h' =>
      obtain ⟨rfl, rfl⟩ := ih h'
      rw [h₁, Option.some.injEq] at g₁
      rw [h₂, Option.some.injEq] at g₂
      rw [h₃, Option.some.injEq] at g₃
      rw [h₄, Option.some.injEq] at g₄
      rw [g₁, g₂, g₃, g₄]
      exact ⟨rfl, rfl⟩

end Quoted

section Numerals

/-- Two texts of one kind of character end together if other characters follow. -/
theorem span_unique {p : Char → Bool} {cs cs' : List Char} (hcs : ∀ c ∈ cs, p c = true)
    (hcs' : ∀ c ∈ cs', p c = true) (ht : ∀ c ∈ t.head?, p c = false)
    (ht' : ∀ c ∈ t'.head?, p c = false) (h : cs ++ t = cs' ++ t') : cs = cs' ∧ t = t' := by
  induction cs generalizing cs' with
  | nil =>
    cases cs' with
    | nil => exact ⟨rfl, h⟩
    | cons c cs' =>
      have hc := ht c (by rw [List.nil_append] at h; rw [h]; rfl)
      rw [hcs' c (List.mem_cons_self ..)] at hc
      cases hc
  | cons c cs ih =>
    cases cs' with
    | nil =>
      have hc := ht' c (by rw [List.nil_append] at h; rw [← h]; rfl)
      rw [hcs c (List.mem_cons_self ..)] at hc
      cases hc
    | cons c' cs' =>
      obtain ⟨rfl, htail⟩ := List.cons.inj h
      obtain ⟨rfl, rfl⟩ := ih (fun d hd => hcs d (List.mem_cons_of_mem _ hd))
        (fun d hd => hcs' d (List.mem_cons_of_mem _ hd)) htail
      exact ⟨rfl, rfl⟩

def isSign (c : Char) : Bool := c == '+' || c == '-'

theorem isSign_of_mem {sign : List Char} (hs : sign = [] ∨ sign = ['+'] ∨ sign = ['-']) :
    ∀ c ∈ sign, isSign c = true := by
  rcases hs with rfl | rfl | rfl <;> simp [isSign]

theorem not_isSign (h : NoSign t) : ∀ c ∈ t.head?, isSign c = false := by
  intro c hc
  have := h c hc
  simp [isSign, this]

theorem exponent_unique {x x' : Option Exponent} (hx : ∀ y ∈ x, y.WellFormed)
    (hx' : ∀ y ∈ x', y.WellFormed) (ht : Delimited t) (ht' : Delimited t')
    (h : Exponent.chars x ++ t = Exponent.chars x' ++ t') : x = x' ∧ t = t' := by
  have hmark : ∀ {y : Exponent} {u v : List Char}, y.WellFormed → Delimited u →
      u ≠ Exponent.chars (some y) ++ v := by
    rintro y u v hy hu rfl
    have hm := (hu.ne_mark y.mark rfl).2
    rcases hy.mark with he | he
    · exact hm.1 he
    · exact hm.2 he
  cases x with
  | none =>
    cases x' with
    | none => exact ⟨rfl, h⟩
    | some y => exact absurd h (hmark (hx' y rfl) ht)
  | some y =>
    cases x' with
    | none => exact absurd h.symm (hmark (hx y rfl) ht')
    | some y' =>
      obtain ⟨mark, sign, digits⟩ := y
      obtain ⟨mark', sign', digits'⟩ := y'
      have hw := hx _ rfl
      have hw' := hx' _ rfl
      simp only [Exponent.chars, List.cons_append, List.append_assoc, List.cons.injEq] at h
      obtain ⟨rfl, h⟩ := h
      obtain ⟨rfl, h⟩ := span_unique (isSign_of_mem hw.sign) (isSign_of_mem hw'.sign)
        (not_isSign hw.digits.noSign) (not_isSign hw'.digits.noSign) h
      obtain ⟨rfl, rfl⟩ := span_unique hw.digits.2 hw'.digits.2 ht.noDigit ht'.noDigit h
      exact ⟨rfl, rfl⟩

theorem tail_unique {l l' : Numeral} (hl : l.WellFormed) (hl' : l'.WellFormed)
    (ht : Delimited t) (ht' : Delimited t') (h : l.tail ++ t = l'.tail ++ t') :
    l.fraction = l'.fraction ∧ l.exponent = l'.exponent ∧ t = t' := by
  have hpoint : ∀ {x : Option Exponent} {u v : List Char}, (∀ y ∈ x, y.WellFormed) → Delimited u →
      Exponent.chars x ++ u ≠ '.' :: v := by
    intro x u v hx hu hxu
    rcases Number.head?_exponent hx (show '.' ∈ (Exponent.chars x ++ u).head? by rw [hxu]; rfl)
      with hc | hc | hc
    · cases hc
    · cases hc
    · exact (hu.ne_mark _ hc).1 rfl
  rw [Numeral.tail, Numeral.tail] at h
  cases hf : l.fraction with
  | none =>
    cases hf' : l'.fraction with
    | none =>
      rw [hf, hf'] at h
      exact ⟨rfl, exponent_unique hl.exponent hl'.exponent ht ht' h⟩
    | some ds =>
      rw [hf, hf'] at h
      exact absurd h (hpoint hl.exponent ht)
  | some ds =>
    cases hf' : l'.fraction with
    | none =>
      rw [hf, hf'] at h
      exact absurd h.symm (hpoint hl'.exponent ht')
    | some ds' =>
      rw [hf, hf'] at h
      simp only [List.cons_append, List.append_assoc, List.cons.injEq, true_and] at h
      obtain ⟨hds, hexponent⟩ := span_unique (hl.fraction ds hf).2 (hl'.fraction ds' hf').2
        (Number.noDigit_exponent hl.exponent ht.noDigit)
        (Number.noDigit_exponent hl'.exponent ht'.noDigit) h
      exact ⟨by rw [hds], exponent_unique hl.exponent hl'.exponent ht ht' hexponent⟩

theorem unsigned_unique {l l' : Numeral} (hl : l.WellFormed) (hl' : l'.WellFormed)
    (ht : Delimited t) (ht' : Delimited t') (h : l.unsigned ++ t = l'.unsigned ++ t') :
    l.whole = l'.whole ∧ l.fraction = l'.fraction ∧ l.exponent = l'.exponent ∧ t = t' := by
  rw [Numeral.unsigned, Numeral.unsigned, List.append_assoc, List.append_assoc] at h
  obtain ⟨hwhole, h⟩ := span_unique hl.whole.2 hl'.whole.2
    (Number.noDigit_tail hl ht.noDigit) (Number.noDigit_tail hl' ht'.noDigit) h
  exact ⟨hwhole, tail_unique hl hl' ht ht' h⟩

theorem unsigned_ne_minus {l : Numeral} {u : List Char} (hl : l.WellFormed) :
    l.unsigned ++ t ≠ '-' :: u := by
  intro h
  obtain ⟨d, ds, hd⟩ := List.exists_cons_of_ne_nil hl.whole.1
  have hdigit := hl.whole.2 d (by simp [hd])
  rw [Numeral.unsigned, hd] at h
  rw [(List.cons.inj h).1] at hdigit
  cases hdigit

theorem numeral_unique {l l' : Numeral} (hl : l.WellFormed) (hl' : l'.WellFormed)
    (ht : Delimited t) (ht' : Delimited t') (h : l.chars ++ t = l'.chars ++ t') :
    l = l' ∧ t = t' := by
  have hsign : l.negative = l'.negative ∧ l.unsigned ++ t = l'.unsigned ++ t' := by
    rw [Numeral.chars, Numeral.chars] at h
    cases hn : l.negative <;> cases hn' : l'.negative <;>
      simp only [hn, hn', if_true, if_false, List.cons_append, Bool.false_eq_true] at h
    · exact ⟨rfl, h⟩
    · exact absurd h (unsigned_ne_minus hl)
    · exact absurd h.symm (unsigned_ne_minus hl')
    · exact ⟨rfl, (List.cons.inj h).2⟩
  obtain ⟨hwhole, hfraction, hexponent, rfl⟩ := unsigned_unique hl hl' ht ht' hsign.2
  cases l
  cases l'
  obtain ⟨rfl, -⟩ := hsign
  cases hwhole
  cases hfraction
  cases hexponent
  exact ⟨rfl, rfl⟩

end Numerals

section Lists

variable {α : Type} {R : α → List Char → List Char → Prop} {close : Char} {x : α} {xs ys : List α}

/-- No other element has a text in common with `x` before a delimiter. -/
def Sole (R : α → List Char → List Char → Prop) (x : α) : Prop := ∀ y s t t', R x s t → R y s t' →
  Delimited t → Delimited t' → x = y ∧ t = t'

theorem More.unique (hclose : isDelimiter close = true) (hcomma : close ≠ ',')
    (hxs : ∀ x ∈ xs, Sole R x) (h : More R close xs s t) (h' : More R close ys s t') :
    xs = ys ∧ t = t' := by
  induction h generalizing ys with
  | close h =>
    cases h' with
    | close h' => exact ⟨rfl, (List.cons.inj (h.symm.trans h')).2⟩
    | next h' => exact absurd (List.cons.inj (h.symm.trans h')).1 hcomma
  | next h hx hmore ih =>
    cases h' with
    | close h' => exact absurd (List.cons.inj (h'.symm.trans h)).1 hcomma
    | next h' hx' hmore' =>
      obtain ⟨-, rfl⟩ := List.cons.inj (h.symm.trans h')
      obtain ⟨rfl, rfl⟩ := hxs _ (List.mem_cons_self ..) _ _ _ _ hx hx' (hmore.delimited hclose)
        (hmore'.delimited hclose)
      obtain ⟨rfl, rfl⟩ := ih (fun y hy => hxs y (List.mem_cons_of_mem _ hy)) hmore'
      exact ⟨rfl, rfl⟩

theorem Listed.unique (hclose : isDelimiter close = true) (hcomma : close ≠ ',')
    (hstart : ∀ {x u t}, ¬ R x (close :: u) t) (hxs : ∀ x ∈ xs, Sole R x)
    (h : Listed R close xs s t) (h' : Listed R close ys s t') : xs = ys ∧ t = t' := by
  cases h with
  | empty h =>
    cases h' with
    | empty h' => exact ⟨rfl, (List.cons.inj (h.symm.trans h')).2⟩
    | first hx =>
      rw [h] at hx
      exact absurd hx hstart
  | first hx hmore =>
    cases h' with
    | empty h' =>
      rw [h'] at hx
      exact absurd hx hstart
    | first hx' hmore' =>
      obtain ⟨rfl, rfl⟩ := hxs _ (List.mem_cons_self ..) _ _ _ _ hx hx' (hmore.delimited hclose)
        (hmore'.delimited hclose)
      obtain ⟨rfl, rfl⟩ := hmore.unique hclose hcomma
        (fun y hy => hxs y (List.mem_cons_of_mem _ hy)) hmore'
      exact ⟨rfl, rfl⟩

theorem Sole.entry (hx : Sole R x) (ps : List Piece) : Sole (Entry R) (ps, x) := by
  rintro ⟨ps', y⟩ s t t' h h' ht ht'
  cases h with
  | mk hn hcolon hr =>
    cases h' with
    | mk hn' hcolon' hr' =>
      obtain ⟨rfl, rfl⟩ := hn.unique hn'
      obtain ⟨-, rfl⟩ := List.cons.inj (hcolon.symm.trans hcolon')
      obtain ⟨rfl, rfl⟩ := hx _ _ _ _ hr hr' ht ht'
      exact ⟨rfl, rfl⟩

end Lists

namespace Document

theorem ne_numeral {l : Numeral} {c : Char} {u : List Char} (hl : l.WellFormed) (hc : c ≠ '-')
    (hdigit : c.isDigit = false) : c :: u ≠ l.chars ++ t := by
  intro h
  obtain ⟨d, v, hd, hstart⟩ := Numeral.chars_starts hl
  rw [hd, List.cons_append] at h
  obtain ⟨rfl, -⟩ := List.cons.inj h
  rcases hstart with rfl | hstart
  · exact hc rfl
  · rw [hdigit] at hstart
    cases hstart

theorem sole (d : Document) : Sole Spells d := by
  induction d using Document.induction <;> intro d' s t t' h h' ht ht'
  case null =>
    cases h
    cases h' with
    | null => exact ⟨rfl, rfl⟩
    | number hl hs => exact absurd hs (ne_numeral hl (by decide) (by decide))
  case bool b =>
    cases h
    · cases h' with
      | isTrue => exact ⟨rfl, rfl⟩
      | number hl hs => exact absurd hs (ne_numeral hl (by decide) (by decide))
    · cases h' with
      | isFalse => exact ⟨rfl, rfl⟩
      | number hl hs => exact absurd hs (ne_numeral hl (by decide) (by decide))
  case number l =>
    cases h with
    | number hl hs =>
      cases h' with
      | number hl' hs' =>
        obtain ⟨rfl, rfl⟩ := numeral_unique hl hl' ht ht' (hs.symm.trans hs')
        exact ⟨rfl, rfl⟩
      | _ => exact absurd hs (ne_numeral hl (by decide) (by decide))
  case string ps =>
    cases h with
    | string h =>
      cases h' with
      | string h' =>
        obtain ⟨rfl, rfl⟩ := h.unique h'
        exact ⟨rfl, rfl⟩
      | number hl hs => exact absurd hs (ne_numeral hl (by decide) (by decide))
  case array ds ih =>
    cases h with
    | array h =>
      cases h' with
      | number hl hs => exact absurd hs (ne_numeral hl (by decide) (by decide))
      | array h' =>
        have hstart : ∀ {d u t}, ¬ Spells d (']' :: u) t := by
          intro d u t hd
          obtain ⟨c, v, hc, hdelim⟩ := hd.starts
          cases hc
          cases hdelim
        obtain ⟨rfl, rfl⟩ := h.unique (by decide) (by decide) hstart ih h'
        exact ⟨rfl, rfl⟩
  case object ms ih =>
    cases h with
    | object h =>
      cases h' with
      | number hl hs => exact absurd hs (ne_numeral hl (by decide) (by decide))
      | object h' =>
        have hstart : ∀ {m u t}, ¬ Entry Spells m ('}' :: u) t := by
          intro m u t hm
          cases hm
        obtain ⟨rfl, rfl⟩ := h.unique (by decide) (by decide) hstart
          (fun m hm => (ih m hm).entry m.1) h'
        exact ⟨rfl, rfl⟩

/-- A text has at most one document. -/
theorem Fills.unique {d d' : Document} {text : String} (h : d.Fills text) (h' : d'.Fills text) :
    d = d' := by
  obtain ⟨t, hd, ht⟩ := h
  obtain ⟨t', hd', ht'⟩ := h'
  exact (sole d _ _ _ _ hd hd' (.of_nil ht) (.of_nil ht')).1

end Document

end TwinLink.Json
