import TwinLink.Proofs.Json.Grammar

/-! Reading strings. A reader that wants the text reads exactly the strings in which every
surrogate has its other half, and a reader that passes over them takes all strings of the grammar.
An escape is one piece or, for a pair of surrogates, two; `Stands` keeps apart what they are from
what follows them. -/

namespace TwinLink.Json

section Steps

variable {α β ε : Type} {x : Except ε α} {b : β}

theorem bind_eq_ok {f : α → Except ε β} : (x >>= f) = .ok b ↔ ∃ a, x = .ok a ∧ f a = .ok b := by
  cases x <;> simp [bind, Except.bind]

theorem map_eq_ok {f : α → β} : x.map f = .ok b ↔ ∃ a, x = .ok a ∧ f a = b := by
  cases x <;> simp [Except.map]

theorem toOption_eq_some {a : α} : x.toOption = some a ↔ x = .ok a := by
  cases x <;> simp [Except.toOption]

end Steps

namespace Quoted

variable {c : Char} {n fuel : Nat} {cs s t : List Char} {ps : List Piece}

theorem hexFour_eq_ok : hexFour s = .ok (n, t) ↔ ∃ c₁ c₂ c₃ c₄ n₁ n₂ n₃ n₄,
    hexValue? c₁ = some n₁ ∧ hexValue? c₂ = some n₂ ∧ hexValue? c₃ = some n₃ ∧
      hexValue? c₄ = some n₄ ∧ n = ((n₁ * 16 + n₂) * 16 + n₃) * 16 + n₄ ∧
      s = c₁ :: c₂ :: c₃ :: c₄ :: t := by
  constructor
  · intro h
    unfold hexFour at h
    split at h
    · split at h
      · next h₁ h₂ h₃ h₄ =>
        simp only [Except.ok.injEq, Prod.mk.injEq] at h
        exact ⟨_, _, _, _, _, _, _, _, h₁, h₂, h₃, h₄, h.1.symm, by rw [h.2]⟩
      · cases h
    · cases h
  · rintro ⟨c₁, c₂, c₃, c₄, n₁, n₂, n₃, n₄, h₁, h₂, h₃, h₄, rfl, rfl⟩
    simp [hexFour, h₁, h₂, h₃, h₄]

/-- A string goes on with the number `n` if and only if the four digits of `n` come next. -/
theorem spells_unit_iff : Spells (.unit n :: ps) s t ↔
    ∃ s₁ s₂, s = '\\' :: 'u' :: s₁ ∧ hexFour s₁ = .ok (n, s₂) ∧ Spells ps s₂ t := by
  constructor
  · intro h
    cases h with
    | unit h₁ h₂ h₃ h₄ h =>
      exact ⟨_, _, rfl, hexFour_eq_ok.mpr ⟨_, _, _, _, _, _, _, _, h₁, h₂, h₃, h₄, rfl, rfl⟩, h⟩
  · rintro ⟨s₁, s₂, rfl, hn, h⟩
    obtain ⟨c₁, c₂, c₃, c₄, n₁, n₂, n₃, n₄, h₁, h₂, h₃, h₄, rfl, rfl⟩ := hexFour_eq_ok.mp hn
    exact .unit h₁ h₂ h₃ h₄ h

theorem length_lt_of_hexFour (h : hexFour s = .ok (n, t)) : t.length < s.length := by
  obtain ⟨c₁, c₂, c₃, c₄, n₁, n₂, n₃, n₄, -, -, -, -, -, rfl⟩ := hexFour_eq_ok.mp h
  simp only [List.length_cons]
  omega

theorem Spells.length_lt (h : Spells ps s t) : t.length < s.length := by
  induction h with
  | close => simp
  | char | letter | unit =>
    simp only [List.length_cons]
    omega

theorem decodeFrom_escape : decodeFrom (fuel + 1) ('\\' :: s) =
    escaped s >>= fun r => decodeFrom fuel r.2 >>= fun q => .ok (r.1 :: q.1, q.2) := rfl

theorem decodeFrom_char (hq : c ≠ '"') (hb : c ≠ '\\') : decodeFrom (fuel + 1) (c :: s) =
    if c.toNat < 0x20 then .error .controlCharacter
    else decodeFrom fuel s >>= fun q => .ok (c :: q.1, q.2) := by
  rw [decodeFrom]
  · exact hq
  · exact hb

theorem skipFrom_escape : skipFrom (fuel + 1) ('\\' :: s) = skipEscaped s >>= skipFrom fuel := rfl

theorem skipFrom_char (hq : c ≠ '"') (hb : c ≠ '\\') : skipFrom (fuel + 1) (c :: s) =
    if c.toNat < 0x20 then .error .controlCharacter else skipFrom fuel s := by
  rw [skipFrom]
  · exact hq
  · exact hb

theorem letter_ne_unit {l : Char} (h : letter? l = some c) : l ≠ 'u' := by
  rintro rfl
  cases h

theorem escaped_letter {l : Char} (h : letter? l = some c) : escaped (l :: s) = .ok (c, s) := by
  rw [escaped, h]
  exact letter_ne_unit h

theorem chars?_unit (hlow : isLowSurrogate n = false) (hhigh : isHighSurrogate n = false) :
    chars? (.unit n :: ps) = (chars? ps).map (Char.ofNat n :: ·) := by
  rcases ps with _ | ⟨_ | _, ps⟩ <;> simp [chars?, hlow, hhigh]

theorem chars?_pair {m : Nat} (hlow : isLowSurrogate n = false) (hhigh : isHighSurrogate n = true)
    (hm : isLowSurrogate m = true) :
    chars? (.unit n :: .unit m :: ps) = (chars? ps).map (paired n m :: ·) := by
  simp [chars?, hlow, hhigh, hm]

/-- A number that stands for something is no surrogate or the first one of a pair. -/
theorem chars?_unit_eq_some (h : chars? (.unit n :: ps) = some cs) : isLowSurrogate n = false ∧
    (isHighSurrogate n = true → ∃ m qs, ps = .unit m :: qs ∧ isLowSurrogate m = true) := by
  rw [chars?.eq_def] at h
  dsimp only at h
  split at h
  · cases h
  next hlow =>
  refine ⟨by simpa using hlow, fun hhigh => ?_⟩
  rw [if_pos hhigh] at h
  split at h
  · next m qs =>
    split at h
    · next hm => exact ⟨m, qs, rfl, hm⟩
    · cases h
  · cases h

/-- Behind a backslash, `s` begins with pieces that stand for `c`, and `t` follows. -/
def Stands (c : Char) (s t : List Char) : Prop :=
  ∃ ps, (∀ qs u, Spells qs t u → Spells (ps ++ qs) ('\\' :: s) u) ∧
    ∀ qs, chars? (ps ++ qs) = (chars? qs).map (c :: ·)

theorem stands_pair {m : Nat} {s₁ s₂ : List Char} (hn : hexFour s = .ok (n, '\\' :: 'u' :: s₁))
    (hm : hexFour s₁ = .ok (m, s₂)) (hlow : isLowSurrogate n = false)
    (hhigh : isHighSurrogate n = true) (hml : isLowSurrogate m = true) :
    Stands (paired n m) ('u' :: s) s₂ := by
  refine ⟨[.unit n, .unit m], fun qs u hq => ?_, fun qs => ?_⟩
  · exact spells_unit_iff.mpr ⟨_, _, rfl, hn, spells_unit_iff.mpr ⟨_, _, rfl, hm, hq⟩⟩
  · exact chars?_pair hlow hhigh hml

theorem lowSurrogate_eq_ok (h : lowSurrogate n s = .ok (c, t)) : ∃ s₁ m, s = '\\' :: 'u' :: s₁ ∧
    hexFour s₁ = .ok (m, t) ∧ isLowSurrogate m = true ∧ c = paired n m := by
  unfold lowSurrogate at h
  split at h
  · cases h
  · cases h
  · next s₁ =>
    simp only [bind_eq_ok, Prod.exists] at h
    obtain ⟨m, s₂, hm, h⟩ := h
    split at h
    · next hlow =>
      simp only [Except.ok.injEq, Prod.mk.injEq] at h
      obtain ⟨rfl, rfl⟩ := h
      exact ⟨s₁, m, rfl, hm, hlow, rfl⟩
    · cases h
  · cases h

theorem stands_escaped (h : escaped s = .ok (c, t)) : Stands c s t := by
  unfold escaped at h
  split at h
  · cases h
  · next s =>
    simp only [bind_eq_ok, Prod.exists] at h
    obtain ⟨n, s₁, hn, h⟩ := h
    by_cases hlow : isLowSurrogate n = true
    · rw [if_pos hlow] at h
      cases h
    rw [if_neg hlow] at h
    by_cases hhigh : isHighSurrogate n = true
    · rw [if_pos hhigh] at h
      obtain ⟨s₂, m, rfl, hm, hml, hc⟩ := lowSurrogate_eq_ok h
      rw [hc]
      exact stands_pair hn hm (by simpa using hlow) hhigh hml
    · rw [if_neg hhigh] at h
      simp only [Except.ok.injEq, Prod.mk.injEq] at h
      obtain ⟨rfl, rfl⟩ := h
      refine ⟨[.unit n], fun qs u hq => spells_unit_iff.mpr ⟨_, _, rfl, hn, hq⟩, fun qs => ?_⟩
      exact chars?_unit (by simpa using hlow) (by simpa using hhigh)
  · next l s _ =>
    split at h
    · next c hl =>
      simp only [Except.ok.injEq, Prod.mk.injEq] at h
      obtain ⟨rfl, rfl⟩ := h
      refine ⟨[.char c], fun qs u hq => .letter hl hq, fun qs => ?_⟩
      rw [List.singleton_append, chars?]
    · cases h

theorem decodeFrom_sound (h : decodeFrom fuel s = .ok (cs, t)) :
    ∃ ps, Spells ps s t ∧ chars? ps = some cs := by
  induction fuel generalizing s cs with
  | zero => cases h
  | succ fuel ih =>
    rcases s with _ | ⟨c, s⟩
    · cases h
    by_cases hq : c = '"'
    · subst hq
      simp only [decodeFrom, Except.ok.injEq, Prod.mk.injEq] at h
      obtain ⟨rfl, rfl⟩ := h
      exact ⟨[], .close, rfl⟩
    by_cases hb : c = '\\'
    · subst hb
      simp only [decodeFrom_escape, bind_eq_ok, Prod.exists, Except.ok.injEq, Prod.mk.injEq] at h
      obtain ⟨c, s₁, he, cs', s₂, hd, rfl, rfl⟩ := h
      obtain ⟨ps, hps, hc⟩ := stands_escaped he
      obtain ⟨qs, hqs, hcs⟩ := ih hd
      exact ⟨ps ++ qs, hps qs _ hqs, by rw [hc, hcs, Option.map_some]⟩
    · rw [decodeFrom_char hq hb] at h
      split at h
      · cases h
      next hc =>
      simp only [bind_eq_ok, Prod.exists, Except.ok.injEq, Prod.mk.injEq] at h
      obtain ⟨cs', s₁, hd, rfl, rfl⟩ := h
      obtain ⟨ps, hps, hcs⟩ := ih hd
      exact ⟨.char c :: ps, .char (Nat.not_lt.mp hc) hq hb hps,
        by rw [chars?, hcs, Option.map_some]⟩

theorem escaped_unit (hn : hexFour s = .ok (n, t)) (hlow : isLowSurrogate n = false)
    (hhigh : isHighSurrogate n = false) : escaped ('u' :: s) = .ok (Char.ofNat n, t) := by
  simp [escaped, hn, hlow, hhigh, bind, Except.bind]

theorem escaped_pair {m : Nat} {s₁ s₂ : List Char} (hn : hexFour s = .ok (n, '\\' :: 'u' :: s₁))
    (hm : hexFour s₁ = .ok (m, s₂)) (hlow : isLowSurrogate n = false)
    (hhigh : isHighSurrogate n = true) (hml : isLowSurrogate m = true) :
    escaped ('u' :: s) = .ok (paired n m, s₂) := by
  simp [escaped, lowSurrogate, hn, hm, hlow, hhigh, hml, bind, Except.bind]

theorem decodeFrom_escaped {s₁ : List Char} (he : escaped s = .ok (c, s₁))
    (hd : decodeFrom fuel s₁ = .ok (cs, t)) :
    decodeFrom (fuel + 1) ('\\' :: s) = .ok (c :: cs, t) := by
  rw [decodeFrom_escape, bind_eq_ok]
  exact ⟨_, he, bind_eq_ok.mpr ⟨_, hd, rfl⟩⟩

theorem decodeFrom_complete (h : Spells ps s t) (hcs : chars? ps = some cs)
    (hf : s.length < fuel) : decodeFrom fuel s = .ok (cs, t) := by
  induction fuel generalizing ps s cs with
  | zero => cases hf
  | succ fuel ih =>
    rcases ps with _ | ⟨c | n, ps⟩
    · cases h
      cases hcs
      rfl
    · obtain ⟨cs', hcs', rfl⟩ := Option.map_eq_some_iff.mp hcs
      cases h with
      | char hc hq hb h =>
        have hd := ih h hcs' (by simp only [List.length_cons] at hf; omega)
        rw [decodeFrom_char hq hb, if_neg (Nat.not_lt.mpr hc), hd]
        rfl
      | letter hl h =>
        have hd := ih h hcs' (by simp only [List.length_cons] at hf; omega)
        exact decodeFrom_escaped (escaped_letter hl) hd
    obtain ⟨s₁, s₂, rfl, hn, h⟩ := spells_unit_iff.mp h
    have hlt := length_lt_of_hexFour hn
    obtain ⟨hlow, hpair⟩ := chars?_unit_eq_some hcs
    by_cases hhigh : isHighSurrogate n = true
    · -- The second half of a pair is read together with the first.
      obtain ⟨m, qs, rfl, hm⟩ := hpair hhigh
      obtain ⟨s₃, s₄, rfl, hms, h⟩ := spells_unit_iff.mp h
      have hlt' := length_lt_of_hexFour hms
      rw [chars?_pair hlow hhigh hm] at hcs
      obtain ⟨cs', hcs', rfl⟩ := Option.map_eq_some_iff.mp hcs
      have hd := ih h hcs' (by simp only [List.length_cons] at hf hlt; omega)
      exact decodeFrom_escaped (escaped_pair hn hms hlow hhigh hm) hd
    · rw [chars?_unit hlow (by simpa using hhigh)] at hcs
      obtain ⟨cs', hcs', rfl⟩ := Option.map_eq_some_iff.mp hcs
      have hd := ih h hcs' (by simp only [List.length_cons] at hf; omega)
      exact decodeFrom_escaped (escaped_unit hn hlow (by simpa using hhigh)) hd

/-- A text is read if and only if a string is spelled in which no surrogate is alone. -/
theorem decode_eq_ok {x : String} :
    decode s = .ok (x, t) ↔ ∃ ps, Spells ps s t ∧ text? ps = some x := by
  simp only [decode, bind_eq_ok, Prod.exists, Except.ok.injEq, Prod.mk.injEq, text?,
    Option.map_eq_some_iff]
  constructor
  · rintro ⟨cs, t, hd, rfl, rfl⟩
    obtain ⟨ps, hps, hcs⟩ := decodeFrom_sound hd
    exact ⟨ps, hps, cs, hcs, rfl⟩
  · rintro ⟨ps, hps, cs, hcs, rfl⟩
    exact ⟨cs, t, decodeFrom_complete hps hcs (by omega), rfl, rfl⟩

/-- What is passed over behind a backslash is one piece. -/
theorem exists_piece (h : skipEscaped s = .ok t) :
    ∃ p, ∀ qs u, Spells qs t u → Spells (p :: qs) ('\\' :: s) u := by
  unfold skipEscaped at h
  split at h
  · cases h
  · next s =>
    simp only [map_eq_ok, Prod.exists] at h
    obtain ⟨n, t, hn, rfl⟩ := h
    exact ⟨.unit n, fun qs u hq => spells_unit_iff.mpr ⟨_, _, rfl, hn, hq⟩⟩
  · split at h
    · next hl =>
      obtain ⟨c, hc⟩ := Option.isSome_iff_exists.mp hl
      cases h
      exact ⟨.char c, fun qs u hq => .letter hc hq⟩
    · cases h

theorem skipFrom_sound (h : skipFrom fuel s = .ok t) : ∃ ps, Spells ps s t := by
  induction fuel generalizing s with
  | zero => cases h
  | succ fuel ih =>
    rcases s with _ | ⟨c, s⟩
    · cases h
    by_cases hq : c = '"'
    · subst hq
      cases h
      exact ⟨[], .close⟩
    by_cases hb : c = '\\'
    · subst hb
      rw [skipFrom_escape, bind_eq_ok] at h
      obtain ⟨s₁, he, h⟩ := h
      obtain ⟨p, hp⟩ := exists_piece he
      obtain ⟨ps, hps⟩ := ih h
      exact ⟨p :: ps, hp ps t hps⟩
    · rw [skipFrom_char hq hb] at h
      split at h
      · cases h
      next hc =>
      obtain ⟨ps, hps⟩ := ih h
      exact ⟨.char c :: ps, .char (Nat.not_lt.mp hc) hq hb hps⟩

theorem skipFrom_complete (h : Spells ps s t) (hf : s.length < fuel) :
    skipFrom fuel s = .ok t := by
  induction fuel generalizing ps s with
  | zero => cases hf
  | succ fuel ih =>
    cases h with
    | close => rfl
    | char hc hq hb h =>
      rw [skipFrom_char hq hb, if_neg (Nat.not_lt.mpr hc)]
      exact ih h (by simp only [List.length_cons] at hf; omega)
    | letter hl h =>
      rw [skipFrom_escape, bind_eq_ok]
      refine ⟨_, ?_, ih h (by simp only [List.length_cons] at hf; omega)⟩
      rw [skipEscaped, hl]
      · rfl
      · exact letter_ne_unit hl
    | unit h₁ h₂ h₃ h₄ h =>
      rw [skipFrom_escape, bind_eq_ok]
      refine ⟨_, ?_, ih h (by simp only [List.length_cons] at hf; omega)⟩
      rw [skipEscaped, map_eq_ok]
      exact ⟨_, hexFour_eq_ok.mpr ⟨_, _, _, _, _, _, _, _, h₁, h₂, h₃, h₄, rfl, rfl⟩, rfl⟩

/-- A string is passed over if and only if one is spelled. -/
theorem skip_eq_ok : skip s = .ok t ↔ ∃ ps, Spells ps s t :=
  ⟨skipFrom_sound, fun ⟨_, h⟩ => skipFrom_complete h (Nat.lt_succ_self _)⟩

end Quoted

end TwinLink.Json
