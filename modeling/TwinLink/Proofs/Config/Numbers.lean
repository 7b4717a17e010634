import TwinLink.Config
import TwinLink.Proofs.Json.Integers
import TwinLink.Proofs.Text.Blank

/-! Numbers in variables. A text spells a number of 64 bits if it is digits, perhaps behind a plus
sign, with blanks around them; a numeral has no blank, so only those around it can be cut off. A
variable comes to the milliseconds that its text spells, and to the usual ones if it spells none or
there is no text. -/

namespace TwinLink

namespace Config

/-- Digits, perhaps behind a plus sign, of the number `n`. -/
def IsNumeral (t : List Char) (n : Nat) : Prop := ∃ sign digits, t = sign ++ digits ∧
  (sign = [] ∨ sign = ['+']) ∧ Json.IsDigits digits ∧ Nat.ofDigitChars 10 digits 0 = n

/-- A text that is a number of 64 bits, blanks around it apart. -/
def Spells (s : String) (n : UInt64) : Prop := ∃ before t after, s.toList = before ++ t ++ after ∧
  (∀ c ∈ before, Text.isBlank c = true) ∧ (∀ c ∈ after, Text.isBlank c = true) ∧
    IsNumeral t n.toNat

variable {s : String} {m : Nat} {n : UInt64}

/-- What stands behind a plus sign. -/
def unsigned (t : List Char) : List Char :=
  match t with
  | '+' :: t => t
  | t => t

theorem exists_sign (t : List Char) :
    ∃ sign, t = sign ++ unsigned t ∧ (sign = [] ∨ sign = ['+']) := by
  unfold unsigned
  split
  · exact ⟨['+'], rfl, .inr rfl⟩
  · exact ⟨[], rfl, .inl rfl⟩

theorem unsigned_of_digits {ds : List Char} (h : Json.IsDigits ds) : unsigned ds = ds := by
  unfold unsigned
  split
  · cases h.2 '+' (List.mem_cons_self ..)
  · rfl

theorem isNumeral_iff {t : List Char} : IsNumeral t m ↔
    Json.IsDigits (unsigned t) ∧ Nat.ofDigitChars 10 (unsigned t) 0 = m := by
  constructor
  · rintro ⟨sign, ds, rfl, rfl | rfl, hds, rfl⟩
    · rw [List.nil_append, unsigned_of_digits hds]
      exact ⟨hds, rfl⟩
    · exact ⟨hds, rfl⟩
  · rintro ⟨hds, hm⟩
    obtain ⟨sign, ht, hsign⟩ := exists_sign t
    exact ⟨sign, unsigned t, ht, hsign, hds, hm⟩

theorem natural?_eq_some : natural? s = some m ↔ IsNumeral s.toList m ∧ m < UInt64.size := by
  have hdef : natural? s =
      if (unsigned s.toList).isEmpty ∨ ¬(unsigned s.toList).all Char.isDigit then none
      else if Nat.ofDigitChars 10 (unsigned s.toList) 0 < UInt64.size then
        some (Nat.ofDigitChars 10 (unsigned s.toList) 0)
      else none := rfl
  have hdigits : (¬((unsigned s.toList).isEmpty ∨ ¬(unsigned s.toList).all Char.isDigit)) ↔
      Json.IsDigits (unsigned s.toList) := by
    rw [not_or, not_not, List.isEmpty_iff, List.all_eq_true, Json.IsDigits]
  rw [hdef, isNumeral_iff, ← hdigits]
  split_ifs with hbad hfit
  · exact iff_of_false (by simp) fun h => h.1.1 hbad
  · rw [Option.some.injEq]
    constructor
    · rintro rfl
      exact ⟨⟨hbad, rfl⟩, hfit⟩
    · exact fun h => h.1.2
  · refine iff_of_false (by simp) ?_
    rintro ⟨⟨-, rfl⟩, hlt⟩
    exact hfit hlt

theorem not_blank_of_isDigit {c : Char} (h : c.isDigit = true) : Text.isBlank c = false := by
  obtain ⟨hlow, hhigh⟩ := Bool.and_eq_true_iff.mp h
  have hlow : 48 ≤ c.toNat := UInt32.le_iff_toNat_le.mp (of_decide_eq_true hlow)
  have hhigh : c.toNat ≤ 57 := UInt32.le_iff_toNat_le.mp (of_decide_eq_true hhigh)
  rw [Text.isBlank, List.any_eq_false]
  simp only [Text.blankRanges, List.mem_cons, List.not_mem_nil, or_false, Bool.and_eq_true,
    decide_eq_true_eq]
  rintro r (rfl | rfl | rfl | rfl | rfl | rfl | rfl | rfl | rfl | rfl) <;> omega

/-- A numeral has no blank. -/
theorem IsNumeral.not_blank {t : List Char} (h : IsNumeral t m) :
    t ≠ [] ∧ ∀ c ∈ t, Text.isBlank c = false := by
  obtain ⟨sign, ds, rfl, hsign, ⟨hne, hds⟩, -⟩ := h
  refine ⟨by simp [hne], fun c hc => ?_⟩
  rcases List.mem_append.mp hc with hc | hc
  · rcases hsign with rfl | rfl
    · cases hc
    · rw [List.mem_singleton.mp hc]
      decide
  · exact not_blank_of_isDigit (hds c hc)

theorem natural?_trim : natural? (Text.trim s) = some n.toNat ↔ Spells s n := by
  rw [natural?_eq_some]
  constructor
  · rintro ⟨h, -⟩
    obtain ⟨before, after, hs, hbefore, hafter⟩ := Text.exists_trim s
    exact ⟨before, _, after, hs, hbefore, hafter, h⟩
  · rintro ⟨before, t, after, hs, hbefore, hafter, h⟩
    obtain ⟨hne, hblank⟩ := h.not_blank
    rw [Text.trim_of_append hs hbefore hafter (fun c hc => hblank c (List.mem_of_mem_head? hc))
      (fun c hc => hblank c (List.mem_of_mem_getLast? hc)) hne, String.toList_ofList]
    exact ⟨h, n.toNat_lt_size⟩

/-- The number that a text spells. -/
def spelled? (s : String) : Option UInt64 := (natural? (Text.trim s)).map UInt64.ofNat

theorem spelled?_eq_some : spelled? s = some n ↔ Spells s n := by
  rw [spelled?, Option.map_eq_some_iff, ← natural?_trim]
  constructor
  · rintro ⟨m, hm, rfl⟩
    rw [UInt64.toNat_ofNat_of_lt' (natural?_eq_some.mp hm).2]
    exact hm
  · exact fun h => ⟨_, h, UInt64.ofNat_toNat⟩

/-- A number comes to what its text spells, and to the usual one if there is no such text. -/
def Comes (value : Option String) (usual n : UInt64) : Prop :=
  (∃ s, value = some s ∧ Spells s n) ∨ (∀ s, value = some s → ∀ m, ¬Spells s m) ∧ n = usual

theorem comes_iff {value : Option String} {usual : UInt64} :
    Comes value usual n ↔ n = (value.bind spelled?).getD usual := by
  simp only [Comes, ← spelled?_eq_some]
  cases value with
  | none => simp
  | some s => cases hs : spelled? s <;> simp [hs, eq_comm]

theorem millis_eq (value : Option String) (usual : UInt64) :
    millis value (.ofMillis usual.toNat) =
      .ofMillis ((value.bind spelled?).getD usual).toNat := by
  unfold millis
  cases value with
  | none => rfl
  | some s =>
    simp only [Option.bind_some, spelled?]
    cases hs : natural? (Text.trim s) with
    | none => rfl
    | some m => simp [UInt64.toNat_ofNat_of_lt' (natural?_eq_some.mp hs).2]

theorem nanos_ofMillis (n : UInt64) :
    (Duration.ofMillis n.toNat).nanos = n.toNat * nanosPerMilli := by
  have hlt := n.toNat_lt_size
  rw [Duration.ofMillis, Duration.nanos_ofNanos, Nat.min_eq_left]
  simp only [longestSpan, nanosPerMilli, nanosPerSecond, UInt64.size] at *
  omega

end Config

end TwinLink
