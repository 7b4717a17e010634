import Mathlib.Data.List.Basic
import TwinLink.Json.Printer
import TwinLink.Proofs.Json.Numerals

/-! Whole numbers of 64 bits. A numeral stands for one exactly if it has neither a fraction nor an
exponent and its digits fit, and an integer within the bounds is written as such a numeral. -/

namespace TwinLink.Json

variable {n : Nat} {ds : List Char} {l : Numeral}

namespace Number

theorem le_ofDigitChars : n ≤ Nat.ofDigitChars 10 ds n := by
  induction ds generalizing n with
  | nil => exact Nat.le_refl n
  | cons c ds ih =>
    rw [Nat.ofDigitChars_cons]
    refine Nat.le_trans ?_ ih
    omega

theorem gather_fits (hds : ∀ c ∈ ds, c.isDigit = true)
    (h : Nat.ofDigitChars 10 ds n ≤ greatestNatural) :
    gather n ds = (Nat.ofDigitChars 10 ds n, ds.length, []) := by
  induction ds generalizing n with
  | nil => rfl
  | cons c ds ih =>
    have hvalue : 10 * n + (c.toNat - '0'.toNat) = n * 10 + digitValue c := by
      rw [Nat.mul_comm, digitValue]
    rw [Nat.ofDigitChars_cons, hvalue] at h
    have hfit : n * 10 + digitValue c ≤ greatestNatural := Nat.le_trans le_ofDigitChars h
    rw [gather, if_pos ⟨hds c (List.mem_cons_self ..), hfit⟩,
      ih (fun d hd => hds d (List.mem_cons_of_mem _ hd)) h, Nat.ofDigitChars_cons, hvalue]
    rfl

theorem fits_of_gather (hn : n ≤ greatestNatural) (h : (gather n ds).2.2 = []) :
    Nat.ofDigitChars 10 ds n ≤ greatestNatural := by
  induction ds generalizing n with
  | nil => exact hn
  | cons c ds ih =>
    rw [gather] at h
    split at h
    · next hfit =>
      rw [Nat.ofDigitChars_cons, Nat.mul_comm]
      exact ih hfit.2 h
    · cases h

/-- What is gathered stays within the bound. -/
theorem gather_le (hn : n ≤ greatestNatural) : (gather n ds).1 ≤ greatestNatural := by
  induction ds generalizing n with
  | nil => exact hn
  | cons c ds ih =>
    rw [gather]
    split
    · next hfit => exact ih hfit.2
    · exact hn

theorem whole_bounds {negative : Bool} {z : Int} (hn : n ≤ greatestNatural)
    (h : whole negative n = .integer z) : leastInteger ≤ z ∧ z ≤ greatestNatural := by
  unfold whole at h
  split at h
  · cases h
    simp only [leastInteger]
    omega
  · split at h
    · next hlow =>
      cases h
      exact ⟨hlow.2, by omega⟩
    · cases h

/-- All that is not a plain row of digits becomes a double. -/
theorem scaled?_ne_integer {negative : Bool} {e z : Int} {x : Option Exponent} :
    Numeral.scaled? negative n e x ≠ some (.integer z) := by
  have hparts : ∀ e, (ofParts negative n e).toOption ≠ some (.integer z) := by
    intro e h
    obtain ⟨y, -, hy⟩ := map_eq_ok.mp (toOption_eq_some.mp h)
    cases hy
  unfold Numeral.scaled?
  split
  · exact hparts _
  · dsimp only
    split
    · exact hparts _
    · split <;> simp

end Number

namespace Numeral

open Number (greatestNatural leastInteger)

theorem number?_fits (hl : IsDigits l.whole) (htail : l.tail = [])
    (h : Nat.ofDigitChars 10 l.whole 0 ≤ greatestNatural) :
    l.number? = some (Number.whole l.negative (Nat.ofDigitChars 10 l.whole 0)) := by
  rw [number?, Number.gather_fits hl.2 h]
  exact if_pos ⟨rfl, htail⟩

theorem number?_eq_integer (hl : IsDigits l.whole) {z : Int} : l.number? = some (.integer z) ↔
    l.tail = [] ∧ Nat.ofDigitChars 10 l.whole 0 ≤ greatestNatural ∧
      Number.whole l.negative (Nat.ofDigitChars 10 l.whole 0) = .integer z := by
  constructor
  · intro h
    by_cases hplain : (Number.gather 0 l.whole).2.2 = [] ∧ l.tail = []
    · have hfit := Number.fits_of_gather (Nat.zero_le _) hplain.1
      rw [number?_fits hl hplain.2 hfit, Option.some.injEq] at h
      exact ⟨hplain.2, hfit, h⟩
    · rw [number?] at h
      simp only [hplain, if_false, decimal?] at h
      split at h <;> exact absurd h Number.scaled?_ne_integer
  · rintro ⟨htail, hfit, hz⟩
    rw [number?_fits hl htail hfit, hz]

/-- An integer that is read has 64 bits. -/
theorem number?_bounds {z : Int} (h : l.number? = some (.integer z)) :
    leastInteger ≤ z ∧ z ≤ greatestNatural := by
  rw [number?] at h
  dsimp only at h
  split at h
  · exact Number.whole_bounds (Number.gather_le (Nat.zero_le _)) (Option.some.inj h)
  · unfold decimal? at h
    split at h <;> exact absurd h Number.scaled?_ne_integer

theorem isNatural_iff : l.IsNatural ↔ l.negative = false ∧ l.tail = [] := by
  rw [Number.tail_eq_nil_iff]
  exact ⟨fun h => ⟨h.positive, h.fraction, h.exponent⟩, fun h => ⟨h.1, h.2.1, h.2.2⟩⟩

/-- The numerals of natural numbers of 64 bits. -/
theorem number?_eq_natural (hl : IsDigits l.whole) : l.number? = some (.integer (.ofNat n)) ↔
    l.IsNatural ∧ Nat.ofDigitChars 10 l.whole 0 = n ∧ n ≤ greatestNatural := by
  rw [number?_eq_integer hl, isNatural_iff]
  constructor
  · rintro ⟨htail, hfit, hz⟩
    cases hneg : l.negative with
    | false =>
      rw [hneg] at hz
      cases hz
      exact ⟨⟨rfl, htail⟩, rfl, hfit⟩
    | true =>
      rw [hneg, Number.whole] at hz
      simp only [Bool.not_true, Bool.false_eq_true, if_false] at hz
      split at hz
      · next hv =>
        simp only [Number.integer.injEq, Int.ofNat_eq_natCast] at hz
        omega
      · cases hz
  · rintro ⟨⟨hneg, htail⟩, rfl, hfit⟩
    exact ⟨htail, hfit, by rw [hneg]; rfl⟩

end Numeral

section Printing

theorem isDigits_naturalChars (n : Nat) : IsDigits (naturalChars n) :=
  ⟨Nat.toDigits_ne_nil, fun _ => Nat.isDigit_of_mem_toDigits (by decide) (by decide)⟩

/-- The digits of a number begin with a zero only if it is zero. -/
theorem head?_naturalChars (hn : n ≠ 0) : (naturalChars n).head? ≠ some '0' := by
  induction n using Nat.strongRecOn with
  | ind n ih =>
    rw [naturalChars]
    by_cases h : n < 10
    · rw [Nat.toDigits_of_lt_base h]
      have hdigit : ∀ m < 10, m ≠ 0 → [m.digitChar].head? ≠ some '0' := by decide
      exact hdigit n h hn
    · have hten : n / 10 ≠ 0 := by omega
      rw [Nat.toDigits_of_base_le (by decide) (by omega),
        List.head?_append_of_ne_nil _ Nat.toDigits_ne_nil]
      exact ih (n / 10) (by omega) hten

/-- An integer as it is written. -/
def Numeral.ofInt (z : Int) : Numeral := ⟨decide (z < 0), naturalChars z.natAbs, none, none⟩

namespace Numeral

open Number (greatestNatural leastInteger)

variable {z : Int}

theorem ofInt_wellFormed (z : Int) : (ofInt z).WellFormed where
  whole := isDigits_naturalChars z.natAbs
  leading := by
    by_cases hz : z.natAbs = 0
    · left
      rw [ofInt, hz]
      rfl
    · exact .inr (head?_naturalChars hz)
  fraction ds h := by cases h
  exponent x h := by cases h

theorem chars_ofInt (z : Int) : (ofInt z).chars = integerChars z := by
  by_cases hz : z < 0 <;>
    simp [chars, ofInt, unsigned, tail, Exponent.chars, integerChars, hz]

theorem number?_ofInt (hlow : leastInteger ≤ z) (hhigh : z ≤ greatestNatural) :
    (ofInt z).number? = some (.integer z) := by
  have hdigits : Nat.ofDigitChars 10 (ofInt z).whole 0 = z.natAbs := Nat.ofDigitChars_ten_toDigits
  rw [number?_eq_integer (isDigits_naturalChars z.natAbs)]
  refine ⟨rfl, ?_, ?_⟩
  · rw [hdigits]
    simp only [leastInteger, greatestNatural, UInt64.size] at *
    omega
  · rw [hdigits]
    show Number.whole (decide (z < 0)) z.natAbs = .integer z
    by_cases hz : z < 0
    · have hneg : -(z.natAbs : Int) = z := by omega
      rw [decide_eq_true hz, Number.whole, if_neg (by decide), hneg, if_pos ⟨by omega, hlow⟩]
    · have hpos : (z.natAbs : Int) = z := by omega
      rw [decide_eq_false hz, Number.whole, if_pos (by decide), hpos]

end Numeral

end Printing

end TwinLink.Json
