import TwinLink.Proofs.Json.Integers

/-! Doubles as they are written. The shortest digits of a number other than zero are not zero, so
that every finite double is written as a numeral, without leading zeros. -/

namespace TwinLink

namespace Decimal.Shortest

variable {m num den fuel : Nat} {q e : Int} {d : Scientific}

/-- Zero lies below the interval of every number. -/
theorem digits_ne_zero_of_readsBack (hm : m ≠ 0) (h : readsBack m q d = true) : d.digits ≠ 0 := by
  intro hd
  have hup : 0 < Nat.pow 2 (q - 2).toNat := Nat.pow_pos (by decide)
  have hden : 0 < 1 * Nat.pow 10 (-d.exponent).toNat :=
    Nat.mul_pos (by decide) (Nat.pow_pos (by decide))
  have hlow : 0 < if m = Nat.pow 2 52 ∧ Double.leastExponent < q then 4 * m - 1 else 4 * m - 2 := by
    split <;> omega
  have hpos := Nat.mul_pos (Nat.mul_pos hlow hup) hden
  simp only [readsBack, scaled, hd, Nat.zero_mul] at h
  split at h
  · simp only [Bool.and_eq_true, decide_eq_true_eq] at h
    omega
  · simp only [Bool.and_eq_true, decide_eq_true_eq] at h
    omega

theorem candidate_digits (hm : m ≠ 0) (h : candidate m q num den e = some d) : d.digits ≠ 0 := by
  simp only [candidate] at h
  split at h
  · next hboth =>
    simp only [Bool.and_eq_true] at hboth
    have hlow := digits_ne_zero_of_readsBack hm hboth.1
    cases h
    dsimp only
    split
    · exact Nat.succ_ne_zero _
    · exact hlow
  · split at h
    · next hlow =>
      cases h
      exact digits_ne_zero_of_readsBack hm hlow
    · split at h
      · cases h
        exact Nat.succ_ne_zero _
      · cases h

theorem strip_digits (hd : d.digits ≠ 0) : (strip fuel d).digits ≠ 0 := by
  induction fuel generalizing d with
  | zero => exact hd
  | succ fuel ih =>
    rw [strip]
    split
    · refine ih ?_
      dsimp only
      omega
    · exact hd

theorem ofBinary_digits (hm : m ≠ 0) : (ofBinary m q).digits ≠ 0 := by
  simp only [ofBinary]
  split
  · next d hd =>
    obtain ⟨n, -, hn⟩ := List.exists_of_findSome?_eq_some hd
    exact strip_digits (candidate_digits hm hn)
  · have htwo : Nat.pow 2 q.toNat ≠ 0 := (Nat.pow_pos (by decide)).ne'
    have hfive : Nat.pow 5 (-q).toNat ≠ 0 := (Nat.pow_pos (by decide)).ne'
    exact Nat.mul_ne_zero (Nat.mul_ne_zero hm htwo) hfive

end Decimal.Shortest

namespace Json

open Decimal (Double Scientific)

variable {ds : List Char}

namespace Notation

theorem exponential_numeral (hds : IsDigits ds) (negative : Bool) (e : Int) :
    ∃ l : Numeral, l.WellFormed ∧ l.negative = negative ∧ exponential ds e = l.unsigned := by
  obtain ⟨d, rest, rfl⟩ := List.exists_cons_of_ne_nil hds.1
  refine ⟨⟨negative, [d], if rest = [] then none else some rest,
    some ⟨'e', [if e < 0 then '-' else '+'], naturalChars e.natAbs⟩⟩, ⟨?_, ?_, ?_, ?_⟩, rfl, ?_⟩
  · exact ⟨by simp, fun c hc => hds.2 c (by simp_all)⟩
  · by_cases hd : d = '0' <;> simp [hd]
  · intro fraction hf
    split at hf
    · cases hf
    · next hrest =>
      cases hf
      exact ⟨hrest, fun c hc => hds.2 c (List.mem_cons_of_mem _ hc)⟩
  · intro x hx
    cases hx
    refine ⟨.inl rfl, ?_, isDigits_naturalChars _⟩
    dsimp only
    split <;> simp
  · by_cases hrest : rest = [] <;>
      simp [exponential, hrest, Numeral.unsigned, Numeral.tail, Exponent.chars]

theorem isDigits_zero : IsDigits ['0'] := by
  refine ⟨List.cons_ne_nil _ _, fun c hc => ?_⟩
  rw [List.mem_singleton.mp hc]
  decide

theorem isDigit_zeros {count : Nat} : ∀ c ∈ List.replicate count '0', c.isDigit = true := by
  intro c hc
  rw [List.eq_of_mem_replicate hc]
  decide

theorem isDigit_append {es : List Char} (hds : ∀ c ∈ ds, c.isDigit = true)
    (hes : ∀ c ∈ es, c.isDigit = true) : ∀ c ∈ ds ++ es, c.isDigit = true :=
  fun c hc => (List.mem_append.mp hc).elim (hds c) (hes c)

/-- A plain number with decimals. -/
theorem decimal_numeral {whole decimals : List Char} (hwhole : IsDigits whole)
    (hz : whole = ['0'] ∨ whole.head? ≠ some '0') (hdecimals : IsDigits decimals)
    (negative : Bool) : ∃ l : Numeral, l.WellFormed ∧ l.negative = negative ∧
      whole ++ '.' :: decimals = l.unsigned := by
  refine ⟨⟨negative, whole, some decimals, none⟩, ⟨hwhole, hz, ?_, ?_⟩, rfl, ?_⟩
  · intro ds h
    cases h
    exact hdecimals
  · intro x h
    cases h
  · simp [Numeral.unsigned, Numeral.tail, Exponent.chars]

theorem layout_numeral (hds : IsDigits ds) (hz : ds.head? ≠ some '0') (negative : Bool)
    (point : Int) :
    ∃ l : Numeral, l.WellFormed ∧ l.negative = negative ∧ layout ds point = l.unsigned := by
  obtain ⟨hne, hdigit⟩ := hds
  obtain ⟨d, rest, hd⟩ := List.exists_cons_of_ne_nil hne
  have hd0 : d ≠ '0' := by simpa [hd] using hz
  rw [layout]
  split
  · exact exponential_numeral ⟨hne, hdigit⟩ negative (point - 1)
  split
  · refine decimal_numeral isDigits_zero (.inl rfl) ⟨?_, ?_⟩ negative
    · simp [hne]
    · exact isDigit_append isDigit_zeros hdigit
  split
  · refine decimal_numeral ⟨?_, isDigit_append hdigit isDigit_zeros⟩ (.inr ?_) isDigits_zero
      negative
    · simp [hne]
    · simpa [hd] using hd0
  · next hlong =>
    obtain ⟨n, hn⟩ : ∃ n, point.toNat = n + 1 := ⟨point.toNat - 1, by omega⟩
    refine decimal_numeral ⟨?_, fun c hc => hdigit c (List.mem_of_mem_take hc)⟩ (.inr ?_)
      ⟨?_, fun c hc => hdigit c (List.mem_of_mem_drop hc)⟩ negative
    · simp [hd, hn]
    · simpa [hd, hn] using hd0
    · rw [ne_eq, List.drop_eq_nil_iff]
      exact hlong

end Notation

/-- A finite double is written as a numeral. -/
theorem floatChars_finite (negative : Bool) (m : Nat) (q : Int) :
    ∃ l : Numeral, l.WellFormed ∧ floatChars (.finite negative m q) = l.chars := by
  obtain ⟨l, hl, hneg, hchars⟩ : ∃ l : Numeral, l.WellFormed ∧ l.negative = negative ∧
      (if m = 0 then ['0', '.', '0'] else
        Notation.scientific (Decimal.Shortest.ofBinary m q)) = l.unsigned := by
    split
    · exact Notation.decimal_numeral Notation.isDigits_zero (.inl rfl) Notation.isDigits_zero
        negative
    · next hm =>
      exact Notation.layout_numeral (isDigits_naturalChars _)
        (head?_naturalChars (Decimal.Shortest.ofBinary_digits hm)) negative _
  refine ⟨l, hl, ?_⟩
  rw [floatChars, hchars, Numeral.chars, hneg]
  cases negative <;> rfl

end Json

end TwinLink
