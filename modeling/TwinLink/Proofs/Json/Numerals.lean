import Mathlib.Data.List.TakeWhile
import TwinLink.Proofs.Json.Strings

/-! Reading numbers. A reader takes as many characters as can belong to a numeral, so that what
follows a numeral must not continue it; a delimiter does not. -/

namespace TwinLink.Json

variable {n : Nat} {e : Int} {negative : Bool} {ds s t : List Char}

/-- `s` does not begin with a digit. -/
def NoDigit (s : List Char) : Prop := ∀ c ∈ s.head?, c.isDigit = false

theorem takeWhile_digits (hds : ∀ c ∈ ds, c.isDigit = true) (ht : NoDigit t) :
    (ds ++ t).takeWhile Char.isDigit = ds := by
  rw [List.takeWhile_append_of_pos hds]
  rcases t with _ | ⟨c, t⟩
  · simp
  · rw [List.takeWhile_cons_of_neg (by simp [ht c rfl]), List.append_nil]

theorem dropWhile_digits (hds : ∀ c ∈ ds, c.isDigit = true) (ht : NoDigit t) :
    (ds ++ t).dropWhile Char.isDigit = t := by
  rw [List.dropWhile_append_of_pos hds]
  rcases t with _ | ⟨c, t⟩
  · rfl
  · rw [List.dropWhile_cons_of_neg (by simp [ht c rfl])]

theorem exists_digits (s : List Char) :
    ∃ ds t, s = ds ++ t ∧ (∀ c ∈ ds, c.isDigit = true) ∧ NoDigit t := by
  refine ⟨s.takeWhile Char.isDigit, s.dropWhile Char.isDigit, List.takeWhile_append_dropWhile.symm,
    fun c hc => List.mem_takeWhile_imp hc, fun c hc => ?_⟩
  have h := List.head?_dropWhile_not Char.isDigit s
  rw [Option.mem_def.mp hc] at h
  simpa using h

/-- A delimiter continues no numeral. -/
theorem Delimited.noDigit (h : Delimited t) : NoDigit t := by
  intro c hc
  rcases isDelimiter_iff.mp (h c hc) with rfl | rfl | rfl | rfl | rfl | rfl | rfl <;> decide

theorem Delimited.ne_mark (h : Delimited t) :
    ∀ c ∈ t.head?, c ≠ '.' ∧ c ≠ 'e' ∧ c ≠ 'E' := by
  intro c hc
  rcases isDelimiter_iff.mp (h c hc) with rfl | rfl | rfl | rfl | rfl | rfl | rfl <;> decide

/-- No sign comes next. -/
def NoSign (s : List Char) : Prop := ∀ c ∈ s.head?, c ≠ '+' ∧ c ≠ '-'

theorem noSign_or (s : List Char) : NoSign s ∨ ∃ m t, (m = '+' ∨ m = '-') ∧ s = m :: t := by
  rcases s with _ | ⟨c, s⟩
  · exact .inl fun c hc => by cases hc
  by_cases hc : c = '+' ∨ c = '-'
  · exact .inr ⟨c, s, hc, rfl⟩
  · refine .inl fun d hd => ?_
    cases hd
    exact not_or.mp hc

theorem IsDigits.noSign (hds : IsDigits ds) : NoSign (ds ++ t) := by
  intro c hc
  obtain ⟨d, rest, rfl⟩ := List.exists_cons_of_ne_nil hds.1
  have hd : d.isDigit = true := hds.2 d (by simp)
  cases hc
  constructor <;> (rintro rfl; cases hd)

namespace Number

theorem gather_append (hds : ∀ c ∈ ds, c.isDigit = true) (ht : NoDigit t) :
    gather n (ds ++ t) = ((gather n ds).1, (gather n ds).2.1, (gather n ds).2.2 ++ t) := by
  induction ds generalizing n with
  | nil =>
    rcases t with _ | ⟨c, t⟩
    · rfl
    · simp [gather, ht c rfl]
  | cons c ds ih =>
    rw [List.cons_append, gather, gather]
    split
    · rw [ih fun c hc => hds c (List.mem_cons_of_mem _ hc)]
    · rfl

theorem gather_suffix : (gather n ds).2.2 <:+ ds := by
  induction ds generalizing n with
  | nil => exact List.suffix_refl _
  | cons c ds ih =>
    rw [gather]
    split
    · exact ih.trans (List.suffix_cons c ds)
    · exact List.suffix_refl _

theorem gather_length : (gather n ds).2.1 + (gather n ds).2.2.length = ds.length := by
  induction ds generalizing n with
  | nil => rfl
  | cons c ds ih =>
    rw [gather]
    split
    · have h := @ih (n * 10 + digitValue c)
      cases hg : gather (n * 10 + digitValue c) ds with
      | mk m r =>
        rw [hg] at h
        simp only [List.length_cons] at h ⊢
        omega
    · simp

/-- What `withExponent` makes of the digits behind the sign. -/
def byPower (negative : Bool) (n : Nat) (e : Int) (down : Bool) (s : List Char) :
    Except Fault (Number × List Char) :=
  match s with
  | [] => .error .endOfValue
  | c :: _ =>
    if c.isDigit then
      let value := (s.takeWhile Char.isDigit).foldl (fun n c => n * 10 + digitValue c) 0
      let rest := s.dropWhile Char.isDigit
      if value ≤ greatestExponent then
        (ofParts negative n (if down then e - value else e + value)).map (·, rest)
      else if n ≠ 0 ∧ !down then .error .numberOutOfRange
      else .ok (float (signed negative (Decimal.Double.zero false)), rest)
    else .error .invalidNumber

theorem withExponent_plus :
    withExponent negative n e ('+' :: s) = byPower negative n e false s := rfl

theorem withExponent_minus :
    withExponent negative n e ('-' :: s) = byPower negative n e true s := rfl

theorem withExponent_unsigned (h : NoSign s) :
    withExponent negative n e s = byPower negative n e false s := by
  unfold withExponent
  split
  next s' hs =>
    split at hs
    · exact absurd rfl (h '+' rfl).1
    · exact absurd rfl (h '-' rfl).2
    · cases hs
      rfl

theorem foldl_digits :
    ds.foldl (fun n c => n * 10 + digitValue c) n = Nat.ofDigitChars 10 ds n := by
  simp only [Nat.ofDigitChars_eq_foldl, Nat.mul_comm, digitValue]

theorem byPower_digits {x : Exponent} (hds : IsDigits x.digits) (ht : NoDigit t) :
    (byPower negative n e (x.sign = ['-']) (x.digits ++ t)).toOption =
      (Numeral.scaled? negative n e (some x)).map (·, t) := by
  obtain ⟨d, ds, hd⟩ := List.exists_cons_of_ne_nil hds.1
  have hdigit : d.isDigit = true := hds.2 d (by simp [hd])
  have htake := takeWhile_digits hds.2 ht
  have hdrop := dropWhile_digits hds.2 ht
  have hs : x.digits ++ t = d :: (ds ++ t) := by rw [hd, List.cons_append]
  rw [byPower.eq_def, hs]
  simp only [← hs, hdigit, if_true, htake, hdrop, foldl_digits, Numeral.scaled?, decide_eq_true_eq]
  split
  · rcases ofParts negative n _ <;> rfl
  · split
    · next h =>
      rw [if_pos (by simpa using h)]
      rfl
    · next h =>
      rw [if_neg (by simpa using h)]
      rfl

theorem byPower_sound {v : Number} {down : Bool} (h : byPower negative n e down s = .ok (v, t)) :
    ∃ ds, IsDigits ds ∧ NoDigit t ∧ s = ds ++ t := by
  obtain ⟨ds, u, rfl, hds, hu⟩ := exists_digits s
  rw [byPower.eq_def] at h
  simp only [takeWhile_digits hds hu, dropWhile_digits hds hu] at h
  split at h
  · cases h
  next c rest hs =>
  split at h
  · next hc =>
    have hne : ds ≠ [] := by
      rintro rfl
      rw [List.nil_append] at hs
      subst hs
      simp [hu c rfl] at hc
    have ht : t = u := by
      split at h
      · simp only [map_eq_ok, Prod.mk.injEq] at h
        obtain ⟨-, -, -, h⟩ := h
        exact h.symm
      · split at h
        · cases h
        · cases h
          rfl
    subst ht
    exact ⟨ds, ⟨hne, hds⟩, hu, rfl⟩
  · cases h

theorem withExponent_eq {x : Exponent} (hx : x.WellFormed) (ht : NoDigit t) :
    (withExponent negative n e (x.sign ++ x.digits ++ t)).toOption =
      (Numeral.scaled? negative n e (some x)).map (·, t) := by
  rw [← byPower_digits hx.digits ht]
  rcases hx.sign with hs | hs | hs
  · rw [hs, List.nil_append, withExponent_unsigned hx.digits.noSign]
    rfl
  · rw [hs]
    rfl
  · rw [hs]
    rfl

theorem withExponent_sound {v : Number} (h : withExponent negative n e s = .ok (v, t)) :
    ∃ sign ds, (sign = [] ∨ sign = ['+'] ∨ sign = ['-']) ∧ IsDigits ds ∧ NoDigit t ∧
      s = sign ++ ds ++ t := by
  rcases noSign_or s with hs | ⟨m, s, rfl | rfl, rfl⟩
  · rw [withExponent_unsigned hs] at h
    obtain ⟨ds, hds, ht, rfl⟩ := byPower_sound h
    exact ⟨[], ds, .inl rfl, hds, ht, rfl⟩
  · obtain ⟨ds, hds, ht, rfl⟩ := byPower_sound (withExponent_plus ▸ h)
    exact ⟨['+'], ds, .inr (.inl rfl), hds, ht, rfl⟩
  · obtain ⟨ds, hds, ht, rfl⟩ := byPower_sound (withExponent_minus ▸ h)
    exact ⟨['-'], ds, .inr (.inr rfl), hds, ht, rfl⟩

/-- No mark of an exponent comes next. -/
def NoMark (s : List Char) : Prop := ∀ c ∈ s.head?, c ≠ 'e' ∧ c ≠ 'E'

theorem afterDecimals_unmarked (h : NoMark s) :
    afterDecimals negative n e s = (ofParts negative n e).map (·, s) := by
  unfold afterDecimals
  split
  · exact absurd rfl (h 'e' rfl).1
  · exact absurd rfl (h 'E' rfl).2
  · rfl

theorem afterDecimals_marked {m : Char} (h : m = 'e' ∨ m = 'E') :
    afterDecimals negative n e (m :: s) = withExponent negative n e s := by
  rcases h with rfl | rfl <;> rfl

theorem afterDecimals_eq {x : Option Exponent} (hx : ∀ y ∈ x, y.WellFormed) (ht : NoDigit t)
    (hm : NoMark t) : (afterDecimals negative n e (Exponent.chars x ++ t)).toOption =
      (Numeral.scaled? negative n e x).map (·, t) := by
  cases x with
  | none =>
    rw [Exponent.chars, List.nil_append, afterDecimals_unmarked hm, Numeral.scaled?]
    rcases ofParts negative n e <;> rfl
  | some x =>
    have hw := hx x rfl
    rw [Exponent.chars, List.cons_append, afterDecimals_marked hw.mark, withExponent_eq hw ht]

theorem noMark_or (s : List Char) : NoMark s ∨ ∃ m t, (m = 'e' ∨ m = 'E') ∧ s = m :: t := by
  rcases s with _ | ⟨c, s⟩
  · exact .inl fun c hc => by cases hc
  by_cases hc : c = 'e' ∨ c = 'E'
  · exact .inr ⟨c, s, hc, rfl⟩
  · refine .inl fun d hd => ?_
    cases hd
    exact not_or.mp hc

theorem afterDecimals_sound {v : Number} (h : afterDecimals negative n e s = .ok (v, t)) :
    ∃ x, (∀ y ∈ x, y.WellFormed) ∧ s = Exponent.chars x ++ t ∧ (x = none → NoMark t) ∧
      Numeral.scaled? negative n e x = some v := by
  rcases noMark_or s with hs | ⟨m, s, hm, rfl⟩
  · rw [afterDecimals_unmarked hs, map_eq_ok] at h
    obtain ⟨w, hw, h⟩ := h
    cases h
    exact ⟨none, by simp, rfl, fun _ => hs, by rw [Numeral.scaled?, hw]; rfl⟩
  · rw [afterDecimals_marked hm] at h
    obtain ⟨sign, ds, hsign, hds, ht, rfl⟩ := withExponent_sound h
    have hx : Exponent.WellFormed ⟨m, sign, ds⟩ := ⟨hm, hsign, hds⟩
    have heq : (withExponent negative n e (sign ++ ds ++ t)).toOption = _ := withExponent_eq hx ht
    rw [h] at heq
    obtain ⟨w, hw, hv⟩ := Option.map_eq_some_iff.mp heq.symm
    cases hv
    exact ⟨some ⟨m, sign, ds⟩, by simpa using hx, by simp [Exponent.chars], by simp, hw⟩

theorem decimals_eq (hds : IsDigits ds) (ht : NoDigit t) : decimals negative n e (ds ++ t) =
    afterDecimals negative (gather n ds).1 (e - (gather n ds).2.1) t := by
  have hlen : (gather n ds).2.1 + (gather n ds).2.2.length = ds.length := gather_length
  have hsuffix : (gather n ds).2.2 <:+ ds := gather_suffix
  rw [decimals, gather_append hds.2 ht]
  generalize gather n ds = g at hlen hsuffix ⊢
  obtain ⟨m, count, beyond⟩ := g
  dsimp only at hlen hsuffix ⊢
  rcases beyond with _ | ⟨d, beyond⟩
  · have hcount : count ≠ 0 := by
      have := List.length_pos_iff.mpr hds.1
      rw [List.length_nil] at hlen
      omega
    rcases t with _ | ⟨c, t⟩
    · simp [hcount]
    · simp [hcount, ht c rfl]
  · have hbeyond : ∀ c ∈ d :: beyond, c.isDigit = true := fun c hc => hds.2 c (hsuffix.mem hc)
    have hdrop := dropWhile_digits hbeyond ht
    simp only [List.cons_append, hbeyond d (by simp), if_true] at hdrop ⊢
    rw [hdrop]

theorem decimals_sound {v : Number} (h : decimals negative n e s = .ok (v, t)) :
    ∃ ds u, IsDigits ds ∧ NoDigit u ∧ s = ds ++ u := by
  obtain ⟨ds, u, rfl, hds, hu⟩ := exists_digits s
  refine ⟨ds, u, ⟨?_, hds⟩, hu, rfl⟩
  rintro rfl
  rcases u with _ | ⟨c, u⟩
  · cases h
  · simp [decimals, gather, hu c rfl] at h

theorem afterLong_unpointed (h : ∀ c ∈ s.head?, c ≠ '.') :
    afterLong negative n e s = afterDecimals negative n e s := by
  unfold afterLong
  split
  · exact absurd rfl (h '.' rfl)
  · rfl

theorem afterWhole_unmarked (h : ∀ c ∈ s.head?, c ≠ '.' ∧ c ≠ 'e' ∧ c ≠ 'E') :
    afterWhole negative n s = .ok (whole negative n, s) := by
  unfold afterWhole
  split
  · exact absurd rfl (h '.' rfl).1
  · exact absurd rfl (h 'e' rfl).2.1
  · exact absurd rfl (h 'E' rfl).2.2
  · rfl

/-- Only the end of a number makes a difference between whole digits that fit and others. -/
theorem afterWhole_marked {m : Char} (h : m = '.' ∨ m = 'e' ∨ m = 'E') :
    afterWhole negative n (m :: s) = afterLong negative n 0 (m :: s) := by
  rcases h with rfl | rfl | rfl <;> rfl

variable {l : Numeral}

theorem head?_exponent {c : Char} {x : Option Exponent} (hx : ∀ y ∈ x, y.WellFormed)
    (hc : c ∈ (Exponent.chars x ++ t).head?) : c = 'e' ∨ c = 'E' ∨ c ∈ t.head? := by
  cases x with
  | none => exact .inr (.inr hc)
  | some x =>
    rw [Exponent.chars, List.cons_append, List.head?_cons, Option.mem_some] at hc
    rcases (hx x rfl).mark with h | h
    · exact .inl (hc ▸ h)
    · exact .inr (.inl (hc ▸ h))

theorem head?_tail {c : Char} (hl : l.WellFormed) (hc : c ∈ (l.tail ++ t).head?) :
    c = '.' ∨ c = 'e' ∨ c = 'E' ∨ c ∈ t.head? := by
  rw [Numeral.tail] at hc
  split at hc
  · exact .inr (head?_exponent hl.exponent hc)
  · rw [List.cons_append, List.head?_cons, Option.mem_some] at hc
    exact .inl hc.symm

theorem noDigit_exponent {x : Option Exponent} (hx : ∀ y ∈ x, y.WellFormed) (ht : NoDigit t) :
    NoDigit (Exponent.chars x ++ t) := by
  intro c hc
  rcases head?_exponent hx hc with rfl | rfl | hc
  · decide
  · decide
  · exact ht c hc

theorem noDigit_tail (hl : l.WellFormed) (ht : NoDigit t) : NoDigit (l.tail ++ t) := by
  intro c hc
  rcases head?_tail hl hc with rfl | rfl | rfl | hc
  · decide
  · decide
  · decide
  · exact ht c hc

theorem afterLong_eq (hl : l.WellFormed) (ht : Delimited t) :
    (afterLong l.negative n e (l.tail ++ t)).toOption = (l.decimal? n e).map (·, t) := by
  have hm : NoMark t := fun c hc => (ht.ne_mark c hc).2
  rw [Numeral.tail, Numeral.decimal?]
  cases hf : l.fraction with
  | none =>
    dsimp only
    rw [afterLong_unpointed, afterDecimals_eq hl.exponent ht.noDigit hm]
    intro c hc
    rcases head?_exponent hl.exponent hc with rfl | rfl | hc
    · decide
    · decide
    · exact (ht.ne_mark c hc).1
  | some ds =>
    dsimp only
    rw [List.cons_append, List.append_assoc, afterLong,
      decimals_eq (hl.fraction ds hf) (noDigit_exponent hl.exponent ht.noDigit),
      afterDecimals_eq hl.exponent ht.noDigit hm]

theorem afterLong_sound {v : Number} (h : afterLong negative n e s = .ok (v, t)) :
    ∃ f x, (∀ ds ∈ f, IsDigits ds) ∧ (∀ y ∈ x, y.WellFormed) ∧
      (f = none → x = none → ∀ c ∈ t.head?, c ≠ '.' ∧ c ≠ 'e' ∧ c ≠ 'E') ∧
      ∀ whole, s = Numeral.tail ⟨negative, whole, f, x⟩ ++ t ∧
        Numeral.decimal? ⟨negative, whole, f, x⟩ n e = some v := by
  by_cases hp : ∃ u, s = '.' :: u
  · obtain ⟨u, rfl⟩ := hp
    obtain ⟨ds, u, hds, hu, rfl⟩ := decimals_sound h
    rw [afterLong, decimals_eq hds hu] at h
    obtain ⟨x, hx, rfl, -, hv⟩ := afterDecimals_sound h
    exact ⟨some ds, x, by simpa using hds, hx, by simp, fun whole => ⟨by simp [Numeral.tail], hv⟩⟩
  · have hs : ∀ c ∈ s.head?, c ≠ '.' := by
      rintro c hc rfl
      exact hp (List.head?_eq_some_iff.mp hc)
    rw [afterLong_unpointed hs] at h
    obtain ⟨x, hx, rfl, hm, hv⟩ := afterDecimals_sound h
    refine ⟨none, x, by simp, hx, ?_, fun whole => ⟨rfl, hv⟩⟩
    rintro - rfl c hc
    exact ⟨hs c hc, hm rfl c hc⟩

theorem read_digits (hds : IsDigits ds) (hz : ds = ['0'] ∨ ds.head? ≠ some '0') (ht : NoDigit t) :
    read negative (ds ++ t) = if (gather 0 ds).2.2 = [] then afterWhole negative (gather 0 ds).1 t
      else afterLong negative (gather 0 ds).1 (gather 0 ds).2.2.length t := by
  obtain ⟨d, rest, hd⟩ := List.exists_cons_of_ne_nil hds.1
  by_cases h0 : d = '0'
  · subst h0
    obtain rfl : ds = ['0'] := hz.resolve_right (by simp [hd])
    have hg : gather 0 ['0'] = (0, 1, []) := by decide
    rw [hg, if_pos rfl]
    rcases t with _ | ⟨c, t⟩
    · rfl
    · simp [read, ht c rfl]
  have hsuffix : (gather 0 ds).2.2 <:+ ds := gather_suffix
  have hdigit : d.isDigit = true := hds.2 d (by simp [hd])
  have hs : ds ++ t = d :: (rest ++ t) := by rw [hd, List.cons_append]
  rw [read.eq_def, hs]
  simp only [← hs, h0, hdigit, if_false, if_true, gather_append hds.2 ht]
  generalize gather 0 ds = g at hsuffix ⊢
  obtain ⟨n, count, beyond⟩ := g
  rcases beyond with _ | ⟨c, beyond⟩
  · rcases t with _ | ⟨c, t⟩
    · rfl
    · simp [ht c rfl]
  · have hbeyond : ∀ x ∈ c :: beyond, x.isDigit = true := fun x hx => hds.2 x (hsuffix.mem hx)
    have htake := takeWhile_digits hbeyond ht
    have hdrop := dropWhile_digits hbeyond ht
    simp only [List.cons_append] at htake hdrop
    simp [hbeyond c (by simp), htake, hdrop]

/-- A number begins with digits, without leading zeros. -/
theorem read_leading {r : Number × List Char} (h : read negative s = .ok r) : ∃ ds t, s = ds ++ t ∧
    IsDigits ds ∧ (ds = ['0'] ∨ ds.head? ≠ some '0') ∧ NoDigit t := by
  obtain ⟨ds, t, rfl, hds, ht⟩ := exists_digits s
  rcases ds with _ | ⟨d, ds⟩
  · rcases t with _ | ⟨c, t⟩
    · cases h
    · have hc : c.isDigit = false := ht c rfl
      have h0 : c ≠ '0' := by
        rintro rfl
        cases hc
      simp [read, hc, h0] at h
  · refine ⟨d :: ds, t, rfl, ⟨by simp, hds⟩, ?_, ht⟩
    by_cases h0 : d = '0'
    · subst h0
      rcases ds with _ | ⟨c, ds⟩
      · exact .inl rfl
      · simp [read, hds c (by simp)] at h
    · exact .inr (by simpa using h0)

theorem tail_eq_nil_iff : l.tail = [] ↔ l.fraction = none ∧ l.exponent = none := by
  rw [Numeral.tail]
  cases l.fraction <;> cases l.exponent <;> simp [Exponent.chars]

/-- What a numeral comes to, read to its end. -/
theorem read_eq (hl : l.WellFormed) (ht : Delimited t) :
    (read l.negative (l.unsigned ++ t)).toOption = l.number?.map (·, t) := by
  have hlong := @afterLong_eq (gather 0 l.whole).1 (gather 0 l.whole).2.2.length t l hl ht
  have hhead : ∀ c ∈ (l.tail ++ []).head?, c = '.' ∨ c = 'e' ∨ c = 'E' ∨ c ∈ [].head? :=
    fun c => head?_tail hl
  rw [Numeral.unsigned, List.append_assoc,
    read_digits hl.whole hl.leading (noDigit_tail hl ht.noDigit), Numeral.number?]
  generalize gather 0 l.whole = g at hlong ⊢
  obtain ⟨n, count, beyond⟩ := g
  dsimp only at hlong ⊢
  by_cases hb : beyond = []
  · rw [if_pos hb]
    subst hb
    rcases htail : l.tail with _ | ⟨m, u⟩
    · rw [List.nil_append, afterWhole_unmarked ht.ne_mark, if_pos ⟨rfl, rfl⟩]
      rfl
    · rw [htail] at hlong hhead
      rw [if_neg (by simp), ← hlong, List.cons_append, afterWhole_marked]
      · rfl
      · simpa using hhead m rfl
  · rw [if_neg hb, if_neg (fun h => hb h.1), hlong]

theorem exists_mark (h : ¬∀ c ∈ s.head?, c ≠ '.' ∧ c ≠ 'e' ∧ c ≠ 'E') :
    ∃ m t, s = m :: t ∧ (m = '.' ∨ m = 'e' ∨ m = 'E') := by
  rcases s with _ | ⟨m, t⟩
  · exact absurd (fun c hc => by cases hc) h
  · refine ⟨m, t, rfl, ?_⟩
    by_contra hm
    refine h fun c hc => ?_
    cases hc
    simpa [not_or] using hm

theorem read_sound {v : Number} (h : read negative s = .ok (v, t)) : ∃ l : Numeral, l.WellFormed ∧
    l.negative = negative ∧ s = l.unsigned ++ t ∧ l.number? = some v := by
  obtain ⟨ds, u, rfl, hds, hz, hu⟩ := read_leading h
  rw [read_digits hds hz hu] at h
  -- The numeral is put together from what is read behind the whole digits.
  have build : ∀ f x, (∀ ds ∈ f, IsDigits ds) → (∀ y ∈ x, y.WellFormed) →
      Numeral.WellFormed ⟨negative, ds, f, x⟩ := fun f x hf hx => ⟨hds, hz, hf, hx⟩
  split at h
  · next hb =>
    by_cases hm : ∀ c ∈ u.head?, c ≠ '.' ∧ c ≠ 'e' ∧ c ≠ 'E'
    · rw [afterWhole_unmarked hm] at h
      cases h
      refine ⟨⟨negative, ds, none, none⟩, build _ _ (by simp) (by simp), rfl, ?_, ?_⟩
      · simp [Numeral.unsigned, Numeral.tail, Exponent.chars]
      · simp [Numeral.number?, Numeral.tail, Exponent.chars, hb]
    · obtain ⟨m, u, rfl, hmark⟩ := exists_mark hm
      rw [afterWhole_marked hmark] at h
      obtain ⟨f, x, hf, hx, hend, hfx⟩ := afterLong_sound h
      obtain ⟨hu, hv⟩ := hfx ds
      refine ⟨⟨negative, ds, f, x⟩, build f x hf hx, rfl, ?_, ?_⟩
      · rw [hu, Numeral.unsigned, List.append_assoc]
      · have htail : Numeral.tail ⟨negative, ds, f, x⟩ ≠ [] := by
          intro hnil
          obtain ⟨rfl, rfl⟩ := tail_eq_nil_iff.mp hnil
          rw [hnil, List.nil_append] at hu
          subst hu
          obtain ⟨h1, h2, h3⟩ := hend rfl rfl m rfl
          rcases hmark with h | h | h <;> contradiction
        rw [Numeral.number?]
        simp [hb, htail, hv]
  · next hb =>
    obtain ⟨f, x, hf, hx, -, hfx⟩ := afterLong_sound h
    obtain ⟨rfl, hv⟩ := hfx ds
    refine ⟨⟨negative, ds, f, x⟩, build f x hf hx, rfl, by simp [Numeral.unsigned], ?_⟩
    rw [Numeral.number?]
    simp [hb, hv]

end Number

namespace Skip

/-- What `exponent` makes of the digits behind the sign. -/
def power (s : List Char) : Except Fault (List Char) :=
  match s with
  | c :: s => if c.isDigit then .ok (digits s) else .error .invalidNumber
  | [] => .error .invalidNumber

theorem exponent_signed {m : Char} (hm : m = '+' ∨ m = '-') : exponent (m :: s) = power s := by
  rcases hm with rfl | rfl <;> rfl

theorem exponent_unsigned (h : NoSign s) : exponent s = power s := by
  unfold exponent
  split
  · exact absurd rfl (h '+' rfl).1
  · exact absurd rfl (h '-' rfl).2
  · rfl

theorem digits_cons {c : Char} (hc : c.isDigit = true) :
    digits s = (c :: s).dropWhile Char.isDigit :=
  (List.dropWhile_cons_of_pos hc).symm

theorem power_digits (hds : IsDigits ds) (ht : NoDigit t) : power (ds ++ t) = .ok t := by
  obtain ⟨d, rest, rfl⟩ := List.exists_cons_of_ne_nil hds.1
  have hd : d.isDigit = true := hds.2 d (by simp)
  rw [List.cons_append, power, if_pos hd, digits_cons hd, ← List.cons_append,
    dropWhile_digits hds.2 ht]

theorem power_sound (h : power s = .ok t) : ∃ ds, IsDigits ds ∧ NoDigit t ∧ s = ds ++ t := by
  obtain ⟨ds, u, rfl, hds, hu⟩ := exists_digits s
  have hne : ds ≠ [] := by
    rintro rfl
    rcases u with _ | ⟨c, u⟩
    · cases h
    · simp [power, hu c rfl] at h
  rw [power_digits ⟨hne, hds⟩ hu] at h
  cases h
  exact ⟨ds, ⟨hne, hds⟩, hu, rfl⟩

theorem exponent_eq {x : Exponent} (hx : x.WellFormed) (ht : NoDigit t) :
    exponent (x.sign ++ x.digits ++ t) = .ok t := by
  rcases hx.sign with hs | hs | hs
  · rw [hs, List.nil_append, exponent_unsigned hx.digits.noSign, power_digits hx.digits ht]
  · rw [hs, List.append_assoc, List.singleton_append, exponent_signed (.inl rfl),
      power_digits hx.digits ht]
  · rw [hs, List.append_assoc, List.singleton_append, exponent_signed (.inr rfl),
      power_digits hx.digits ht]

theorem exponent_sound (h : exponent s = .ok t) : ∃ sign ds,
    (sign = [] ∨ sign = ['+'] ∨ sign = ['-']) ∧ IsDigits ds ∧ NoDigit t ∧
      s = sign ++ ds ++ t := by
  rcases noSign_or s with hs | ⟨m, s, hm, rfl⟩
  · rw [exponent_unsigned hs] at h
    obtain ⟨ds, hds, ht, rfl⟩ := power_sound h
    exact ⟨[], ds, .inl rfl, hds, ht, rfl⟩
  · rw [exponent_signed hm] at h
    obtain ⟨ds, hds, ht, rfl⟩ := power_sound h
    exact ⟨[m], ds, by simpa using hm, hds, ht, rfl⟩

theorem afterDecimals_unmarked (h : Number.NoMark s) : afterDecimals s = .ok s := by
  unfold afterDecimals
  split
  · exact absurd rfl (h 'e' rfl).1
  · exact absurd rfl (h 'E' rfl).2
  · rfl

theorem afterDecimals_marked {m : Char} (h : m = 'e' ∨ m = 'E') :
    afterDecimals (m :: s) = exponent s := by
  rcases h with rfl | rfl <;> rfl

theorem afterDecimals_eq {x : Option Exponent} (hx : ∀ y ∈ x, y.WellFormed) (ht : Delimited t) :
    afterDecimals (Exponent.chars x ++ t) = .ok t := by
  cases x with
  | none => exact afterDecimals_unmarked fun c hc => (ht.ne_mark c hc).2
  | some x =>
    have hw := hx x rfl
    rw [Exponent.chars, List.cons_append, afterDecimals_marked hw.mark, exponent_eq hw ht.noDigit]

theorem afterDecimals_sound (h : afterDecimals s = .ok t) :
    ∃ x, (∀ y ∈ x, y.WellFormed) ∧ s = Exponent.chars x ++ t := by
  rcases Number.noMark_or s with hs | ⟨m, s, hm, rfl⟩
  · rw [afterDecimals_unmarked hs] at h
    cases h
    exact ⟨none, by simp, rfl⟩
  · rw [afterDecimals_marked hm] at h
    obtain ⟨sign, ds, hsign, hds, -, rfl⟩ := exponent_sound h
    exact ⟨some ⟨m, sign, ds⟩, by simpa using ⟨hm, hsign, hds⟩, by simp [Exponent.chars]⟩

theorem afterWhole_unpointed (h : ∀ c ∈ s.head?, c ≠ '.') : afterWhole s = afterDecimals s := by
  unfold afterWhole
  split
  · exact absurd rfl (h '.' rfl)
  · exact absurd rfl (h '.' rfl)
  · rfl

theorem afterWhole_pointed (hds : IsDigits ds) (ht : NoDigit t) :
    afterWhole ('.' :: (ds ++ t)) = afterDecimals t := by
  obtain ⟨d, rest, rfl⟩ := List.exists_cons_of_ne_nil hds.1
  have hd : d.isDigit = true := hds.2 d (by simp)
  rw [List.cons_append, afterWhole, if_pos hd, digits_cons hd, ← List.cons_append,
    dropWhile_digits hds.2 ht]

theorem afterWhole_sound (h : afterWhole s = .ok t) : ∃ f x, (∀ ds ∈ f, IsDigits ds) ∧
    (∀ y ∈ x, y.WellFormed) ∧
    ∀ negative whole, s = Numeral.tail ⟨negative, whole, f, x⟩ ++ t := by
  by_cases hp : ∃ u, s = '.' :: u
  · obtain ⟨u, rfl⟩ := hp
    obtain ⟨ds, u, rfl, hds, hu⟩ := exists_digits u
    have hne : ds ≠ [] := by
      rintro rfl
      rcases u with _ | ⟨c, u⟩
      · cases h
      · simp [afterWhole, hu c rfl] at h
    rw [afterWhole_pointed ⟨hne, hds⟩ hu] at h
    obtain ⟨x, hx, rfl⟩ := afterDecimals_sound h
    exact ⟨some ds, x, by simpa using ⟨hne, hds⟩, hx, fun _ _ => by simp [Numeral.tail]⟩
  · rw [afterWhole_unpointed] at h
    · obtain ⟨x, hx, rfl⟩ := afterDecimals_sound h
      exact ⟨none, x, by simp, hx, fun _ _ => rfl⟩
    · rintro c hc rfl
      exact hp (List.head?_eq_some_iff.mp hc)

theorem number_digits (hds : IsDigits ds) (hz : ds = ['0'] ∨ ds.head? ≠ some '0')
    (ht : NoDigit t) : number (ds ++ t) = afterWhole t := by
  obtain ⟨d, rest, rfl⟩ := List.exists_cons_of_ne_nil hds.1
  have hd : d.isDigit = true := hds.2 d (by simp)
  have hdrop : digits (rest ++ t) = t := by
    rw [digits_cons hd, ← List.cons_append, dropWhile_digits hds.2 ht]
  rw [List.cons_append, number.eq_def]
  split
  · next c s hs =>
    obtain ⟨rfl, htail⟩ := List.cons.inj hs
    obtain rfl : rest = [] := by simpa using hz
    rw [List.nil_append] at htail
    subst htail
    simp [ht c rfl]
  · next c s _ hs =>
    obtain ⟨rfl, rfl⟩ := List.cons.inj hs
    rw [if_pos hd, hdrop]
  · next hs => cases hs

theorem number_leading (h : number s = .ok t) : ∃ ds u, s = ds ++ u ∧ IsDigits ds ∧
    (ds = ['0'] ∨ ds.head? ≠ some '0') ∧ NoDigit u := by
  obtain ⟨ds, u, rfl, hds, hu⟩ := exists_digits s
  rcases ds with _ | ⟨d, ds⟩
  · rcases u with _ | ⟨c, u⟩
    · cases h
    · have hc : c.isDigit = false := hu c rfl
      rw [List.nil_append, number] at h
      · simp [hc] at h
      · rintro _ _ rfl
        cases hc
  · refine ⟨d :: ds, u, rfl, ⟨by simp, hds⟩, ?_, hu⟩
    by_cases h0 : d = '0'
    · subst h0
      rcases ds with _ | ⟨c, ds⟩
      · exact .inl rfl
      · simp [number, hds c (by simp)] at h
    · exact .inr (by simpa using h0)

variable {l : Numeral}

theorem number_complete (hl : l.WellFormed) (ht : Delimited t) :
    number (l.unsigned ++ t) = .ok t := by
  rw [Numeral.unsigned, List.append_assoc,
    number_digits hl.whole hl.leading (Number.noDigit_tail hl ht.noDigit), Numeral.tail]
  split
  · rw [afterWhole_unpointed, afterDecimals_eq hl.exponent ht]
    intro c hc
    rcases Number.head?_exponent hl.exponent hc with rfl | rfl | hc
    · decide
    · decide
    · exact (ht.ne_mark c hc).1
  · next ds hf =>
    rw [List.cons_append, List.append_assoc, afterWhole_pointed (hl.fraction ds hf)
      (Number.noDigit_exponent hl.exponent ht.noDigit), afterDecimals_eq hl.exponent ht]

theorem number_sound (negative : Bool) (h : number s = .ok t) : ∃ l : Numeral, l.WellFormed ∧
    l.negative = negative ∧ s = l.unsigned ++ t := by
  obtain ⟨ds, u, rfl, hds, hz, hu⟩ := number_leading h
  rw [number_digits hds hz hu] at h
  obtain ⟨f, x, hf, hx, hs⟩ := afterWhole_sound h
  refine ⟨⟨negative, ds, f, x⟩, ⟨hds, hz, hf, hx⟩, rfl, ?_⟩
  rw [hs negative ds, Numeral.unsigned, List.append_assoc]

end Skip

end TwinLink.Json
