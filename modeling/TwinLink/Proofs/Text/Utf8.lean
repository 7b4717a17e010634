import Mathlib.Data.UInt
import TwinLink.Text.Utf8

/-! UTF-8 as it is written, and two readings of it. A strict reading takes what is written and
nothing else; a lossy one puts a replacement character in the place of whatever could have begun
a character and did not. Both read what is written for a text back as that text, in front of
anything: the first byte of a character says how many more belong to it. -/

namespace TwinLink.Text.Utf8

/-- The bytes of a text. -/
def encodeChars (s : List Char) : List UInt8 := s.flatMap String.utf8EncodeChar

@[simp] theorem encodeChars_nil : encodeChars [] = [] := rfl

@[simp] theorem encodeChars_cons (c : Char) (s : List Char) :
    encodeChars (c :: s) = String.utf8EncodeChar c ++ encodeChars s := rfl

@[simp] theorem encodeChars_append (s t : List Char) :
    encodeChars (s ++ t) = encodeChars s ++ encodeChars t := List.flatMap_append

/-- These are the bytes that a string is kept in. -/
theorem data_toUTF8 (s : String) : s.toUTF8.data.toList = encodeChars s.toList := by
  have hbytes : s.toByteArray = s.toList.utf8Encode := by
    rw [← String.toByteArray_ofList, String.ofList_toList]
  rw [String.toUTF8, hbytes, List.utf8Encode, List.data_toByteArray]
  rfl

/-- What stands for bytes that are no character. -/
def replacement : Char := Char.ofNat 0xFFFD

/-- The characters of bytes; where a character breaks off, the bytes that it has so far are
replaced, and the reading goes on behind them. -/
def lossy (s : List UInt8) : List Char :=
  match s with
  | [] => []
  | b :: rest =>
    match lead? b with
    | none => replacement :: lossy rest
    | some l =>
      match h : follow l.value l.low l.high 1 l.following rest with
      | .ok (value, rest') => Char.ofNat value :: lossy rest'
      | .error (some taken) => replacement :: lossy (rest.drop (taken - 1))
      | .error none => [replacement]
termination_by s.length
decreasing_by
  · exact Nat.lt_succ_self _
  · exact Nat.lt_succ_of_le (follow_length h)
  · rw [List.length_drop]
    exact Nat.lt_succ_of_le (Nat.sub_le ..)

@[simp] theorem lossy_nil : lossy [] = [] := by rw [lossy]

theorem toNat_ofNat {n : Nat} (h : n < 256) : (UInt8.ofNat n).toNat = n := by
  rw [UInt8.toNat_ofNat', Nat.mod_eq_of_lt h]

/-- What `lead?` says, by the number of the byte. -/
theorem lead?_ofNat {n : Nat} (h : n < 256) : lead? (UInt8.ofNat n) =
    if n < 0x80 then some ⟨n, 0, 0x80, 0xBF⟩
    else if n < 0xC2 then none
    else if n < 0xE0 then some ⟨n - 0xC0, 1, 0x80, 0xBF⟩
    else if n = 0xE0 then some ⟨0, 2, 0xA0, 0xBF⟩
    else if n = 0xED then some ⟨0xD, 2, 0x80, 0x9F⟩
    else if n < 0xF0 then some ⟨n - 0xE0, 2, 0x80, 0xBF⟩
    else if n = 0xF0 then some ⟨0, 3, 0x90, 0xBF⟩
    else if n < 0xF4 then some ⟨n - 0xF0, 3, 0x80, 0xBF⟩
    else if n = 0xF4 then some ⟨4, 3, 0x80, 0x8F⟩
    else none := by
  simp only [lead?, UInt8.lt_iff_toNat_lt, ← UInt8.toNat_inj, toNat_ofNat h]
  rfl

/-- A byte in range adds its six bits. -/
theorem follow_cons {value n taken k : Nat} {low high : UInt8} {s : List UInt8} (hn : n < 64)
    (hlow : low.toNat ≤ n + 128) (hhigh : n + 128 ≤ high.toNat) :
    follow value low high taken (k + 1) (UInt8.ofNat (n + 128) :: s) =
      follow (value * 64 + n) 0x80 0xBF (taken + 1) k s := by
  have hb : (UInt8.ofNat (n + 128)).toNat = n + 128 := toNat_ofNat (by omega)
  rw [follow, if_pos]
  · rw [hb, Nat.add_sub_cancel]
  · rw [UInt8.le_iff_toNat_le, UInt8.le_iff_toNat_le, hb]
    exact ⟨hlow, hhigh⟩

/-- The first of three bytes leaves a range to the second one that holds what is written there. -/
theorem lead?_of_three {n : Nat} (hlow : 0x800 ≤ n) (hhigh : n < 0x10000)
    (hvalid : n < 0xD800 ∨ 0xDFFF < n) : ∃ low high,
    lead? (UInt8.ofNat (n / 4096 % 16 + 224)) = some ⟨n / 4096, 2, low, high⟩ ∧
      low.toNat ≤ n / 64 % 64 + 128 ∧ n / 64 % 64 + 128 ≤ high.toNat := by
  have hmod : n / 4096 % 16 = n / 4096 := by omega
  rw [hmod, lead?_ofNat (by omega), if_neg (by omega), if_neg (by omega), if_neg (by omega)]
  by_cases h0 : n / 4096 = 0
  · rw [h0]
    exact ⟨_, _, rfl, by show 0xA0 ≤ _; omega, by show _ ≤ 0xBF; omega⟩
  by_cases hd : n / 4096 = 0xD
  · rw [hd]
    exact ⟨_, _, rfl, by show 0x80 ≤ _; omega, by show _ ≤ 0x9F; omega⟩
  rw [if_neg (by omega), if_neg (by omega), if_pos (by omega), Nat.add_sub_cancel]
  exact ⟨_, _, rfl, by show 0x80 ≤ _; omega, by show _ ≤ 0xBF; omega⟩

/-- And so does the first of four bytes. -/
theorem lead?_of_four {n : Nat} (hlow : 0x10000 ≤ n) (hhigh : n < 0x110000) : ∃ low high,
    lead? (UInt8.ofNat (n / 262144 % 8 + 240)) = some ⟨n / 262144, 3, low, high⟩ ∧
      low.toNat ≤ n / 4096 % 64 + 128 ∧ n / 4096 % 64 + 128 ≤ high.toNat := by
  have hmod : n / 262144 % 8 = n / 262144 := by omega
  rw [hmod, lead?_ofNat (by omega), if_neg (by omega), if_neg (by omega), if_neg (by omega),
    if_neg (by omega), if_neg (by omega), if_neg (by omega)]
  by_cases h0 : n / 262144 = 0
  · rw [h0]
    exact ⟨_, _, rfl, by show 0x90 ≤ _; omega, by show _ ≤ 0xBF; omega⟩
  by_cases h4 : n / 262144 = 4
  · rw [h4]
    exact ⟨_, _, rfl, by show 0x80 ≤ _; omega, by show _ ≤ 0x8F; omega⟩
  rw [if_neg (by omega), if_pos (by omega), Nat.add_sub_cancel]
  exact ⟨_, _, rfl, by show 0x80 ≤ _; omega, by show _ ≤ 0xBF; omega⟩

/-- Any further byte of a character lies in the range that is left to it. -/
theorem follow_tail {value n taken k : Nat} {s : List UInt8} (hn : n < 64) :
    follow value 0x80 0xBF taken (k + 1) (UInt8.ofNat (n + 128) :: s) =
      follow (value * 64 + n) 0x80 0xBF (taken + 1) k s :=
  follow_cons hn (by show 0x80 ≤ _; omega) (by show _ ≤ 0xBF; omega)

/-- A character is written as a first byte and as many others as that one announces, which lead
back to its number in front of anything. -/
theorem exists_lead_of_encodeChar (c : Char) : ∃ b t l,
    String.utf8EncodeChar c = b :: t ∧ lead? b = some l ∧
      ∀ s, follow l.value l.low l.high 1 l.following (t ++ s) = .ok (c.toNat, s) := by
  have hvalid : c.toNat < 0xD800 ∨ 0xDFFF < c.toNat ∧ c.toNat < 0x110000 := c.valid
  generalize hn : c.toNat = n at hvalid
  have hcode : c.val.toNat = n := hn
  rw [String.utf8EncodeChar, hcode]
  by_cases h1 : n ≤ 127
  · refine ⟨_, _, ⟨n, 0, 0x80, 0xBF⟩, if_pos h1, ?_, fun s => rfl⟩
    rw [lead?_ofNat (by omega), if_pos (by omega)]
  by_cases h2 : n ≤ 2047
  · refine ⟨_, _, ⟨n / 64, 1, 0x80, 0xBF⟩, (if_neg h1).trans (if_pos h2), ?_, fun s => ?_⟩
    · have hmod : n / 64 % 32 = n / 64 := by omega
      rw [hmod, lead?_ofNat (by omega), if_neg (by omega), if_neg (by omega), if_pos (by omega),
        Nat.add_sub_cancel]
    · rw [List.cons_append, follow_tail (by omega), follow, Nat.div_add_mod']
      rfl
  by_cases h3 : n ≤ 65535
  · obtain ⟨low, high, hl, hlow, hhigh⟩ := lead?_of_three (n := n) (by omega) (by omega) (by omega)
    refine ⟨_, _, _, ((if_neg h1).trans (if_neg h2)).trans (if_pos h3), hl, fun s => ?_⟩
    have hvalue : (n / 4096 * 64 + n / 64 % 64) * 64 + n % 64 = n := by omega
    rw [List.cons_append, follow_cons (by omega) hlow hhigh, List.cons_append,
      follow_tail (by omega), follow, hvalue]
    rfl
  · obtain ⟨low, high, hl, hlow, hhigh⟩ := lead?_of_four (n := n) (by omega) (by omega)
    refine ⟨_, _, _, ((if_neg h1).trans (if_neg h2)).trans (if_neg h3), hl, fun s => ?_⟩
    have hvalue : ((n / 262144 * 64 + n / 4096 % 64) * 64 + n / 64 % 64) * 64 + n % 64 = n := by
      omega
    rw [List.cons_append, follow_cons (by omega) hlow hhigh, List.cons_append,
      follow_tail (by omega), List.cons_append, follow_tail (by omega), follow, hvalue]
    rfl

theorem lossy_encodeChar (c : Char) (s : List UInt8) :
    lossy (String.utf8EncodeChar c ++ s) = c :: lossy s := by
  obtain ⟨b, t, l, hc, hl, ht⟩ := exists_lead_of_encodeChar c
  rw [hc, List.cons_append, lossy]
  simp only [hl]
  split
  · next value rest h =>
    rw [ht] at h
    cases h
    rw [Char.ofNat_toNat]
  · next h => rw [ht] at h; cases h
  · next h => rw [ht] at h; cases h

/-- A text in front of anything is read as it is. -/
theorem lossy_encodeChars (cs : List Char) (s : List UInt8) :
    lossy (encodeChars cs ++ s) = cs ++ lossy s := by
  induction cs with
  | nil => rfl
  | cons c cs ih =>
    rw [encodeChars_cons, List.append_assoc, lossy_encodeChar, ih, List.cons_append]

theorem decodeFrom_encodeChar (i : Nat) (c : Char) (s : List UInt8) : ∃ j,
    decodeFrom i (String.utf8EncodeChar c ++ s) = (decodeFrom j s).map (c :: ·) := by
  obtain ⟨b, t, l, hc, hl, ht⟩ := exists_lead_of_encodeChar c
  refine ⟨i + 1 + l.following, ?_⟩
  rw [hc, List.cons_append, decodeFrom]
  simp only [hl]
  split
  · next h => rw [ht] at h; cases h
  · next value rest h =>
    rw [ht] at h
    cases h
    rw [Char.ofNat_toNat]

theorem decodeFrom_encodeChars (i : Nat) (cs : List Char) :
    decodeFrom i (encodeChars cs) = .ok cs := by
  induction cs generalizing i with
  | nil => rw [encodeChars_nil, decodeFrom]
  | cons c cs ih =>
    obtain ⟨j, hj⟩ := decodeFrom_encodeChar i c (encodeChars cs)
    rw [encodeChars_cons, hj, ih]
    rfl

end TwinLink.Text.Utf8
