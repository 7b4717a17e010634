import TwinLink.Proofs.Text.Utf8
import TwinLink.Text.Split
import TwinLink.Url.Form

/-! Reading the pairs of a query, and a pair that is put behind them. A query is cut at its
ampersands, and each piece that is not empty is a pair, cut at its first equals sign. The encoded
form of a text has neither sign and reads as that text, so whatever a query holds, one more pair
is read off it and the others stay as they are. -/

namespace TwinLink.Url

namespace Percent

theorem decode_cons {c : Char} (hc : c ≠ '%') (s : List Char) :
    decode (c :: s) = String.utf8EncodeChar c ++ decode s := by
  rw [decode]
  exact fun a b rest h => absurd h hc

theorem hexValue?_hexDigit : ∀ n < 16, hexValue? (hexDigit n) = some n := by decide

theorem decode_encodeByte (b : UInt8) (s : List Char) :
    decode (encodeByte b ++ s) = b :: decode s := by
  have hb : b.toNat < 256 := b.toNat_lt
  have hvalue : 16 * (b.toNat / 16) + b.toNat % 16 = b.toNat := Nat.div_add_mod ..
  simp only [encodeByte, List.cons_append, List.nil_append, decode]
  rw [hexValue?_hexDigit _ (by omega), hexValue?_hexDigit _ (by omega)]
  simp only [hvalue, UInt8.ofNat_toNat]

theorem decode_encodeBytes (bytes : List UInt8) (s : List Char) :
    decode (bytes.flatMap encodeByte ++ s) = bytes ++ decode s := by
  induction bytes with
  | nil => rfl
  | cons b bytes ih =>
    rw [List.flatMap_cons, List.append_assoc, decode_encodeByte, ih, List.cons_append]

end Percent

namespace Form

/-- A plus sign stands for a space. -/
def unplus (c : Char) : Char := if c = '+' then ' ' else c

/-- The text that the name or the value of a pair stands for. -/
def word (s : List Char) : String :=
  String.ofList (Text.Utf8.lossy (Percent.decode (s.map unplus)))

/-- The pair that a piece of a query stands for. Without an equals sign its value is empty. -/
def readPair (s : List Char) : String × String :=
  (word (s.takeWhile (· ≠ '=')), word ((s.dropWhile (· ≠ '=')).drop 1))

/-- The pairs of a query. -/
def pairs (query : List Char) : List (String × String) :=
  ((Text.pieces (· == '&') query).filter (!·.isEmpty)).map readPair

/-! ### What is written -/

/-- The characters of the encoded form of a text. -/
def isWritten (c : Char) : Bool := isPlain c || c == '+' || c == '%'

theorem isPlain_hexDigit : ∀ n < 16, isPlain (Percent.hexDigit n) = true := by decide

theorem written_of_mem_encodeByte {b : UInt8} {c : Char} (h : c ∈ Percent.encodeByte b) :
    isWritten c = true := by
  have hb : b.toNat < 256 := b.toNat_lt
  simp only [Percent.encodeByte, List.mem_cons, List.not_mem_nil, or_false] at h
  rcases h with rfl | rfl | rfl
  · rfl
  · simp [isWritten, isPlain_hexDigit (b.toNat / 16) (by omega)]
  · simp [isWritten, isPlain_hexDigit (b.toNat % 16) (by omega)]

theorem written_of_mem_encode {s : String} {c : Char} (h : c ∈ encode s) : isWritten c = true := by
  obtain ⟨d, -, hd⟩ := List.mem_flatMap.mp h
  unfold encodeChar at hd
  split at hd
  · next hp =>
    rw [List.mem_singleton] at hd
    simp [isWritten, hd, hp]
  · split at hd
    · rw [List.mem_singleton] at hd
      subst hd
      rfl
    · obtain ⟨b, -, hb⟩ := List.mem_flatMap.mp hd
      exact written_of_mem_encodeByte hb

theorem unplus_of_plain {c : Char} (h : isPlain c = true) : unplus c = c := by
  rw [unplus, if_neg]
  rintro rfl
  cases h

theorem map_unplus_encodeByte (b : UInt8) :
    (Percent.encodeByte b).map unplus = Percent.encodeByte b := by
  have hb : b.toNat < 256 := b.toNat_lt
  simp only [Percent.encodeByte, List.map_cons, List.map_nil,
    unplus_of_plain (isPlain_hexDigit (b.toNat / 16) (by omega)),
    unplus_of_plain (isPlain_hexDigit (b.toNat % 16) (by omega))]
  rfl

theorem map_unplus_encodeBytes (bytes : List UInt8) :
    (bytes.flatMap Percent.encodeByte).map unplus = bytes.flatMap Percent.encodeByte := by
  induction bytes with
  | nil => rfl
  | cons b bytes ih => rw [List.flatMap_cons, List.map_append, map_unplus_encodeByte, ih]

/-- Whatever a character is written as, its bytes are read. -/
theorem decode_map_encodeChar (c : Char) (s : List Char) :
    Percent.decode ((encodeChar c).map unplus ++ s) =
      String.utf8EncodeChar c ++ Percent.decode s := by
  unfold encodeChar
  split
  · next hp =>
    have hc : c ≠ '%' := by rintro rfl; cases hp
    rw [List.map_singleton, unplus_of_plain hp, List.singleton_append, Percent.decode_cons hc]
  · split
    · next hs =>
      subst hs
      exact Percent.decode_cons (by decide) s
    · rw [Percent.encodeChar, map_unplus_encodeBytes, Percent.decode_encodeBytes]

theorem decode_map_encodeChars (cs : List Char) :
    Percent.decode ((cs.flatMap encodeChar).map unplus) = Text.Utf8.encodeChars cs := by
  induction cs with
  | nil => rfl
  | cons c cs ih =>
    rw [List.flatMap_cons, List.map_append, decode_map_encodeChar, ih, Text.Utf8.encodeChars_cons]

/-- The encoded form of a text stands for it. -/
theorem word_encode (s : String) : word (encode s) = s := by
  have h := Text.Utf8.lossy_encodeChars s.toList []
  rw [List.append_nil, Text.Utf8.lossy_nil, List.append_nil] at h
  rw [word, encode, decode_map_encodeChars, h, String.ofList_toList]

/-! ### Pairs -/

variable (name value : String)

theorem ne_of_mem_encode {s : String} {c d : Char} (hd : isWritten d = false) (h : c ∈ encode s) :
    c ≠ d := by
  rintro rfl
  rw [written_of_mem_encode h] at hd
  cases hd

theorem readPair_pair : readPair (pair name value) = (name, value) := by
  have hname : ∀ c ∈ encode name, (decide (c ≠ '=')) = true := fun c hc =>
    decide_eq_true (ne_of_mem_encode (by rfl) hc)
  have htake : (pair name value).takeWhile (· ≠ '=') = encode name := by
    rw [pair, List.takeWhile_append_of_pos hname, List.takeWhile_cons_of_neg (by simp),
      List.append_nil]
  have hdrop : (pair name value).dropWhile (· ≠ '=') = '=' :: encode value := by
    rw [pair, List.dropWhile_append_of_pos hname, List.dropWhile_cons_of_neg (by simp)]
  rw [readPair, htake, hdrop, List.drop_one, List.tail_cons, word_encode, word_encode]

theorem pair_ne_nil : pair name value ≠ [] := by
  simp [pair]

/-- Of the signs that are not written a pair has the equals sign alone. -/
theorem ne_of_mem_pair {c d : Char} (hd : isWritten d = false) (he : d ≠ '=')
    (h : c ∈ pair name value) : c ≠ d := by
  rcases List.mem_append.mp h with h | h
  · exact ne_of_mem_encode hd h
  · rcases List.mem_cons.mp h with rfl | h
    · exact he.symm
    · exact ne_of_mem_encode hd h

theorem pairs_pair : pairs (pair name value) = [(name, value)] := by
  have hempty : (pair name value).isEmpty = false := by
    simpa using pair_ne_nil name value
  have hunbroken : ∀ c ∈ pair name value, (c == '&') = false := fun c hc =>
    beq_false_of_ne (ne_of_mem_pair name value rfl (by decide) hc)
  rw [pairs, Text.pieces_of_forall hunbroken, List.filter_cons_of_pos (by simp [hempty]),
    List.filter_nil, List.map_singleton, readPair_pair]

/-- One more pair is read off a query to which a pair has been added, whatever it is. -/
theorem pairs_append (query : List Char) :
    pairs (append query name value) = pairs query ++ [(name, value)] := by
  unfold append
  split
  · next h =>
    rw [List.isEmpty_iff.mp h, pairs_pair]
    rfl
  · rw [pairs, Text.pieces_append_cons rfl, List.filter_append, List.map_append, ← pairs,
      ← pairs, pairs_pair]

end Form

end TwinLink.Url
