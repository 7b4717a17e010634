import TwinLink.Proofs.Text.Utf8
import TwinLink.Session.Transcript
import TwinLink.Text.Split

/-! The lines of an input that is a text. Bytes are cut at line feeds before they are read; no
character but the line feed has that byte, so what is read are the pieces of the text between its
line feeds, each without a carriage return at its end. Main statement: that is so for every text,
and every line of it can be read. -/

namespace TwinLink.Session

open Text Text.Utf8

/-- Pieces of a text without the carriage return before a line feed. What stands behind the last
line feed is a line if it is not empty. -/
def linesOf : List (List Char) → List String
  | [] => []
  | [piece] => if piece.isEmpty then [] else [String.ofList piece]
  | piece :: next :: pieces =>
    String.ofList (if piece.getLast? = some '\r' then piece.dropLast else piece) ::
      linesOf (next :: pieces)

/-- The lines of a text. -/
def textLines (text : List Char) : List String := linesOf (pieces (· == '\n') text)

theorem linesOf_cons (piece : List Char) {pieces : List (List Char)} (h : pieces ≠ []) :
    linesOf (piece :: pieces) =
      String.ofList (if piece.getLast? = some '\r' then piece.dropLast else piece) ::
        linesOf pieces := by
  cases pieces with
  | nil => exact absurd rfl h
  | cons next pieces => rfl

theorem textLines_of_unbroken {s : List Char} (h : ∀ c ∈ s, c ≠ '\n') :
    textLines s = if s.isEmpty then [] else [String.ofList s] := by
  rw [textLines, pieces_of_forall fun c hc => beq_false_of_ne (h c hc)]
  rfl

theorem textLines_append {s : List Char} (h : ∀ c ∈ s, c ≠ '\n') (t : List Char) :
    textLines (s ++ '\n' :: t) =
      String.ofList (if s.getLast? = some '\r' then s.dropLast else s) :: textLines t := by
  rw [textLines, pieces_append_cons rfl, pieces_of_forall fun c hc => beq_false_of_ne (h c hc)]
  exact linesOf_cons s (pieces_ne_nil _ t)

/-! ### Bytes -/

theorem lines_of_unbroken {bytes : List UInt8} (h : ∀ b ∈ bytes, b ≠ 0x0A) :
    lines bytes = if bytes.isEmpty then [] else [bytes] := by
  induction bytes with
  | nil => rfl
  | cons b bytes ih =>
    rw [lines, if_neg (h b List.mem_cons_self), ih fun x hx => h x (List.mem_cons_of_mem _ hx)]
    cases bytes <;> rfl

theorem lines_append {bytes : List UInt8} (h : ∀ b ∈ bytes, b ≠ 0x0A) (rest : List UInt8) :
    lines (bytes ++ 0x0A :: rest) = (bytes ++ [0x0A]) :: lines rest := by
  induction bytes with
  | nil => simp [lines]
  | cons b bytes ih =>
    rw [List.cons_append, lines, if_neg (h b List.mem_cons_self),
      ih fun x hx => h x (List.mem_cons_of_mem _ hx)]
    rfl

/-- The byte of a line feed belongs to no other character. -/
theorem ne_break_of_mem {c : Char} (hc : c ≠ '\n') {b : UInt8}
    (hb : b ∈ String.utf8EncodeChar c) : b ≠ 0x0A := by
  have hbyte {n : Nat} (hn : n < 256) (hne : n ≠ 10) : UInt8.ofNat n ≠ 0x0A := by
    intro h
    have := congrArg UInt8.toNat h
    rw [toNat_ofNat hn] at this
    exact hne this
  have hcode : c.val.toNat ≠ 10 := fun h => hc (Char.ext (UInt32.toNat_inj.mp h))
  rw [String.utf8EncodeChar] at hb
  split at hb
  · obtain rfl := List.mem_singleton.mp hb
    exact hbyte (by omega) hcode
  -- the bytes of any other character have their high bit set
  all_goals
    repeat' split at hb
    all_goals
      simp only [List.mem_cons, List.not_mem_nil, or_false] at hb
      rcases hb with rfl | rfl | rfl | rfl <;> exact hbyte (by omega) (by omega)

theorem ne_break_of_mem_encodeChars {s : List Char} (h : ∀ c ∈ s, c ≠ '\n') :
    ∀ b ∈ encodeChars s, b ≠ 0x0A := by
  intro b hb
  obtain ⟨c, hc, hb⟩ := List.mem_flatMap.mp hb
  exact ne_break_of_mem (h c hc) hb

theorem readLine_encodeChars (s : List Char) :
    readLine (encodeChars s) = .ok (String.ofList (chomp s)) := by
  simp [readLine, decode, decodeFrom_encodeChars, Except.map]

theorem chomp_of_unbroken {s : List Char} (h : ∀ c ∈ s, c ≠ '\n') : chomp s = s := by
  have hlast {t : List Char} (hs : s.reverse = '\n' :: t) : False :=
    h '\n' (List.mem_reverse.mp (by rw [hs]; exact List.mem_cons_self)) rfl
  unfold chomp
  split
  · next hs => exact (hlast hs).elim
  · next hs => exact (hlast hs).elim
  · rfl

theorem chomp_append (s : List Char) :
    chomp (s ++ ['\n']) = if s.getLast? = some '\r' then s.dropLast else s := by
  rcases List.eq_nil_or_concat s with rfl | ⟨t, c, rfl⟩
  · rfl
  · by_cases hc : c = '\r'
    · subst hc
      simp [chomp]
    · simp [chomp, hc]

/-- Every line of a text is read as the text that it is. -/
theorem lines_encodeChars (text : List Char) :
    (lines (encodeChars text)).map readLine = (textLines text).map .ok := by
  induction hn : text.length using Nat.strongRecOn generalizing text with
  | ind n ih =>
    by_cases hbreak : '\n' ∈ text
    · obtain ⟨front, back, rfl, hfront⟩ := List.eq_append_cons_of_mem hbreak
      have hne : ∀ c ∈ front, c ≠ '\n' := fun c hc h => hfront (h ▸ hc)
      have hback : back.length < n := by
        rw [← hn, List.length_append, List.length_cons]
        omega
      have hbytes : encodeChars (front ++ '\n' :: back) =
          encodeChars front ++ 0x0A :: encodeChars back := by
        rw [encodeChars_append, encodeChars_cons]
        rfl
      have hline : encodeChars front ++ [0x0A] = encodeChars (front ++ ['\n']) := by
        rw [encodeChars_append]
        rfl
      rw [hbytes, lines_append (ne_break_of_mem_encodeChars hne), textLines_append hne, hline,
        List.map_cons, List.map_cons, readLine_encodeChars, chomp_append, ih _ hback back rfl]
    · have hne : ∀ c ∈ text, c ≠ '\n' := fun c hc h => hbreak (h ▸ hc)
      rw [lines_of_unbroken (ne_break_of_mem_encodeChars hne), textLines_of_unbroken hne]
      cases text with
      | nil => rfl
      | cons c s =>
        have hempty : (encodeChars (c :: s)).isEmpty = false := by
          obtain ⟨b, t, l, hc, -⟩ := exists_lead_of_encodeChar c
          rw [encodeChars_cons, hc]
          rfl
        rw [hempty, List.isEmpty_cons, if_neg Bool.false_ne_true, if_neg Bool.false_ne_true,
          List.map_singleton, List.map_singleton, readLine_encodeChars, chomp_of_unbroken hne]

end TwinLink.Session
