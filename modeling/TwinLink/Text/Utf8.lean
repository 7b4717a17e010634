/-! Reading UTF-8. A lead byte fixes how many bytes follow and in which range the
second one lies, which leaves out overlong forms, surrogates and values above
`0x10FFFF`. A fault names the number of bytes before the broken character and, unless
the data simply ends inside it, how many of its bytes could have begun one. -/

namespace TwinLink.Text.Utf8

/-- Where bytes stop being UTF-8: after `index` good bytes, in a character of which
`length` bytes were acceptable, or at the end of the data. -/
structure Fault where
  index : Nat
  length : Option Nat
  deriving DecidableEq, Repr

def Fault.message (f : Fault) : String :=
  match f.length with
  | some n => s!"invalid utf-8 sequence of {n} bytes from index {f.index}"
  | none => s!"incomplete utf-8 byte sequence from index {f.index}"

/-- What a lead byte announces: its share of the value, the number of bytes that
follow and the range of the first of them. -/
structure Lead where
  value : Nat
  following : Nat
  low : UInt8
  high : UInt8

def lead? (b : UInt8) : Option Lead :=
  if b < 0x80 then some ⟨b.toNat, 0, 0x80, 0xBF⟩
  else if b < 0xC2 then none
  else if b < 0xE0 then some ⟨b.toNat - 0xC0, 1, 0x80, 0xBF⟩
  else if b = 0xE0 then some ⟨0, 2, 0xA0, 0xBF⟩
  else if b = 0xED then some ⟨0xD, 2, 0x80, 0x9F⟩
  else if b < 0xF0 then some ⟨b.toNat - 0xE0, 2, 0x80, 0xBF⟩
  else if b = 0xF0 then some ⟨0, 3, 0x90, 0xBF⟩
  else if b < 0xF4 then some ⟨b.toNat - 0xF0, 3, 0x80, 0xBF⟩
  else if b = 0xF4 then some ⟨4, 3, 0x80, 0x8F⟩
  else none

/-- Reads the bytes that follow a lead byte, of which `taken` are already read. The
error is the number of acceptable bytes, or none at the end of the data. -/
def follow (value : Nat) (low high : UInt8) (taken : Nat) :
    Nat → List UInt8 → Except (Option Nat) (Nat × List UInt8)
  | 0, rest => .ok (value, rest)
  | _ + 1, [] => .error none
  | n + 1, b :: rest =>
    if low ≤ b ∧ b ≤ high then follow (value * 64 + (b.toNat - 0x80)) 0x80 0xBF (taken + 1) n rest
    else .error (some taken)

theorem follow_length {value : Nat} {low high : UInt8} {taken n : Nat} {s : List UInt8}
    {r : Nat × List UInt8} (h : follow value low high taken n s = .ok r) :
    r.2.length ≤ s.length := by
  induction n generalizing value low high taken s with
  | zero => simp only [follow, Except.ok.injEq] at h; subst h; exact Nat.le_refl _
  | succ n ih =>
    cases s with
    | nil => simp [follow] at h
    | cons b rest =>
      simp only [follow] at h
      split at h
      · exact Nat.le_trans (ih h) (Nat.le_succ _)
      · simp at h

/-- The characters of `s`, which stands `index` bytes after the beginning of the data. -/
def decodeFrom (index : Nat) (s : List UInt8) : Except Fault (List Char) :=
  match s with
  | [] => .ok []
  | b :: rest =>
    match lead? b with
    | none => .error ⟨index, some 1⟩
    | some l =>
      match h : follow l.value l.low l.high 1 l.following rest with
      | .error length => .error ⟨index, length⟩
      | .ok (value, rest') =>
        (decodeFrom (index + 1 + l.following) rest').map (Char.ofNat value :: ·)
termination_by s.length
decreasing_by exact Nat.lt_succ_of_le (follow_length h)

def decode (bytes : List UInt8) : Except Fault String :=
  (decodeFrom 0 bytes).map String.ofList

end TwinLink.Text.Utf8
