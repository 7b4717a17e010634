import Mathlib.Algebra.Group.Nat.Defs
import Mathlib.Logic.Function.Iterate
import TwinLink.Backoff

/-! Doubling that stops at the longest span. A clock keeps a span in two words, whole seconds of
64 bits and the nanoseconds of the next one, and doubles it with a carry from the one to the
other; what does not fit in the seconds becomes the longest span. In exact nanoseconds that is
`min (2 * n) longest`. As no ceiling is above the longest span, delays that are doubled and cut
at a ceiling are those of exact arithmetic, however often they are doubled. -/

namespace TwinLink

namespace Duration

/-- A span in words: whole seconds and the nanoseconds of the next one. -/
structure Parts where
  seconds : UInt64
  nanos : UInt32
  nanos_lt : nanos.toNat < nanosPerSecond

namespace Parts

def total (p : Parts) : Nat := p.seconds.toNat * nanosPerSecond + p.nanos.toNat

def longest : Parts := ⟨18446744073709551615, 999999999, by decide⟩

/-- The product, if it fits in a word. -/
def times? (a b : UInt64) : Option UInt64 :=
  if a.toNat * b.toNat < UInt64.size then some (a * b) else none

/-- The sum, if it fits in a word. -/
def plus? (a b : UInt64) : Option UInt64 :=
  if a.toNat + b.toNat < UInt64.size then some (a + b) else none

/-- Twice the nanoseconds, before the carry. -/
def doubleNanos (p : Parts) : UInt64 := p.nanos.toUInt64 * 2

theorem toNat_doubleNanos (p : Parts) : p.doubleNanos.toNat = p.nanos.toNat * 2 := by
  have h := p.nanos_lt
  rw [nanosPerSecond] at h
  rw [doubleNanos, UInt64.toNat_mul, UInt32.toNat_toUInt64]
  exact Nat.mod_eq_of_lt (by show p.nanos.toNat * 2 < _; omega)

theorem toNat_rest (p : Parts) :
    (p.doubleNanos % 1000000000).toUInt32.toNat = p.nanos.toNat * 2 % nanosPerSecond := by
  rw [UInt64.toNat_toUInt32, UInt64.toNat_mod, toNat_doubleNanos, nanosPerSecond]
  exact Nat.mod_eq_of_lt (by show p.nanos.toNat * 2 % 1000000000 < _; omega)

/-- Twice the seconds and the second that the nanoseconds carry, if that fits in a word. -/
def seconds? (p : Parts) : Option UInt64 :=
  (times? p.seconds 2).bind (plus? · (p.doubleNanos / 1000000000))

/-- Doubles both words and carries a whole second from the nanoseconds. -/
def double (p : Parts) : Parts :=
  match p.seconds? with
  | some seconds =>
    ⟨seconds, (p.doubleNanos % 1000000000).toUInt32, by
      rw [toNat_rest]
      exact Nat.mod_lt _ (by decide)⟩
  | none => longest

/-- Compares the seconds first. -/
def le (p q : Parts) : Bool :=
  p.seconds < q.seconds || (p.seconds == q.seconds && p.nanos ≤ q.nanos)

def lesser (p q : Parts) : Parts := if p.le q then p else q

theorem le_iff {p q : Parts} : p.le q = true ↔ p.total ≤ q.total := by
  have hp := p.nanos_lt
  have hq := q.nanos_lt
  simp only [le, Bool.or_eq_true, Bool.and_eq_true, decide_eq_true_eq, beq_iff_eq,
    UInt64.lt_iff_toNat_lt, UInt32.le_iff_toNat_le, ← UInt64.toNat_inj, total, nanosPerSecond] at *
  omega

theorem total_lesser (p q : Parts) : (p.lesser q).total = min p.total q.total := by
  unfold lesser
  split
  next h => rw [Nat.min_eq_left (le_iff.mp h)]
  next h => rw [Nat.min_eq_right (by have := mt le_iff.mpr h; omega)]

theorem total_longest : longest.total = longestSpan := by decide

theorem seconds?_eq (p : Parts) : p.seconds? =
    if p.seconds.toNat * 2 + p.nanos.toNat * 2 / nanosPerSecond < UInt64.size then
      some (p.seconds * 2 + p.doubleNanos / 1000000000)
    else none := by
  have hcarry : (p.doubleNanos / 1000000000).toNat = p.nanos.toNat * 2 / nanosPerSecond := by
    rw [UInt64.toNat_div, toNat_doubleNanos]
    rfl
  unfold seconds? times?
  split
  next h =>
    have hdouble : (p.seconds * 2).toNat = p.seconds.toNat * 2 := by
      rw [UInt64.toNat_mul]
      exact Nat.mod_eq_of_lt h
    rw [Option.bind_some, plus?, hcarry, hdouble]
  next h =>
    have hlarge : ¬p.seconds.toNat * 2 < UInt64.size := h
    rw [Option.bind_none, if_neg (by omega)]

theorem toNat_of_seconds? {p : Parts} {s : UInt64} (h : p.seconds? = some s) :
    s.toNat = p.seconds.toNat * 2 + p.nanos.toNat * 2 / nanosPerSecond := by
  rw [seconds?_eq, Option.ite_none_right_eq_some, Option.some.injEq] at h
  obtain ⟨hfits, rfl⟩ := h
  have hseconds : p.seconds.toNat * 2 < UInt64.size :=
    Nat.lt_of_le_of_lt (Nat.le_add_right ..) hfits
  rw [UInt64.toNat_add, UInt64.toNat_mul, UInt64.toNat_div, toNat_doubleNanos]
  show (p.seconds.toNat * 2 % UInt64.size + _) % UInt64.size = _
  rw [Nat.mod_eq_of_lt hseconds]
  exact Nat.mod_eq_of_lt hfits

/-- In exact nanoseconds a span is doubled up to the longest one. -/
theorem total_double (p : Parts) : p.double.total = min (2 * p.total) longestSpan := by
  have hsplit := Nat.div_add_mod (p.nanos.toNat * 2) nanosPerSecond
  unfold double
  split
  next s hs =>
    have hseconds := toNat_of_seconds? hs
    have hlt := s.toNat_lt_size
    rw [total, toNat_rest, hseconds]
    rw [hseconds] at hlt
    simp only [total, longestSpan, nanosPerSecond, UInt64.size] at *
    omega
  next hs =>
    have hlarge : ¬p.seconds.toNat * 2 + p.nanos.toNat * 2 / nanosPerSecond < UInt64.size := by
      intro hfits
      rw [seconds?_eq, if_pos hfits] at hs
      cases hs
    rw [total_longest]
    simp only [total, longestSpan, nanosPerSecond, UInt64.size] at *
    omega

theorem toNat_nanos (d : Duration) :
    (UInt32.ofNat (d.nanos % nanosPerSecond)).toNat = d.nanos % nanosPerSecond :=
  Nat.mod_eq_of_lt (Nat.lt_trans (Nat.mod_lt _ (by decide)) (by decide : nanosPerSecond < _))

theorem toNat_seconds (d : Duration) :
    (UInt64.ofNat (d.nanos / nanosPerSecond)).toNat = d.nanos / nanosPerSecond := by
  have hle := d.nanos_le
  refine Nat.mod_eq_of_lt (Nat.div_lt_of_lt_mul ?_)
  rw [longestSpan, UInt64.size, nanosPerSecond] at hle
  show d.nanos < 1000000000 * 18446744073709551616
  omega

/-- The words of a span. -/
def ofDuration (d : Duration) : Parts :=
  ⟨.ofNat (d.nanos / nanosPerSecond), .ofNat (d.nanos % nanosPerSecond), by
    rw [toNat_nanos]
    exact Nat.mod_lt _ (by decide)⟩

@[simp] theorem total_ofDuration (d : Duration) : (ofDuration d).total = d.nanos := by
  rw [total, ofDuration, toNat_seconds, toNat_nanos, Nat.div_add_mod']

end Parts

end Duration

namespace Backoff

theorem bounds_iterate_advance (b : Bounds) (n : Nat) :
    (advance^[n] (ofBounds b)).bounds = b := by
  induction n with
  | zero => rfl
  | succ n ih => rw [Function.iterate_succ_apply', bounds_advance, ih]

/-- The delay after `n` doublings, in exact nanoseconds. -/
theorem nanos_iterate_advance (b : Bounds) (n : Nat) :
    (advance^[n] (ofBounds b)).current.nanos = min (b.initial.nanos * 2 ^ n) b.ceiling.nanos := by
  induction n with
  | zero => rw [Function.iterate_zero_apply, ofBounds, Bounds.first, Duration.nanos_lesser,
      Nat.pow_zero, Nat.mul_one]
  | succ n ih =>
    have hceiling := b.ceiling.nanos_le
    have hdouble : b.initial.nanos * 2 ^ (n + 1) = 2 * (b.initial.nanos * 2 ^ n) := by
      rw [Nat.pow_succ, Nat.mul_comm _ 2, Nat.mul_left_comm]
    rw [Function.iterate_succ_apply', advance, Duration.nanos_lesser, Duration.nanos_double, ih,
      bounds_iterate_advance, hdouble]
    omega

/-- The delay after `n` doublings, computed in words. -/
def Bounds.wordDelay (b : Bounds) : Nat → Duration.Parts
  | 0 => (Duration.Parts.ofDuration b.initial).lesser (.ofDuration b.ceiling)
  | n + 1 => (b.wordDelay n).double.lesser (.ofDuration b.ceiling)

theorem total_wordDelay (b : Bounds) (n : Nat) :
    (b.wordDelay n).total = (advance^[n] (ofBounds b)).current.nanos := by
  induction n with
  | zero => simp [Bounds.wordDelay, Duration.Parts.total_lesser, ofBounds, Bounds.first]
  | succ n ih =>
    rw [Function.iterate_succ_apply', advance, Duration.nanos_lesser, Duration.nanos_double,
      bounds_iterate_advance, Bounds.wordDelay, Duration.Parts.total_lesser,
      Duration.Parts.total_double, Duration.Parts.total_ofDuration, ih]

end Backoff

end TwinLink
