import Mathlib.Data.List.TakeWhile
import TwinLink.Snapshot

/-! Looking up a nested value of a snapshot along a pointer. A pointer leads through the object of
all sections segment by segment, and `~1` and `~0` stand for a slash and a tilde in each of them.
A snapshot cuts off the first segment and takes it as it stands; only the rest is a pointer, into
that section. Main statement: a snapshot finds what the pointer leads to whose first segment has
been escaped once more, so that it finds what the pointer leads to, whatever its sections are,
exactly if nothing is escaped in the first segment. -/

namespace TwinLink

namespace Json.Pointer

/-! ### Escapes -/

section Escape

variable {a b c x : Char} {s : List Char}

theorem replacePair_cons (h : x ≠ a) : replacePair a b c (x :: s) = x :: replacePair a b c s := by
  cases s with
  | nil => rfl
  | cons y s => rw [replacePair, if_neg fun hx => h hx.1]

theorem length_replacePair_le (a b c : Char) (s : List Char) :
    (replacePair a b c s).length ≤ s.length := by
  fun_induction replacePair a b c s with
  | case1 x y s h ih => simp only [List.length_cons]; omega
  | case2 x y s h ih => simp only [List.length_cons] at ih ⊢; omega
  | case3 s h => exact Nat.le_refl _

/-- Whatever is replaced makes a text shorter. -/
theorem length_replacePair_eq_iff :
    (replacePair a b c s).length = s.length ↔ ¬[a, b] <:+: s := by
  fun_induction replacePair a b c s with
  | case1 x y s h ih =>
    have hle := length_replacePair_le a b c s
    refine iff_of_false (by simp only [List.length_cons]; omega) (not_not_intro ?_)
    rw [← h.1, ← h.2]
    exact (List.prefix_append [x, y] s).isInfix
  | case2 x y s h ih =>
    have hprefix : ¬[a, b] <+: x :: y :: s := by
      rintro ⟨t, ht⟩
      simp only [List.cons_append, List.cons.injEq] at ht
      exact h ⟨ht.1.symm, ht.2.1.symm⟩
    rw [List.infix_cons_iff, not_or, ← ih, List.length_cons, List.length_cons,
      Nat.add_right_cancel_iff]
    exact (and_iff_right hprefix).symm
  | case3 s h =>
    refine iff_of_true rfl fun ⟨p, q, hpq⟩ => ?_
    cases p with
    | nil => exact h _ _ _ hpq.symm
    | cons x p =>
      cases p with
      | nil => exact h _ _ _ hpq.symm
      | cons y p => exact h _ _ _ hpq.symm

theorem replacePair_eq_self (h : ¬[a, b] <:+: s) : replacePair a b c s = s := by
  fun_induction replacePair a b c s with
  | case1 x y s hxy ih =>
    rw [← hxy.1, ← hxy.2] at h
    exact absurd (List.prefix_append [x, y] s).isInfix h
  | case2 x y s hxy ih => rw [ih fun hs => h (List.infix_cons hs)]
  | case3 s hs => rfl

/-- Nothing in a segment is escaped. -/
def Plain (segment : List Char) : Prop := ¬['~', '1'] <:+: segment ∧ ¬['~', '0'] <:+: segment

theorem unescape_eq_self_iff : unescape s = s ↔ Plain s := by
  constructor
  · intro h
    have hle := length_replacePair_le '~' '1' '/' s
    have hle' := length_replacePair_le '~' '0' '~' (replacePair '~' '1' '/' s)
    have hlength : (replacePair '~' '0' '~' (replacePair '~' '1' '/' s)).length = s.length :=
      congrArg List.length h
    have hnone : ¬['~', '1'] <:+: s :=
      length_replacePair_eq_iff.mp (Nat.le_antisymm hle (hlength ▸ hle'))
    rw [replacePair_eq_self hnone] at hlength
    exact ⟨hnone, length_replacePair_eq_iff.mp hlength⟩
  · rintro ⟨hslash, htilde⟩
    rw [unescape, replacePair_eq_self hslash, replacePair_eq_self htilde]

/-- Escapes the tildes of a segment. -/
def escape (segment : List Char) : List Char :=
  segment.flatMap fun c => if c = '~' then ['~', '0'] else [c]

theorem escape_tilde (s : List Char) : escape ('~' :: s) = '~' :: '0' :: escape s := rfl

theorem escape_cons (h : x ≠ '~') : escape (x :: s) = x :: escape s := by
  rw [escape, List.flatMap_cons, if_neg h]
  rfl

theorem replacePair_slash_escape (s : List Char) :
    replacePair '~' '1' '/' (escape s) = escape s := by
  induction s with
  | nil => rfl
  | cons x s ih =>
    by_cases hx : x = '~'
    · subst hx
      rw [escape_tilde, replacePair, if_neg (by decide), replacePair_cons (by decide), ih]
    · rw [escape_cons hx, replacePair_cons hx, ih]

theorem replacePair_tilde_escape (s : List Char) : replacePair '~' '0' '~' (escape s) = s := by
  induction s with
  | nil => rfl
  | cons x s ih =>
    by_cases hx : x = '~'
    · subst hx
      rw [escape_tilde, replacePair, if_pos ⟨rfl, rfl⟩, ih]
    · rw [escape_cons hx, replacePair_cons hx, ih]

theorem unescape_escape (s : List Char) : unescape (escape s) = s := by
  rw [unescape, replacePair_slash_escape, replacePair_tilde_escape]

theorem ne_slash_of_mem_escape (h : ∀ d ∈ s, d ≠ '/') : ∀ d ∈ escape s, d ≠ '/' := by
  intro d hd
  obtain ⟨x, hx, hd⟩ := List.mem_flatMap.mp hd
  split at hd
  · rcases List.mem_cons.mp hd with rfl | hd
    · decide
    · rw [List.mem_singleton.mp hd]
      decide
  · rw [List.mem_singleton.mp hd]
    exact h x hx

end Escape

/-! ### Segments -/

section Segments

variable {head tail : List Char}

/-- What stands behind a segment: nothing, or the next one. -/
def Follows (tail : List Char) : Prop := tail = [] ∨ ∃ t, tail = '/' :: t

theorem segments_append (h : ∀ d ∈ head, d ≠ '/') (t : List Char) :
    segments (head ++ '/' :: t) = head :: segments t := by
  have hhead : Text.pieces (· == '/') head = [head] :=
    Text.pieces_of_forall fun d hd => beq_false_of_ne (h d hd)
  rw [segments, Text.pieces_append_cons (by decide), hhead]
  rfl

theorem lookup_nil : lookup (String.ofList []) = some :=
  funext fun v => by simp only [lookup, String.toList_ofList]

theorem lookup_slash (t : List Char) : lookup (String.ofList ('/' :: t)) = follow (segments t) :=
  funext fun v => by simp only [lookup, String.toList_ofList]

/-- A pointer leads to where its rest leads from the value that its first segment names. -/
theorem lookup_cons (h : ∀ d ∈ head, d ≠ '/') (ht : Follows tail) (v : Value) :
    lookup (String.ofList ('/' :: (head ++ tail))) v =
      (step head v).bind (lookup (String.ofList tail)) := by
  rcases ht with rfl | ⟨t, rfl⟩
  · have hone : segments head = [head] :=
      Text.pieces_of_forall fun d hd => beq_false_of_ne (h d hd)
    rw [List.append_nil, lookup_slash, lookup_nil, hone]
    rfl
  · rw [lookup_slash, lookup_slash, segments_append h]
    rfl

/-- A value that has something where the segments lead. -/
def nest : List (List Char) → Value
  | [] => .null
  | segment :: rest => .object [(String.ofList (unescape segment), nest rest)]

theorem follow_nest (segments : List (List Char)) :
    follow segments (nest segments) = some .null := by
  induction segments with
  | nil => rfl
  | cons segment rest ih =>
    rw [follow, nest, step, Members.find?, if_pos rfl, Option.bind_some, ih]

theorem exists_lookup (ht : Follows tail) : ∃ v, lookup (String.ofList tail) v = some .null := by
  rcases ht with rfl | ⟨t, rfl⟩
  · exact ⟨.null, by rw [lookup_nil]⟩
  · exact ⟨nest (segments t), by rw [lookup_slash, follow_nest]⟩

/-- The first segment of a pointer. -/
def first (pointer : String) : List Char :=
  match pointer.toList with
  | '/' :: s => s.takeWhile (· ≠ '/')
  | _ => []

/-- The pointer whose first segment is the name that this one has there as it stands. -/
def literal (pointer : String) : String :=
  match pointer.toList with
  | '/' :: s =>
    String.ofList ('/' :: (escape (s.takeWhile (· ≠ '/')) ++ s.dropWhile (· ≠ '/')))
  | _ => pointer

theorem first_slash (t : List Char) :
    first (String.ofList ('/' :: t)) = t.takeWhile (· ≠ '/') := by
  simp only [first, String.toList_ofList]

theorem literal_slash (t : List Char) : literal (String.ofList ('/' :: t)) =
    String.ofList ('/' :: (escape (t.takeWhile (· ≠ '/')) ++ t.dropWhile (· ≠ '/'))) := by
  simp only [literal, String.toList_ofList]

theorem follows_dropWhile (s : List Char) : Follows (s.dropWhile (· ≠ '/')) := by
  cases hs : s.dropWhile (· ≠ '/') with
  | nil => exact .inl rfl
  | cons d t =>
    have hd := List.head?_dropWhile_not (fun d : Char => decide (d ≠ '/')) s
    rw [hs] at hd
    exact .inr ⟨t, by simpa using hd⟩

theorem ne_slash_of_mem_takeWhile (s : List Char) : ∀ d ∈ s.takeWhile (· ≠ '/'), d ≠ '/' :=
  fun d hd => by simpa using List.mem_takeWhile_imp hd

end Segments

end Json.Pointer

namespace Snapshot

open Json

theorem lookup_slash (s : Snapshot) (t : List Char) : s.lookup (String.ofList ('/' :: t)) =
    (s.section? (String.ofList (t.takeWhile (· ≠ '/')))).bind
      (Pointer.lookup (String.ofList (t.dropWhile (· ≠ '/')))) := by
  simp only [lookup, String.toList_ofList]

/-- The object of all sections, a pointer into which leads first to one of them. -/
theorem lookup_object (members : Members) {head tail : List Char} (h : ∀ d ∈ head, d ≠ '/')
    (ht : Pointer.Follows tail) :
    Pointer.lookup (String.ofList ('/' :: (head ++ tail))) (.object members) =
      (Members.find? (String.ofList (Pointer.unescape head)) members).bind
        (Pointer.lookup (String.ofList tail)) :=
  Pointer.lookup_cons h ht (.object members)

/-- A pointer is empty, begins with a slash or leads nowhere. -/
theorem pointer_cases (pointer : String) : pointer = "" ∨
    (∃ t, pointer = String.ofList ('/' :: t)) ∨
    (∀ s : Snapshot, s.lookup pointer = none) ∧ (∀ v, Pointer.lookup pointer v = none) ∧
      Pointer.first pointer = [] ∧ Pointer.literal pointer = pointer := by
  rcases hp : pointer.toList with _ | ⟨c, t⟩
  · exact .inl (String.toList_eq_nil_iff.mp hp)
  · by_cases hc : c = '/'
    · subst hc
      exact .inr (.inl ⟨t, by rw [← hp, String.ofList_toList]⟩)
    · refine .inr (.inr ⟨fun s => ?_, fun v => ?_, ?_, ?_⟩)
      · simp [lookup, hp, hc]
      · simp [Pointer.lookup, hp, hc]
      · simp [Pointer.first, hp, hc]
      · simp [Pointer.literal, hp, hc]

theorem lookup_literal (s : Snapshot) {pointer : String} (hp : pointer ≠ "") :
    s.lookup pointer = Pointer.lookup (Pointer.literal pointer) (.object s.sections) := by
  rcases pointer_cases pointer with h | ⟨t, rfl⟩ | ⟨hs, hv, -, hl⟩
  · exact absurd h hp
  · rw [lookup_slash, Pointer.literal_slash,
      lookup_object _ (Pointer.ne_slash_of_mem_escape (Pointer.ne_slash_of_mem_takeWhile t))
        (Pointer.follows_dropWhile t), Pointer.unescape_escape]
    rfl
  · rw [hs, hl, hv]

/-- Some snapshot has something where a pointer leads whose first segment is taken literally. -/
theorem exists_lookup_slash (t : List Char) : ∃ v, ∀ s : Snapshot,
    s.sections = [(String.ofList (t.takeWhile (· ≠ '/')), v)] →
      s.lookup (String.ofList ('/' :: t)) = some .null := by
  obtain ⟨v, hv⟩ := Pointer.exists_lookup (Pointer.follows_dropWhile t)
  refine ⟨v, fun s hs => ?_⟩
  rw [lookup_slash, section?, hs, Members.find?, if_pos rfl, Option.bind_some, hv]

/-- A snapshot finds what the pointer leads to that has the first segment escaped. Whatever the
sections are, that is what the pointer itself leads to exactly if no escape stands there. -/
theorem lookup_eq_pointer (pointer : String) (hp : pointer ≠ "") :
    (∀ s : Snapshot, s.lookup pointer =
      Pointer.lookup (Pointer.literal pointer) (.object s.sections)) ∧
    ((∀ s : Snapshot, s.lookup pointer = Pointer.lookup pointer (.object s.sections)) ↔
      Pointer.Plain (Pointer.first pointer)) := by
  refine ⟨fun s => lookup_literal s hp, ?_⟩
  rcases pointer_cases pointer with h | ⟨t, rfl⟩ | ⟨hs, hv, hfirst, -⟩
  · exact absurd h hp
  · have hobject (members : Members) :=
      lookup_object members (Pointer.ne_slash_of_mem_takeWhile t) (Pointer.follows_dropWhile t)
    rw [List.takeWhile_append_dropWhile] at hobject
    rw [Pointer.first_slash, ← Pointer.unescape_eq_self_iff]
    constructor
    · intro hall
      by_contra hescaped
      obtain ⟨v, hv⟩ := exists_lookup_slash t
      -- a section under the name that stands there, and none under the one that is meant
      have hsame := hall ⟨0, none, none, [(String.ofList (t.takeWhile (· ≠ '/')), v)]⟩
      have hname : ¬String.ofList (t.takeWhile (· ≠ '/')) =
          String.ofList (Pointer.unescape (t.takeWhile (· ≠ '/'))) :=
        fun h => hescaped (String.ofList_injective h).symm
      rw [hv _ rfl, hobject, Members.find?, if_neg hname] at hsame
      cases hsame
    · intro hplain s
      rw [lookup_slash, hobject, hplain]
      rfl
  · rw [hfirst]
    exact iff_of_true (fun s => by rw [hs, hv]) (by simp [Pointer.Plain])

theorem lookup_eq_pointer_base : "/finance/rates/base" ≠ "" ∧
    Pointer.Plain (Pointer.first "/finance/rates/base") ∧
    ∀ s : Snapshot, s.lookup "/finance/rates/base" =
      Pointer.lookup "/finance/rates/base" (.object s.sections) := by
  have hplain : Pointer.Plain (Pointer.first "/finance/rates/base") := by
    rw [← Pointer.unescape_eq_self_iff]
    rfl
  exact ⟨by decide, hplain, (lookup_eq_pointer "/finance/rates/base" (by decide)).2.mpr hplain⟩

section Slashed

def slashedText : String := "\x7b\"tick\":1,\"a/b\":2\x7d"

def slashed : Snapshot := ⟨1, none, none, [("a/b", .number (.integer 2))]⟩

/-- The name of a section may hold a slash, which a pointer escapes. -/
theorem slashed_lookup_ne : decode slashedText = .ok slashed ∧ slashed.lookup "/a~1b" = none ∧
    Pointer.lookup "/a~1b" (.object slashed.sections) = some (.number (.integer 2)) :=
  ⟨rfl, rfl, rfl⟩

end Slashed

end Snapshot

end TwinLink
