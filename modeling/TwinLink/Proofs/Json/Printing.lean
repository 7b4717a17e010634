import Mathlib.Data.List.Forall2
import TwinLink.Proofs.Json.Doubles
import TwinLink.Proofs.Json.Reading

/-! The text of a value. Every value is written as a text of some document. Read again it is the
same value, names and their order included, if its numbers are integers of 64 bits and the names in
each object differ; doubles are left out, because what is written of them need not be finite. -/

namespace TwinLink.Json

open Decimal (Double)

namespace Quoted

variable {c : Char}

theorem hexValue?_hexDigit {n : Nat} (hn : n < 16) : hexValue? (hexDigit n) = some n := by
  have h : ∀ n < 16, hexValue? (hexDigit n) = some n := by decide
  exact h n hn

theorem chars?_control (hc : c.toNat < 0x20) (ps : List Piece) :
    chars? (.unit c.toNat :: ps) = (chars? ps).map (c :: ·) := by
  have hlow : isLowSurrogate c.toNat = false := by
    simp only [isLowSurrogate, Bool.and_eq_false_iff, decide_eq_false_iff_not]
    omega
  have hhigh : isHighSurrogate c.toNat = false := by
    simp only [isHighSurrogate, Bool.and_eq_false_iff, decide_eq_false_iff_not]
    omega
  rw [chars?_unit hlow hhigh, Char.ofNat_toNat]

/-- A character is written as one piece. -/
theorem escape_piece (c : Char) :
    ∃ p, (∀ ps s t, Spells ps s t → Spells (p :: ps) (escape c ++ s) t) ∧
      ∀ ps, chars? (p :: ps) = (chars? ps).map (c :: ·) := by
  unfold escape
  split
  case h_8 hquote hslash _ _ _ _ _ =>
    split
    · next hc =>
      refine ⟨.unit c.toNat, fun ps s t h => ?_, chars?_control hc⟩
      have hunit := Spells.unit (show hexValue? '0' = some 0 by decide)
        (show hexValue? '0' = some 0 by decide)
        (hexValue?_hexDigit (show c.toNat / 16 < 16 by omega))
        (hexValue?_hexDigit (show c.toNat % 16 < 16 by omega)) h
      have hn : ((0 * 16 + 0) * 16 + c.toNat / 16) * 16 + c.toNat % 16 = c.toNat := by omega
      rw [hn] at hunit
      exact hunit
    · next hc =>
      exact ⟨.char c, fun ps s t => .char (Nat.not_lt.mp hc) hquote hslash, fun ps => rfl⟩
  all_goals
    exact ⟨.char _, fun ps s t => .letter (by decide), fun ps => rfl⟩

theorem encode_pieces (x : String) : ∃ ps, text? ps = some x ∧
    ∀ t, Spells ps (x.toList.flatMap escape ++ '"' :: t) t := by
  obtain ⟨ps, hps, hspells⟩ : ∃ ps, chars? ps = some x.toList ∧
      ∀ t, Spells ps (x.toList.flatMap escape ++ '"' :: t) t := by
    induction x.toList with
    | nil => exact ⟨[], rfl, fun t => .close⟩
    | cons c cs ih =>
      obtain ⟨ps, hps, hspells⟩ := ih
      obtain ⟨p, hp, hchars⟩ := escape_piece c
      refine ⟨p :: ps, by rw [hchars, hps, Option.map_some], fun t => ?_⟩
      rw [List.flatMap_cons, List.append_assoc]
      exact hp ps _ t (hspells t)
  exact ⟨ps, by rw [text?, hps, Option.map_some, String.ofList_toList], hspells⟩

end Quoted

namespace Value

/-- Induction over a value with a hypothesis for each of its items or members. -/
theorem induction {P : Value → Prop} (null : P .null) (bool : ∀ b, P (.bool b))
    (number : ∀ n, P (.number n)) (string : ∀ s, P (.string s))
    (array : ∀ vs, (∀ v ∈ vs, P v) → P (.array vs))
    (object : ∀ ms, (∀ m ∈ ms, P m.2) → P (.object ms)) : ∀ v, P v
  | .null => null
  | .bool b => bool b
  | .number n => number n
  | .string s => string s
  | .array vs => array vs fun v _ => induction null bool number string array object v
  | .object ms => object ms fun m _ => induction null bool number string array object m.2
termination_by v => sizeOf v
decreasing_by
  · have := List.sizeOf_lt_of_mem ‹v ∈ vs›
    simp only [Value.array.sizeOf_spec]
    omega
  · have := List.sizeOf_lt_of_mem ‹m ∈ ms›
    cases m
    simp only [Value.object.sizeOf_spec, Prod.mk.sizeOf_spec] at *
    omega

/-- `v.Holds w`: the value `w` is `v` or stands somewhere inside it. -/
inductive Holds : Value → Value → Prop
  | self {v : Value} : Holds v v
  | item {vs : List Value} {v w : Value} (hv : v ∈ vs) (h : Holds v w) : Holds (.array vs) w
  | member {ms : List (String × Value)} {m : String × Value} {w : Value} (hm : m ∈ ms)
      (h : Holds m.2 w) : Holds (.object ms) w

/-- All numbers are integers of 64 bits, signed or unsigned. -/
def Whole (v : Value) : Prop := ∀ n, v.Holds (.number n) →
  ∃ z, n = .integer z ∧ Number.leastInteger ≤ z ∧ z ≤ Number.greatestNatural

/-- No number is a double. -/
def Floatless (v : Value) : Prop := ∀ x, ¬v.Holds (.number (.float x))

/-- No object has a name twice. -/
def Distinct (v : Value) : Prop := ∀ ms, v.Holds (.object ms) → (Members.names ms).Nodup

/-- At most `depth` brackets are open at once. -/
inductive Nests : Nat → Value → Prop
  | null {depth : Nat} : Nests depth .null
  | bool {depth : Nat} {b : Bool} : Nests depth (.bool b)
  | number {depth : Nat} {n : Number} : Nests depth (.number n)
  | string {depth : Nat} {s : String} : Nests depth (.string s)
  | array {depth : Nat} {vs : List Value} (h : ∀ v ∈ vs, Nests depth v) :
      Nests (depth + 1) (.array vs)
  | object {depth : Nat} {ms : List (String × Value)} (h : ∀ m ∈ ms, Nests depth m.2) :
      Nests (depth + 1) (.object ms)

/-- What a text gives back as it was, inside `depth` brackets that may still be opened. -/
structure Exact (depth : Nat) (v : Value) : Prop where
  whole : v.Whole
  distinct : v.Distinct
  nests : v.Nests depth

variable {depth : Nat}

theorem Exact.item {vs : List Value} (h : Exact (depth + 1) (.array vs)) {v : Value}
    (hv : v ∈ vs) : v.Exact depth where
  whole n hn := h.whole n (.item hv hn)
  distinct ms hms := h.distinct ms (.item hv hms)
  nests := by
    cases h.nests with
    | array hnests => exact hnests v hv

theorem Exact.member {ms : List (String × Value)} (h : Exact (depth + 1) (.object ms))
    {m : String × Value} (hm : m ∈ ms) : m.2.Exact depth where
  whole n hn := h.whole n (.member hm hn)
  distinct ms hms := h.distinct ms (.member hm hms)
  nests := by
    cases h.nests with
    | object hnests => exact hnests m hm

theorem exact_integer {z : Int} (hlow : Number.leastInteger ≤ z)
    (hhigh : z ≤ Number.greatestNatural) : (Value.number (.integer z)).Exact depth where
  whole n hn := by
    cases hn
    exact ⟨z, rfl, hlow, hhigh⟩
  distinct ms hms := by cases hms
  nests := .number

theorem exact_string (s : String) : (Value.string s).Exact depth where
  whole n hn := by cases hn
  distinct ms hms := by cases hms
  nests := .string

end Value

section Read

variable {depth : Nat} {ds : List Document} {ms : List (List Piece × Document)} {vs : List Value}
  {acc out : Members} {P : Value → Prop}

theorem mapM_forall (h : ds.mapM (Document.value? depth) = some vs)
    (hds : ∀ d ∈ ds, ∀ v, d.value? depth = some v → P v) : ∀ v ∈ vs, P v := by
  induction ds generalizing vs with
  | nil =>
    cases h
    simp
  | cons d ds ih =>
    obtain ⟨v, rest, hv, hrest, rfl⟩ := mapM_cons_eq_some.mp h
    rw [List.forall_mem_cons] at hds ⊢
    exact ⟨hds.1 v hv, ih hrest hds.2⟩

theorem mem_insert {name : String} {v : Value} {m : String × Value}
    (hm : m ∈ Members.insert name v acc) : m.2 = v ∨ m ∈ acc := by
  induction acc with
  | nil =>
    rw [Members.insert, List.mem_singleton] at hm
    exact .inl (by rw [hm])
  | cons n acc ih =>
    rw [Members.insert] at hm
    split at hm
    · rcases List.mem_cons.mp hm with rfl | hm
      · exact .inl rfl
      · exact .inr (List.mem_cons_of_mem _ hm)
    · rcases List.mem_cons.mp hm with rfl | hm
      · exact .inr (List.mem_cons_self ..)
      · exact (ih hm).imp_right (List.mem_cons_of_mem _)

theorem foldMembers_forall (h : foldMembers (fun acc name d =>
      (d.value? depth).map (Members.insert name · acc)) acc ms = some out)
    (hms : ∀ m ∈ ms, ∀ v, m.2.value? depth = some v → P v) (hacc : ∀ m ∈ acc, P m.2)
    (hnames : (Members.names acc).Nodup) :
    (∀ m ∈ out, P m.2) ∧ (Members.names out).Nodup := by
  induction ms generalizing acc with
  | nil =>
    cases h
    exact ⟨hacc, hnames⟩
  | cons m ms ih =>
    obtain ⟨ps, d⟩ := m
    obtain ⟨name, mid, -, hmid, hrest⟩ := foldMembers_cons.mp h
    obtain ⟨v, hv, rfl⟩ := Option.map_eq_some_iff.mp hmid
    rw [List.forall_mem_cons] at hms
    refine ih hrest hms.2 (fun m hm => ?_) (Members.nodup_names_insert hnames)
    rcases mem_insert hm with he | hm
    · rw [he]
      exact hms.1 v hv
    · exact hacc m hm

/-- Induction over the values that are read inside `depth` brackets that may be opened. -/
theorem value?_induction {P : Nat → Value → Prop} (null : ∀ depth, P depth .null)
    (bool : ∀ depth b, P depth (.bool b))
    (number : ∀ depth (l : Numeral) n, l.number? = some n → P depth (.number n))
    (string : ∀ depth s, P depth (.string s))
    (array : ∀ depth vs, (∀ v ∈ vs, P depth v) → P (depth + 1) (.array vs))
    (object : ∀ depth ms, (∀ m ∈ ms, P depth m.2) → (Members.names ms).Nodup →
      P (depth + 1) (.object ms))
    {d : Document} {v : Value} (h : d.value? depth = some v) : P depth v := by
  induction d using Document.induction generalizing depth v with
  | null =>
    rw [Document.value?, Option.some.injEq] at h
    subst h
    exact null depth
  | bool b =>
    rw [Document.value?, Option.some.injEq] at h
    subst h
    exact bool depth b
  | number l =>
    rw [Document.value?, Option.map_eq_some_iff] at h
    obtain ⟨n, hn, rfl⟩ := h
    exact number depth l n hn
  | string ps =>
    rw [Document.value?, Option.map_eq_some_iff] at h
    obtain ⟨s, -, rfl⟩ := h
    exact string depth s
  | array ds ih =>
    rcases depth with _ | depth
    · simp [Document.value?] at h
    rw [Document.value?, Option.map_eq_some_iff] at h
    obtain ⟨vs, hvs, rfl⟩ := h
    exact array depth vs (mapM_forall hvs fun d hd v hv => ih d hd hv)
  | object ms ih =>
    rcases depth with _ | depth
    · simp [Document.value?] at h
    rw [Document.value?, Option.map_eq_some_iff] at h
    obtain ⟨out, hout, rfl⟩ := h
    obtain ⟨hall, hnames⟩ := foldMembers_forall hout (fun m hm v hv => ih m hm hv) (by simp)
      List.nodup_nil
    exact object depth out hall hnames

/-- A value that has been read keeps within the brackets and has no name twice. -/
theorem value?_sound {d : Document} {v : Value} (h : d.value? depth = some v) :
    v.Nests depth ∧ v.Distinct := by
  refine value?_induction (P := fun depth v => v.Nests depth ∧ v.Distinct) ?null ?bool ?number
    ?string ?array ?object h
  case null => exact fun depth => ⟨.null, fun ms hms => by cases hms⟩
  case bool => exact fun depth b => ⟨.bool, fun ms hms => by cases hms⟩
  case number => exact fun depth l n hn => ⟨.number, fun ms hms => by cases hms⟩
  case string => exact fun depth s => ⟨.string, fun ms hms => by cases hms⟩
  case array =>
    intro depth vs ih
    refine ⟨.array fun v hv => (ih v hv).1, fun ms hms => ?_⟩
    cases hms with
    | item hv hms => exact (ih _ hv).2 ms hms
  case object =>
    intro depth ms ih hnames
    refine ⟨.object fun m hm => (ih m hm).1, fun ms hms => ?_⟩
    cases hms with
    | self => exact hnames
    | member hm hms => exact (ih _ hm).2 ms hms

/-- A number inside a value that has been read is that of a numeral. -/
theorem exists_numeral {d : Document} {v : Value} {n : Number} (h : d.value? depth = some v)
    (hn : v.Holds (.number n)) : ∃ l : Numeral, l.number? = some n := by
  refine value?_induction (P := fun _ v => v.Holds (.number n) → ∃ l : Numeral, l.number? = some n)
    ?null ?bool ?number ?string ?array ?object h hn
  case null => rintro depth ⟨⟩
  case bool => rintro depth b ⟨⟩
  case string => rintro depth s ⟨⟩
  case number =>
    rintro depth l m hm ⟨⟩
    exact ⟨l, hm⟩
  case array =>
    intro depth vs ih hn
    cases hn with
    | item hv hn => exact ih _ hv hn
  case object =>
    intro depth ms ih hnames hn
    cases hn with
    | member hm hn => exact ih _ hm hn

/-- A value that has been read comes back as it was if it holds no double. -/
theorem exact_of_value? {d : Document} {v : Value} (h : d.value? depth = some v)
    (hv : v.Floatless) : v.Exact depth := by
  obtain ⟨hnests, hdistinct⟩ := value?_sound h
  refine ⟨fun n hn => ?_, hdistinct, hnests⟩
  cases n with
  | float x => exact absurd hn (hv x)
  | integer z =>
    obtain ⟨l, hl⟩ := exists_numeral h hn
    exact ⟨z, rfl, Numeral.number?_bounds hl⟩

end Read

theorem itemChars_cons (v : Value) (vs : List Value) :
    itemChars (v :: vs) = v.chars ++ vs.flatMap fun w => ',' :: w.chars := by
  induction vs generalizing v with
  | nil => simp [itemChars]
  | cons w vs ih => rw [itemChars, ih w, List.flatMap_cons, List.cons_append]

/-- A member without the comma before it. -/
def memberText (m : String × Value) : List Char := stringChars m.1 ++ ':' :: m.2.chars

theorem memberChars_cons (m : String × Value) (ms : List (String × Value)) :
    memberChars (m :: ms) = memberText m ++ ms.flatMap fun n => ',' :: memberText n := by
  induction ms generalizing m with
  | nil => simp [memberChars, memberText]
  | cons n ms ih =>
    rw [memberChars, ih n, List.flatMap_cons, List.cons_append]
    rfl

/-- What the text of `v` is a text of. -/
structure Writes (v : Value) (d : Document) : Prop where
  spells : ∀ t, d.Spells (v.chars ++ t) t
  value : ∀ depth, v.Exact depth → d.value? depth = some v
  object : (∃ qs, d = .object qs) ↔ ∃ ms, v = .object ms

theorem fills_text {v : Value} {d : Document} (h : ∀ t, d.Spells (v.chars ++ t) t) :
    d.Fills v.text := by
  have hspells := h []
  rw [List.append_nil] at hspells
  refine ⟨[], ?_, rfl⟩
  rw [Value.text, String.toList_ofList, hspells.skipBlanks_eq]
  exact hspells

/-- The same for a member and its name. -/
structure WritesMember (m : String × Value) (q : List Piece × Document) : Prop where
  name : Quoted.text? q.1 = some m.1
  entry : ∀ t, Entry Document.Spells q (memberText m ++ t) t
  value : ∀ depth, m.2.Exact depth → q.2.value? depth = some m.2

theorem Writes.member {v : Value} {d : Document} (h : Writes v d) (name : String) :
    ∃ ps, WritesMember (name, v) (ps, d) := by
  obtain ⟨ps, hps, hspells⟩ := Quoted.encode_pieces name
  refine ⟨ps, hps, fun t => ?_, h.value⟩
  have hcolon : skipBlanks (':' :: (v.chars ++ t)) = ':' :: (v.chars ++ t) :=
    skipBlanks_cons (by decide)
  have hvalue := h.spells t
  rw [← hvalue.skipBlanks_eq] at hvalue
  have hentry := Entry.mk (hspells _) hcolon hvalue
  simpa [memberText, stringChars, Quoted.encode] using hentry

section Lists

variable {depth : Nat} {vs : List Value} {ds : List Document} {ms : List (String × Value)}
  {qs : List (List Piece × Document)}

theorem exists_forall₂ {α β : Type} {R : α → β → Prop} {xs : List α}
    (h : ∀ x ∈ xs, ∃ y, R x y) : ∃ ys, List.Forall₂ R xs ys := by
  induction xs with
  | nil => exact ⟨[], .nil⟩
  | cons x xs ih =>
    obtain ⟨y, hy⟩ := h x (List.mem_cons_self ..)
    obtain ⟨ys, hys⟩ := ih fun z hz => h z (List.mem_cons_of_mem _ hz)
    exact ⟨y :: ys, .cons hy hys⟩

theorem mapM_written (h : List.Forall₂ Writes vs ds) (hvs : ∀ v ∈ vs, v.Exact depth) :
    ds.mapM (Document.value? depth) = some vs := by
  induction h with
  | nil => rfl
  | @cons v d vs ds hv _ ih =>
    refine mapM_cons_eq_some.mpr ⟨v, vs, ?_, ?_, rfl⟩
    · exact hv.value depth (hvs v (List.mem_cons_self ..))
    · exact ih fun w hw => hvs w (List.mem_cons_of_mem _ hw)

theorem more_written {α β : Type} {R : β → List Char → List Char → Prop} {close : Char}
    {text : α → List Char} {xs : List α} {ys : List β} (hclose : isBlank close = false)
    (hblank : ∀ y s t, R y s t → skipBlanks s = s)
    (h : List.Forall₂ (fun x y => ∀ t, R y (text x ++ t) t) xs ys) (t : List Char) :
    More R close ys ((xs.flatMap fun x => ',' :: text x) ++ close :: t) t := by
  induction h with
  | nil => exact .close (skipBlanks_cons hclose)
  | @cons x y xs ys hx _ ih =>
    have hx := hx ((xs.flatMap fun x => ',' :: text x) ++ close :: t)
    rw [List.flatMap_cons, List.cons_append, List.cons_append, List.append_assoc]
    refine .next (skipBlanks_cons (by decide)) ?_ ih
    rw [hblank _ _ _ hx]
    exact hx

theorem listed_items (h : List.Forall₂ Writes vs ds) (t : List Char) :
    Listed Document.Spells ']' ds (itemChars vs ++ ']' :: t) t := by
  cases h with
  | nil => exact .empty (skipBlanks_cons (by decide))
  | @cons v d vs ds hv h =>
    have hspells : List.Forall₂ (fun w d => ∀ t, Document.Spells d (w.chars ++ t) t) vs ds :=
      h.imp fun _ _ hw => hw.spells
    have hmore := more_written (R := Document.Spells) (show isBlank ']' = false by decide)
      (fun _ _ _ => Document.Spells.skipBlanks_eq) hspells t
    have hitem := hv.spells ((vs.flatMap fun w => ',' :: w.chars) ++ ']' :: t)
    rw [itemChars_cons, List.append_assoc]
    refine .first ?_ hmore
    rw [hitem.skipBlanks_eq]
    exact hitem

theorem Entry.skipBlanks_eq {q : List Piece × Document} {s t : List Char}
    (h : Entry Document.Spells q s t) : skipBlanks s = s := by
  cases h with
  | mk => exact skipBlanks_cons (by decide)

theorem listed_members (h : List.Forall₂ WritesMember ms qs) (t : List Char) :
    Listed (Entry Document.Spells) '}' qs (memberChars ms ++ '}' :: t) t := by
  cases h with
  | nil => exact .empty (skipBlanks_cons (by decide))
  | @cons m q ms qs hm h =>
    have hentries : List.Forall₂
        (fun n q => ∀ t, Entry Document.Spells q (memberText n ++ t) t) ms qs :=
      h.imp fun _ _ hn => hn.entry
    have hmore := more_written (R := Entry Document.Spells)
      (show isBlank '}' = false by decide) (fun _ _ _ => Entry.skipBlanks_eq) hentries t
    have hmember := hm.entry ((ms.flatMap fun n => ',' :: memberText n) ++ '}' :: t)
    rw [memberChars_cons, List.append_assoc]
    refine .first ?_ hmore
    rw [hmember.skipBlanks_eq]
    exact hmember

theorem insert_of_not_mem {name : String} {v : Value} {acc : Members}
    (h : name ∉ Members.names acc) : Members.insert name v acc = acc ++ [(name, v)] := by
  induction acc with
  | nil => rfl
  | cons m acc ih =>
    simp only [Members.names, List.map_cons, List.mem_cons, not_or] at h ih
    rw [Members.insert, if_neg (Ne.symm h.1), ih h.2, List.cons_append]

/-- What is written of the members under a name stands under that name. -/
theorem under_written (h : List.Forall₂ WritesMember ms qs) (name : String) :
    List.Forall₂ (fun v d => ∀ depth, v.Exact depth → d.value? depth = some v)
      ((ms.filter (·.1 = name)).map Prod.snd) (Document.under name qs) := by
  rw [Document.under, List.forall₂_map_left_iff, List.forall₂_map_right_iff]
  refine List.Forall₂.imp (fun m q hm => hm.value) (List.rel_filter (fun m q hm => ?_) h)
  simp only [hm.name, decide_eq_true_eq, Option.some.injEq]

/-- New names are put at the end, so that the members come back in their order. -/
theorem foldMembers_written (h : List.Forall₂ WritesMember ms qs)
    (hms : ∀ m ∈ ms, m.2.Exact depth) {acc : Members}
    (hnames : (Members.names (acc ++ ms)).Nodup) :
    foldMembers (fun acc name d => (d.value? depth).map (Members.insert name · acc)) acc qs =
      some (acc ++ ms) := by
  induction h generalizing acc with
  | nil => simp [foldMembers]
  | @cons m q ms qs hm _ ih =>
    obtain ⟨name, v⟩ := m
    obtain ⟨ps, d⟩ := q
    have hvalue := hm.value depth (hms _ (List.mem_cons_self ..))
    have hnew : name ∉ Members.names acc := by
      simp only [Members.names, List.map_append, List.map_cons, List.nodup_append] at hnames
      intro hmem
      exact hnames.2.2 name hmem name (List.mem_cons_self ..) rfl
    have hsplit : acc ++ (name, v) :: ms = acc ++ [(name, v)] ++ ms := by simp
    rw [hsplit] at hnames ⊢
    refine foldMembers_cons.mpr ⟨name, acc ++ [(name, v)], hm.name, ?_, ?_⟩
    · rw [hvalue, Option.map_some, insert_of_not_mem hnew]
    · exact ih (fun n hn => hms n (List.mem_cons_of_mem _ hn)) hnames

end Lists

theorem writes_array {vs : List Value} {ds : List Document} (h : List.Forall₂ Writes vs ds) :
    Writes (.array vs) (.array ds) where
  spells t := by
    have hlisted := listed_items h t
    rw [Value.chars, List.cons_append, List.cons_append, List.append_assoc, List.singleton_append]
    exact .array hlisted
  value depth hv := by
    cases hv.nests with
    | array => rw [Document.value?, mapM_written h fun v hmem => hv.item hmem, Option.map_some]
  object := by simp

theorem writes_object {ms : List (String × Value)} {qs : List (List Piece × Document)}
    (h : List.Forall₂ WritesMember ms qs) : Writes (.object ms) (.object qs) where
  spells t := by
    have hlisted := listed_members h t
    rw [Value.chars, List.cons_append, List.cons_append, List.append_assoc, List.singleton_append]
    exact .object hlisted
  value depth hv := by
    have hnames := hv.distinct ms .self
    cases hv.nests with
    | object =>
      have hfold := @foldMembers_written _ ms qs h (fun m hm => hv.member hm) [] hnames
      rw [Document.value?, hfold, List.nil_append, Option.map_some]
  object := by simp

theorem writes_integer (z : Int) : Writes (.number (.integer z)) (.number (.ofInt z)) where
  spells t := by
    rw [Value.chars, Number.chars, ← Numeral.chars_ofInt]
    exact .number (Numeral.ofInt_wellFormed z) rfl
  value depth hv := by
    obtain ⟨_, h, hlow, hhigh⟩ := hv.whole _ .self
    cases h
    rw [Document.value?, Numeral.number?_ofInt hlow hhigh, Option.map_some]
  object := by simp

theorem writes_null {x : Double} (h : floatChars x = "null".toList) :
    Writes (.number (.float x)) .null where
  spells t := by
    rw [Value.chars, Number.chars, h]
    exact .null
  value depth hv := by
    obtain ⟨_, h, -⟩ := hv.whole _ .self
    cases h
  object := by simp

theorem writes_finite {x : Double} {l : Numeral} (hl : l.WellFormed) (h : floatChars x = l.chars) :
    Writes (.number (.float x)) (.number l) where
  spells t := .number hl (by rw [Value.chars, Number.chars, h])
  value depth hv := by
    obtain ⟨_, h, -⟩ := hv.whole _ .self
    cases h
  object := by simp

theorem exists_writes_double (x : Double) : ∃ d, Writes (.number (.float x)) d := by
  cases x with
  | finite negative m q =>
    obtain ⟨l, hl, h⟩ := floatChars_finite negative m q
    exact ⟨_, writes_finite hl h⟩
  | infinite => exact ⟨_, writes_null rfl⟩
  | nan => exact ⟨_, writes_null rfl⟩

theorem exists_writes_string (s : String) :
    ∃ ps, Quoted.text? ps = some s ∧ Writes (.string s) (.string ps) := by
  obtain ⟨ps, hps, hspells⟩ := Quoted.encode_pieces s
  refine ⟨ps, hps, fun t => ?_, fun depth _ => ?_, by simp⟩
  · rw [Value.chars, stringChars, Quoted.encode, List.cons_append, List.cons_append,
      List.append_assoc, List.singleton_append]
    exact .string (hspells t)
  · rw [Document.value?, hps, Option.map_some]

/-- Members are written if their values are. -/
theorem exists_writes_members {ms : List (String × Value)} (h : ∀ m ∈ ms, ∃ d, Writes m.2 d) :
    ∃ qs, List.Forall₂ WritesMember ms qs := by
  refine exists_forall₂ fun m hm => ?_
  obtain ⟨d, hd⟩ := h m hm
  obtain ⟨ps, hps⟩ := hd.member m.1
  exact ⟨(ps, d), hps⟩

/-- Every value is written as a text of a document. -/
theorem exists_writes (v : Value) : ∃ d, Writes v d := by
  induction v using Value.induction with
  | null => exact ⟨.null, fun t => .null, fun depth _ => by rw [Document.value?], by simp⟩
  | bool b =>
    refine ⟨.bool b, fun t => ?_, fun depth _ => by rw [Document.value?], by simp⟩
    cases b
    · exact .isFalse
    · exact .isTrue
  | number n =>
    cases n with
    | integer z => exact ⟨_, writes_integer z⟩
    | float x => exact exists_writes_double x
  | string s =>
    obtain ⟨ps, -, hps⟩ := exists_writes_string s
    exact ⟨.string ps, hps⟩
  | array vs ih =>
    obtain ⟨ds, hds⟩ := exists_forall₂ ih
    exact ⟨.array ds, writes_array hds⟩
  | object ms ih =>
    obtain ⟨qs, hqs⟩ := exists_writes_members ih
    exact ⟨.object qs, writes_object hqs⟩

end TwinLink.Json
