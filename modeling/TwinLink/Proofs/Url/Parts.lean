import Mathlib.Tactic.SplitIfs
import TwinLink.Proofs.Url.Pairs
import TwinLink.Url.Reader

/-! The text of an endpoint, cut where its query and its fragment begin. Every part is encoded
for its place when a URL is read, so that the question mark and the number sign stand in no other
place than these two, and the text gives back the parts that it was put together from. -/

namespace TwinLink.Url

/-- The characters at which the query and the fragment begin. -/
def isMark (c : Char) : Bool := c == '?' || c == '#'

/-- A text in which neither begins. -/
def Unmarked (s : List Char) : Prop := ∀ c ∈ s, isMark c = false

section Unmarked

variable {s t : List Char}

@[simp] theorem unmarked_nil : Unmarked [] := List.forall_mem_nil _

@[simp] theorem unmarked_cons {c : Char} : Unmarked (c :: s) ↔ isMark c = false ∧ Unmarked s :=
  List.forall_mem_cons

@[simp] theorem unmarked_append : Unmarked (s ++ t) ↔ Unmarked s ∧ Unmarked t :=
  List.forall_mem_append

/-- Both signs are written in a set of characters that are encoded. -/
theorem eq_of_isMark {c : Char} (h : isMark c = true) : c = '?' ∨ c = '#' := by
  rcases Bool.or_eq_true_iff.mp h with h | h
  · exact .inl (beq_iff_eq.mp h)
  · exact .inr (beq_iff_eq.mp h)

/-- A part that is encoded has no characters of the set, but for those of the encoding. -/
theorem Percent.mem_encode {set : Char → Bool} {c : Char} (h : c ∈ Percent.encode set s) :
    set c = false ∨ Form.isWritten c = true := by
  obtain ⟨d, -, hd⟩ := List.mem_flatMap.mp h
  split_ifs at hd with hplain
  · rw [List.mem_singleton] at hd
    subst hd
    left
    simp only [Bool.and_eq_true, Bool.not_eq_true'] at hplain
    exact hplain.2
  · obtain ⟨b, -, hb⟩ := List.mem_flatMap.mp hd
    exact .inr (Form.written_of_mem_encodeByte hb)

/-- Where a part is encoded for a place in which both signs mean something, neither is left. -/
theorem unmarked_encode {set : Char → Bool} (hq : set '?' = true) (hn : set '#' = true)
    (s : List Char) : Unmarked (Percent.encode set s) := by
  intro c hc
  by_contra hm
  rcases eq_of_isMark (by simpa using hm) with rfl | rfl <;>
    rcases Percent.mem_encode hc with h | h
  · rw [hq] at h
    cases h
  · cases h
  · rw [hn] at h
    cases h
  · cases h

theorem unmarked_digitChar : ∀ n < 16, isMark (Nat.digitChar n) = false := by decide

theorem unmarked_toDigits {base : Nat} (hlow : 1 < base) (hhigh : base ≤ 16) (n : Nat) :
    Unmarked (Nat.toDigits base n) := by
  induction n using Nat.strongRecOn with
  | ind n ih =>
    rw [Nat.toDigits_eq_if hlow]
    split_ifs with h
    · simp [unmarked_digitChar n (by omega)]
    · have hn : n / base < n := Nat.div_lt_self (by omega) hlow
      have hmod : n % base < base := Nat.mod_lt _ (by omega)
      simp [unmarked_digitChar (n % base) (by omega), ih _ hn]

theorem unmarked_join {separator : Char} (hs : isMark separator = false) {parts : List (List Char)}
    (h : ∀ p ∈ parts, Unmarked p) : Unmarked (parts.intersperse [separator]).flatten := by
  induction parts with
  | nil => simp
  | cons p parts ih =>
    have hp := h p List.mem_cons_self
    have hrest := ih fun q hq => h q (List.mem_cons_of_mem _ hq)
    cases parts with
    | nil => simpa using hp
    | cons q parts =>
      rw [List.intersperse_cons_cons, List.flatten_cons, List.flatten_cons]
      simp only [unmarked_append, unmarked_cons]
      exact ⟨hp, ⟨hs, unmarked_nil⟩, hrest⟩

theorem unmarked_joinDigits {separator : Char} (hs : isMark separator = false) {base : Nat}
    (hlow : 1 < base) (hhigh : base ≤ 16) (numbers : List Nat) :
    Unmarked ((numbers.map (Nat.toDigits base)).intersperse [separator]).flatten := by
  apply unmarked_join hs
  intro p hp
  obtain ⟨n, -, rfl⟩ := List.mem_map.mp hp
  exact unmarked_toDigits hlow hhigh n

end Unmarked

/-! ### What is read -/

/-- What stands before the query and the fragment of a URL: scheme, authority and path. -/
def front (u : Url) : List Char :=
  u.scheme ++ "://".toList ++ u.userinfo ++ u.host.chars ++
    (u.port.elim [] fun p => ':' :: Nat.toDigits 10 p) ++ u.path.flatMap ('/' :: ·)

/-- The query and the fragment of a URL begin nowhere but in their places. -/
structure Clean (u : Url) : Prop where
  front : Unmarked u.front
  query : ∀ q ∈ u.query, '#' ∉ q

theorem Host.unmarked_chars_of_bracketed {s : List Char} {h : Host} (hs : bracketed s = .ok h) :
    Unmarked h.chars := by
  unfold bracketed at hs
  split at hs
  · cases hs
    simp only [Host.chars, List.cons_append, unmarked_cons, unmarked_append, Address6.chars]
    refine ⟨rfl, ?_, rfl, unmarked_nil⟩
    split
    · exact unmarked_joinDigits rfl (by decide) (by decide) _
    · simp only [unmarked_append, unmarked_cons]
      exact ⟨⟨unmarked_joinDigits rfl (by decide) (by decide) _, rfl, rfl, unmarked_nil⟩,
        unmarked_joinDigits rfl (by decide) (by decide) _⟩
  · cases hs

theorem Host.unmarked_chars_of_domainName {s : List Char} {h : Host} (hs : domainName s = .ok h) :
    Unmarked h.chars := by
  unfold domainName at hs
  split_ifs at hs with hforbidden hempty hnumeric
  · split at hs
    · cases hs
      exact unmarked_joinDigits rfl (by decide) (by decide) _
    · cases hs
  · cases hs
    intro c hc
    by_contra hm
    have hforbid : isForbidden c = true := by
      rcases eq_of_isMark (by simpa using hm) with rfl | rfl <;> rfl
    exact hforbidden (List.any_eq_true.mpr ⟨c, hc, hforbid⟩)

variable {naming : Naming}

theorem Host.unmarked_chars_of_read {s : List Char} {h : Host} (hs : Host.read naming s = .ok h) :
    Unmarked h.chars := by
  unfold Host.read at hs
  split at hs
  · exact unmarked_chars_of_bracketed hs
  · split at hs
    · exact unmarked_chars_of_domainName hs
    · cases hs

namespace Reader

theorem unmarked_of_userinfo {special : Bool} {s rest username password : List Char}
    (h : userinfo special s = .ok ((username, password), rest)) :
    Unmarked username ∧ Unmarked password := by
  unfold userinfo at h
  split at h
  · cases h
    exact ⟨unmarked_nil, unmarked_nil⟩
  · split at h
    · split at h <;> cases h
      exact ⟨unmarked_nil, unmarked_nil⟩
    · cases h
      exact ⟨unmarked_nil, unmarked_nil⟩
  · cases h
    exact ⟨unmarked_encode rfl rfl _, unmarked_encode rfl rfl _⟩

/-- What is read of an authority. -/
theorem authority_eq_ok {s rest : List Char} {a : Authority}
    (h : authority naming s = .ok (a, rest)) :
    Unmarked a.username ∧ Unmarked a.password ∧ Unmarked a.host.chars := by
  unfold authority at h
  cases hu : userinfo true s with
  | error f => simp [hu, bind, Except.bind] at h
  | ok r =>
    obtain ⟨⟨username, password⟩, s₁⟩ := r
    simp only [hu, bind, Except.bind] at h
    split_ifs at h
    cases hh : Host.read naming (hostText true false s₁).1 with
    | error f => simp [hh] at h
    | ok host =>
      cases hp : port (hostText true false s₁).2 with
      | error f => simp [hh, hp] at h
      | ok r =>
        simp only [hh, hp, Except.ok.injEq, Prod.mk.injEq] at h
        obtain ⟨rfl, -⟩ := h
        exact ⟨(unmarked_of_userinfo hu).1, (unmarked_of_userinfo hu).2,
          Host.unmarked_chars_of_read hh⟩

/-- The segments of a resolved path are among those that there were, or empty. -/
theorem mem_resolve {done segments : List (List Char)} {p : List Char}
    (h : p ∈ resolve done segments) : p = [] ∨ p ∈ done ∨ p ∈ segments := by
  have hleave {done : List (List Char)} (h : p ∈ leave done) : p ∈ done := by
    unfold leave at h
    split at h
    · exact h
    · split_ifs at h
      · exact h
      · exact List.mem_cons_of_mem _ h
  fun_induction resolve done segments with
  | case1 done => exact .inr (.inl (List.mem_reverse.mp h))
  | case2 done segment _ =>
    rcases List.mem_cons.mp (List.mem_reverse.mp h) with rfl | h
    · exact .inl rfl
    · exact .inr (.inl (hleave h))
  | case3 done segment _ _ =>
    rcases List.mem_cons.mp (List.mem_reverse.mp h) with rfl | h
    · exact .inl rfl
    · exact .inr (.inl h)
  | case4 done segment _ _ =>
    rcases List.mem_cons.mp (List.mem_reverse.mp h) with rfl | h
    · exact .inr (.inr List.mem_cons_self)
    · exact .inr (.inl h)
  | case5 done segment rest _ _ ih =>
    rcases ih h with h | h | h
    · exact .inl h
    · exact .inr (.inl (hleave h))
    · exact .inr (.inr (List.mem_cons_of_mem _ h))
  | case6 done segment rest _ _ _ ih =>
    rcases ih h with h | h | h
    · exact .inl h
    · exact .inr (.inl h)
    · exact .inr (.inr (List.mem_cons_of_mem _ h))
  | case7 done segment rest _ _ _ ih =>
    rcases ih h with h | h | h
    · exact .inl h
    · rcases List.mem_cons.mp h with rfl | h
      · exact .inr (.inr List.mem_cons_self)
      · exact .inr (.inl h)
    · exact .inr (.inr (List.mem_cons_of_mem _ h))

theorem unmarked_path (s : List Char) : Unmarked ((path s).flatMap ('/' :: ·)) := by
  intro c hc
  obtain ⟨p, hp, hc⟩ := List.mem_flatMap.mp hc
  rcases List.mem_cons.mp hc with rfl | hc
  · rfl
  · rcases mem_resolve hp with rfl | hp | hp
    · cases hc
    · cases hp
    · obtain ⟨q, -, rfl⟩ := List.mem_map.mp hp
      exact unmarked_encode rfl rfl q c hc

theorem clean_endpoint {secure : Bool} {a : Authority} (s : List Char)
    (h : Unmarked a.username ∧ Unmarked a.password ∧ Unmarked a.host.chars) :
    Clean (endpoint secure a s) := by
  obtain ⟨hname, hpassword, hhost⟩ := h
  constructor
  · have hscheme : Unmarked (endpoint secure a s).scheme := by
      unfold Url.scheme
      split_ifs <;> simp [isMark]
    have hslashes : Unmarked "://".toList := by simp [isMark]
    have huser : Unmarked (endpoint secure a s).userinfo := by
      unfold Url.userinfo
      split_ifs <;> simp [endpoint, hname, hpassword, isMark]
    have hport (p : Option Nat) : Unmarked (p.elim [] fun p => ':' :: Nat.toDigits 10 p) := by
      cases p with
      | none => exact unmarked_nil
      | some p => exact unmarked_cons.mpr ⟨rfl, unmarked_toDigits (by decide) (by decide) p⟩
    simp only [front, unmarked_append]
    exact ⟨⟨⟨⟨⟨hscheme, hslashes⟩, huser⟩, hhost⟩, hport _⟩, unmarked_path _⟩
  · intro q hq hmem
    simp only [endpoint, Option.mem_def] at hq
    split at hq
    · cases hq
      rcases Percent.mem_encode hmem with h | h <;> cases h
    · cases hq

end Reader

theorem clean_of_readBy {text : String} {u : Url}
    (h : Url.readBy naming text = .ok (.endpoint u)) : u.Clean := by
  unfold Url.readBy at h
  split at h
  · cases h
  · next scheme s hs =>
    extract_lets name at h
    split_ifs at h
    · cases ha : Reader.authority naming (s.dropWhile Reader.isSlash) with
      | error f => simp [ha, bind, Except.bind] at h
      | ok r =>
        simp only [ha, bind, Except.bind, Except.ok.injEq, Location.endpoint.injEq] at h
        subst h
        exact Reader.clean_endpoint _ (Reader.authority_eq_ok ha)
    · cases ha : Reader.authority naming (s.dropWhile Reader.isSlash) <;>
        simp [ha, bind, Except.bind] at h
    · cases ha : Reader.fileHost naming s <;> simp [ha, bind, Except.bind] at h
    · split at h
      · next s' =>
        cases ha : Reader.opaqueAuthority s' <;> simp [ha, bind, Except.bind] at h
      · cases h

theorem Clean.withPair {u : Url} (h : u.Clean) (name value : String) :
    (u.withPair name value).Clean where
  front := h.front
  query := by
    intro q hq hmem
    obtain rfl : Form.append (u.query.getD []) name value = q := by simpa [Url.withPair] using hq
    have hpair : '#' ∉ Form.pair name value := fun hm =>
      Form.ne_of_mem_pair name value rfl (by decide) hm rfl
    have hquery : '#' ∉ u.query.getD [] := by
      cases hu : u.query with
      | none => simp
      | some q => exact h.query q hu
    unfold Form.append at hmem
    split_ifs at hmem
    · exact hpair hmem
    · simp [hpair, hquery] at hmem

/-! ### The text and its parts -/

/-- What stands behind the first `d` of a text, if there is one. -/
def after? (d : Char) (s : List Char) : Option (List Char) :=
  match s.dropWhile (· ≠ d) with
  | [] => none
  | _ :: rest => some rest

/-- What is put behind a sign that does not stand before it is cut off there. -/
theorem cut_append {d : Char} {s : List Char} (h : d ∉ s) (rest : Option (List Char)) :
    (s ++ rest.elim [] (d :: ·)).takeWhile (· ≠ d) = s ∧
      after? d (s ++ rest.elim [] (d :: ·)) = rest := by
  have hs : ∀ c ∈ s, decide (c ≠ d) = true := by
    intro c hc
    rw [decide_eq_true_eq]
    rintro rfl
    exact h hc
  constructor
  · rw [List.takeWhile_append_of_pos hs]
    cases rest <;> simp
  · rw [after?, List.dropWhile_append_of_pos hs]
    cases rest <;> simp

/-- The text of a URL in three parts. -/
structure Parts where
  /-- Scheme, authority and path. -/
  front : List Char
  query : Option (List Char)
  fragment : Option (List Char)
  deriving DecidableEq

/-- Cuts a text at its first number sign, and what stands before that at its first question
mark. -/
def Parts.read (s : List Char) : Parts :=
  let body := s.takeWhile (· ≠ '#')
  ⟨body.takeWhile (· ≠ '?'), after? '?' body, after? '#' s⟩

/-- The parts of a clean URL are cut where it puts them together. -/
theorem Clean.parts {u : Url} (h : u.Clean) :
    Parts.read u.text.toList = ⟨u.front, u.query, u.fragment⟩ := by
  have hfront (d : Char) (hd : isMark d = true) : d ∉ u.front := by
    intro hm
    rw [h.front d hm] at hd
    cases hd
  have hbody : '#' ∉ u.front ++ u.query.elim [] ('?' :: ·) := by
    intro hm
    rcases List.mem_append.mp hm with hm | hm
    · exact hfront '#' rfl hm
    · cases hq : u.query with
      | none => simp [hq] at hm
      | some q =>
        have hmem : '#' ∈ q := by simpa [hq] using hm
        exact h.query q hq hmem
  have htext : u.text.toList =
      (u.front ++ u.query.elim [] ('?' :: ·)) ++ u.fragment.elim [] ('#' :: ·) := by
    rw [text, String.toList_ofList]
    rfl
  obtain ⟨htake, hfragment⟩ := cut_append hbody u.fragment
  obtain ⟨hhead, hquery⟩ := cut_append (hfront '?' rfl) u.query
  simp only [Parts.read, htext, htake, hfragment, hhead, hquery]

/-- A pair that is put behind the query of a URL is read off its text as the last one, and the
rest of the text stays as it was. -/
theorem Clean.parts_withPair {u : Url} (h : u.Clean) (name value : String) :
    Parts.read (u.withPair name value).text.toList =
      { Parts.read u.text.toList with
        query := some (Form.append ((Parts.read u.text.toList).query.getD []) name value) } := by
  rw [(h.withPair name value).parts, h.parts]
  rfl

end TwinLink.Url
