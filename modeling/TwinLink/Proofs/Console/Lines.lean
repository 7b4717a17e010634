import TwinLink.Console
import TwinLink.Proofs.Command.Codec
import TwinLink.Proofs.Text.Blank

/-! The lines that the console accepts. A line that begins with a brace is a command as a JSON
object; any other is a phrase, which is a list of words. The spaces between and around the words
do not count, and no phrase is the beginning of another one. -/

namespace TwinLink

namespace Text

variable {word s bs : List Char}

theorem wordsFrom_blanks (hbs : ∀ c ∈ bs, isBlank c = true) :
    wordsFrom [] (bs ++ s) = wordsFrom [] s := by
  induction bs with
  | nil => rfl
  | cons c bs ih =>
    rw [List.forall_mem_cons] at hbs
    rw [List.cons_append, wordsFrom, if_pos hbs.1, List.isEmpty_nil, if_pos rfl, ih hbs.2]

/-- Blanks at the end close the last word as the end itself does. -/
theorem wordsFrom_append_blanks (hbs : ∀ c ∈ bs, isBlank c = true) :
    wordsFrom word (s ++ bs) = wordsFrom word s := by
  induction s generalizing word with
  | nil =>
    cases bs with
    | nil => rfl
    | cons c bs =>
      rw [List.forall_mem_cons] at hbs
      have hrest : wordsFrom [] bs = [] := by
        simpa [wordsFrom] using @wordsFrom_blanks [] bs hbs.2
      simp only [List.nil_append, wordsFrom, hbs.1, if_true, hrest]
  | cons c s ih => simp only [List.cons_append, wordsFrom, ih]

theorem wordsFrom_eq_nil (h : wordsFrom word s = []) :
    word = [] ∧ ∀ c ∈ s, isBlank c = true := by
  induction s generalizing word with
  | nil =>
    rw [wordsFrom] at h
    split at h
    · next hword => exact ⟨List.isEmpty_iff.mp hword, by simp⟩
    · cases h
  | cons c s ih =>
    rw [wordsFrom] at h
    split at h
    · next hc =>
      split at h
      · next hword => exact ⟨List.isEmpty_iff.mp hword, List.forall_mem_cons.mpr ⟨hc, (ih h).2⟩⟩
      · cases h
    · cases (ih h).1

/-- A line without words is blank. -/
theorem trim_eq_empty {line : String} (h : words line = []) : trim line = "" := by
  have hblank := (wordsFrom_eq_nil (List.map_eq_nil_iff.mp h)).2
  have hdrop : line.toList.dropWhile isBlank = [] := List.dropWhile_eq_nil_iff.mpr hblank
  rw [trim, trimChars, hdrop]
  rfl

theorem words_trim (line : String) : words (trim line) = words line := by
  obtain ⟨before, after, hsplit, hbefore, hafter⟩ := exists_trim line
  rw [words, words, hsplit, wordsFrom_append_blanks hafter, wordsFrom_blanks hbefore]

end Text

namespace Console

open Json (Piece Document)
open Decimal (Double)
open Text (lowerAscii)

/-- The phrases and what they ask for. The letters of the first word and of the tax type may be of
any case; a rate is a finite number. -/
inductive Phrase : List String → Input → Prop
  | pause {w : String} (h : lowerAscii w = "pause") : Phrase [w] (.send .pause)
  | resume {w : String} (h : lowerAscii w = "resume") : Phrase [w] (.send .resume)
  | step {w : String} (h : lowerAscii w = "step") : Phrase [w] (.send .step)
  | rate {w r : String} {x : Double} (h : lowerAscii w = "rate")
      (hr : Decimal.Reading.read r = some x) (hx : x.isFinite = true) :
      Phrase [w, r] (.send (.setBaseRate x))
  | tax {w k r : String} {t : TaxType} {x : Double} (h : lowerAscii w = "tax")
      (hk : lowerAscii k = t.name) (hr : Decimal.Reading.read r = some x)
      (hx : x.isFinite = true) : Phrase [w, k, r] (.send (.setTaxRate t x))
  | stats {w : String} (h : lowerAscii w = "stats") : Phrase [w] .stats
  | help {w : String} (h : lowerAscii w = "help" ∨ lowerAscii w = "?") : Phrase [w] .help
  | quit {w : String} (h : lowerAscii w = "quit" ∨ lowerAscii w = "exit") : Phrase [w] .quit

variable {line : String} {words rest : List String} {input : Input} {c : Command}

theorem rate_eq_ok {x : Double} : rate words = .ok (x, rest) ↔
    ∃ r, words = r :: rest ∧ Decimal.Reading.read r = some x ∧ x.isFinite = true := by
  unfold rate
  constructor
  · intro h
    split at h
    · cases h
    · next r words =>
      split at h
      · next y hy =>
        split at h
        · next hfinite =>
          cases h
          exact ⟨r, rfl, hy, hfinite⟩
        · cases h
      · cases h
  · rintro ⟨r, rfl, hr, hx⟩
    simp only [hr, hx, if_true]

theorem taxType_eq_ok {k : String} {t : TaxType} :
    taxType k = .ok t ↔ lowerAscii k = t.name := by
  unfold taxType
  constructor
  · intro h
    split at h
    · next t' ht =>
      cases h
      unfold TaxType.ofName? at ht
      split at ht
      · next hk =>
        cases ht
        exact hk
      · split at ht
        · next hk =>
          cases ht
          exact hk
        · cases ht
    · cases h
  · intro h
    rw [h, TaxType.ofName?_name]

theorem phrase_of_verb {w : String} (h : verb (lowerAscii w) words = .ok (input, [])) :
    Phrase (w :: words) input := by
  unfold verb at h
  split at h
  · next hw =>
    cases h
    exact .pause hw
  · next hw =>
    cases h
    exact .resume hw
  · next hw =>
    cases h
    exact .step hw
  · next hw =>
    obtain ⟨⟨x, rest⟩, hr, h⟩ := Json.bind_eq_ok.mp h
    cases h
    obtain ⟨r, rfl, hread, hx⟩ := rate_eq_ok.mp hr
    exact .rate hw hread hx
  · next hw =>
    split at h
    · cases h
    · next k words =>
      simp only [Json.bind_eq_ok, Prod.exists] at h
      obtain ⟨t, hk, x, rest, hr, h⟩ := h
      cases h
      obtain ⟨r, rfl, hread, hx⟩ := rate_eq_ok.mp hr
      exact .tax hw (taxType_eq_ok.mp hk) hread hx
  · next hw =>
    cases h
    exact .stats hw
  · next hw =>
    cases h
    exact .help (.inl hw)
  · next hw =>
    cases h
    exact .help (.inr hw)
  · next hw =>
    cases h
    exact .quit (.inl hw)
  · next hw =>
    cases h
    exact .quit (.inr hw)
  · cases h

theorem verb_of_phrase {w : String} (h : Phrase (w :: words) input) :
    verb (lowerAscii w) words = .ok (input, []) := by
  cases h with
  | pause h => rw [h]; rfl
  | resume h => rw [h]; rfl
  | step h => rw [h]; rfl
  | @rate _ r x h hr hx =>
    have hrate : rate [r] = .ok (x, []) := rate_eq_ok.mpr ⟨r, rfl, hr, hx⟩
    rw [h]
    exact Json.bind_eq_ok.mpr ⟨_, hrate, rfl⟩
  | @tax _ k r t x h hk hr hx =>
    have hrate : rate [r] = .ok (x, []) := rate_eq_ok.mpr ⟨r, rfl, hr, hx⟩
    rw [h]
    exact Json.bind_eq_ok.mpr ⟨_, taxType_eq_ok.mpr hk, Json.bind_eq_ok.mpr ⟨_, hrate, rfl⟩⟩
  | stats h => rw [h]; rfl
  | help h => rcases h with h | h <;> (rw [h]; rfl)
  | quit h => rcases h with h | h <;> (rw [h]; rfl)

/-- A word left over makes a line fail, and so does a word too few. -/
theorem ofWords_eq_ok (hwords : words ≠ []) : ofWords words = .ok input ↔ Phrase words input := by
  obtain ⟨w, words, rfl⟩ := List.exists_cons_of_ne_nil hwords
  constructor
  · intro h
    rw [ofWords] at h
    split at h
    · cases h
    · next hverb =>
      cases h
      exact phrase_of_verb hverb
    · cases h
  · intro h
    simp only [ofWords, verb_of_phrase h]

/-- Whether a line is a command as a JSON object. -/
def IsRaw (line : String) : Prop := ∃ u, (Text.trim line).toList = '{' :: u

theorem parse_of_not_raw (h : ¬IsRaw line) : parse line = ofWords (Text.words line) := by
  unfold parse
  dsimp only
  split
  · next hnil =>
    rw [← Text.words_trim, Text.words, hnil]
    rfl
  · next u hu => exact absurd ⟨u, hu⟩ h
  · rw [Text.words_trim]

/-- An object is sent if it is a command of a type. -/
theorem parse_of_raw (h : IsRaw line) : parse line = .ok input ↔ ∃ c ms, input = .send c ∧
    (Document.object ms).Fills (Text.trim line) ∧ Command.Spelled ms c ∧ c.type ≠ "" := by
  obtain ⟨u, hu⟩ := h
  have hbrace : Json.skipBlanks (Text.trim line).toList = '{' :: u := by
    rw [hu]
    exact Json.skipBlanks_cons (by decide)
  have hparse : parse line = ofObject (Text.trim line) := by
    simp only [parse, hu]
  rw [hparse]
  constructor
  · intro h
    unfold ofObject at h
    split at h
    · cases h
    · next c hc =>
      split at h
      · cases h
      · next hempty =>
        cases h
        obtain ⟨ms, hms, hspelled⟩ := (Command.decode_brace hbrace).mp hc
        exact ⟨c, ms, rfl, hms, hspelled, by simpa using hempty⟩
  · rintro ⟨c, ms, rfl, hms, hspelled, hne⟩
    have hc := (Command.decode_brace hbrace).mpr ⟨ms, hms, hspelled⟩
    simp only [ofObject, hc, String.isEmpty_iff, hne, if_false]

/-- The grammar of lines. What is under the known names of an object, and every name, has to be
within the limits of the reader; other members may hold anything. -/
theorem parse_grammar (line : String) :
    (Text.trim line = "" → parse line = .ok .empty) ∧
    (IsRaw line → ∀ input, parse line = .ok input ↔ ∃ c ms, input = .send c ∧
      (Document.object ms).Fills (Text.trim line) ∧ Command.Spelled ms c ∧ c.type ≠ "") ∧
    (Text.trim line ≠ "" → ¬IsRaw line → ∀ input,
      parse line = .ok input ↔ Phrase (Text.words line) input) ∧
    ((∀ input, parse line ≠ .ok input) → ∃ fault detail, parse line = .error fault ∧
      fault.error = .invalidCommand detail) ∧
    (∀ other, ¬IsRaw line → ¬IsRaw other → Text.words other = Text.words line →
      parse other = parse line) := by
  refine ⟨fun h => ?_, fun h input => parse_of_raw h, fun h hraw input => ?_, fun h => ?_,
    fun other hraw hraw' hwords => ?_⟩
  · simp only [parse, h]
    rfl
  · rw [parse_of_not_raw hraw]
    exact ofWords_eq_ok fun hnil => h (Text.trim_eq_empty hnil)
  · cases hp : parse line with
    | ok input => exact absurd hp (h input)
    | error fault => exact ⟨fault, fault.detail, rfl, rfl⟩
  · rw [parse_of_not_raw hraw, parse_of_not_raw hraw', hwords]

section Lines

def rawLine : String := "\x7b\"other\": 1e999, \"type\": \"STEP\"\x7d"

theorem not_isRaw_step : ¬IsRaw "STEP" := by
  rintro ⟨u, hu⟩
  cases hu

theorem not_isRaw_spaced : ¬IsRaw "\tSTEP " := by
  rintro ⟨u, hu⟩
  cases hu

theorem not_isRaw_twice : ¬IsRaw "step step" := by
  rintro ⟨u, hu⟩
  cases hu

theorem parse_grammar_step :
    parse " " = .ok .empty ∧
    (∃ c ms, Input.send .step = .send c ∧ (Document.object ms).Fills (Text.trim rawLine) ∧
      Command.Spelled ms c ∧ c.type ≠ "") ∧
    parse "STEP" = .ok (.send .step) ∧ parse "\tSTEP " = parse "STEP" ∧
    ∃ fault detail, parse "step step" = .error fault ∧ fault.error = .invalidCommand detail := by
  have hphrase : Phrase (Text.words "STEP") (.send .step) := .step rfl
  refine ⟨(parse_grammar " ").1 rfl, ?_, ?_, ?_, ?_⟩
  · exact ((parse_grammar rawLine).2.1 ⟨_, rfl⟩ (.send .step)).mp rfl
  · exact ((parse_grammar "STEP").2.2.1 (by decide) not_isRaw_step _).mpr hphrase
  · exact (parse_grammar "STEP").2.2.2.2 "\tSTEP " not_isRaw_step not_isRaw_spaced rfl
  · refine (parse_grammar "step step").2.2.2.1 fun input h => ?_
    have htwice := ((parse_grammar "step step").2.2.1 (by decide) not_isRaw_twice input).mp h
    have hwords : Text.words "step step" = ["step", "step"] := by decide
    rw [hwords] at htwice
    cases htwice with
    | rate hrate => exact absurd hrate (by decide)

end Lines

section Sent

variable {t : String}

/-- A raw line with a payload that is no object. -/
def HasLoosePayload (line : String) : Prop := IsRaw line ∧ ∃ ms e,
  (Document.object ms).Fills (Text.trim line) ∧ Document.under "payload" ms = [e] ∧
    ∀ qs, e ≠ .object qs

theorem payload_of_phrase (h : Phrase words (.send c)) :
    c.type ≠ "" ∧ ∃ members, c.payload = .object members := by
  cases h <;> refine ⟨?_, _, rfl⟩ <;>
    simp [Command.pause, Command.resume, Command.step, Command.setBaseRate, Command.setTaxRate]

theorem payload_of_raw {ms : List (List Piece × Document)}
    (hms : (Document.object ms).Fills (Text.trim line)) (h : Command.Spelled ms c)
    (hraw : IsRaw line) : (∃ members, c.payload = .object members) ↔ ¬HasLoosePayload line := by
  have hloose : HasLoosePayload line ↔
      ∃ e, Document.under "payload" ms = [e] ∧ ∀ qs, e ≠ .object qs := by
    constructor
    · rintro ⟨-, ms', e, hms', he, hne⟩
      cases hms.unique hms'
      exact ⟨e, he, hne⟩
    · rintro ⟨e, he, hne⟩
      exact ⟨hraw, ms, e, hms, he, hne⟩
  rw [hloose]
  rcases h.payload with ⟨hnil, hempty⟩ | ⟨e, he, hv⟩
  · refine iff_of_true ⟨[], hempty⟩ ?_
    rintro ⟨e, he, -⟩
    rw [hnil] at he
    cases he
  · rw [(Document.sameKind_of_value? hv).object]
    constructor
    · rintro ⟨qs, rfl⟩ ⟨e', he', hne⟩
      rw [he] at he'
      cases he'
      exact hne qs rfl
    · intro hnone
      by_contra hobject
      exact hnone ⟨e, he, fun qs hqs => hobject ⟨qs, hqs⟩⟩

theorem payload_of_parse (h : parse line = .ok (.send c)) :
    c.type ≠ "" ∧ ((∃ members, c.payload = .object members) ↔ ¬HasLoosePayload line) := by
  by_cases hraw : IsRaw line
  · obtain ⟨c', ms, heq, hms, hspelled, hne⟩ := (parse_of_raw hraw).mp h
    cases heq
    exact ⟨hne, payload_of_raw hms hspelled hraw⟩
  · rw [parse_of_not_raw hraw] at h
    by_cases hwords : Text.words line = []
    · rw [hwords] at h
      cases h
    · obtain ⟨hne, hobject⟩ := payload_of_phrase ((ofWords_eq_ok hwords).mp h)
      exact ⟨hne, iff_of_true hobject fun hloose => hraw hloose.1⟩

/-- What the console sends is an object with a type that is not empty and with a payload, in this
order. The payload is an object unless the line gives another one. -/
theorem sent_text (h : parse line = .ok (.send c)) (ht : c.encode = .ok t) : ∃ ns us ps d,
    (Document.object [(ns, .string us), (ps, d)]).Fills t ∧
    Json.Quoted.text? ns = some "type" ∧ Json.Quoted.text? us = some c.type ∧ c.type ≠ "" ∧
    Json.Quoted.text? ps = some "payload" ∧ ((∃ qs, d = .object qs) ↔ ¬HasLoosePayload line) := by
  obtain ⟨hne, hobject⟩ := payload_of_parse h
  obtain ⟨ns, us, ps, d, hwritten⟩ := Command.exists_written c
  rw [Command.encode_eq_ok ht]
  exact ⟨ns, us, ps, d, hwritten.fills, hwritten.typeName, hwritten.type, hne,
    hwritten.payloadName, hwritten.payload.object.trans hobject⟩

def loose : Command := ⟨"PAUSE", .number (.integer 5)⟩

def looseLine : String := "\x7b\"type\":\"PAUSE\",\"payload\":5\x7d"

theorem sent_text_pause :
    parse looseLine = .ok (.send loose) ∧ loose.encode = .ok looseLine ∧ ∃ ns us ps d,
      (Document.object [(ns, .string us), (ps, d)]).Fills looseLine ∧
      Json.Quoted.text? ns = some "type" ∧ Json.Quoted.text? us = some "PAUSE" ∧
      loose.type ≠ "" ∧ Json.Quoted.text? ps = some "payload" ∧
      ((∃ qs, d = .object qs) ↔ ¬HasLoosePayload looseLine) :=
  ⟨rfl, rfl, @sent_text looseLine loose looseLine rfl rfl⟩

/-- A payload is not always an object. -/
theorem loose_sent : ¬∀ line c t, parse line = .ok (.send c) → c.encode = .ok t →
    ∃ ns us ps ms, (Document.object [(ns, .string us), (ps, .object ms)]).Fills t ∧
      Json.Quoted.text? ns = some "type" ∧ (∃ x, Json.Quoted.text? us = some x ∧ x ≠ "") ∧
      Json.Quoted.text? ps = some "payload" := by
  intro h
  obtain ⟨ns, us, ps, ms, hfills, -⟩ := h looseLine loose looseLine rfl rfl
  obtain ⟨ns', us', ps', d, hwritten⟩ := Command.exists_written loose
  have heq := hfills.unique hwritten.fills
  simp only [Document.object.injEq, List.cons.injEq, Prod.mk.injEq] at heq
  obtain ⟨members, hmembers⟩ := hwritten.payload.object.mp ⟨ms, heq.2.1.2.symm⟩
  cases hmembers

end Sent

end Console

end TwinLink
