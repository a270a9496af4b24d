import Reckoner.Calculator.Record
import Reckoner.Proofs.Postfix.Verdict

namespace Reckoner

/-!
# Which texts are the tokens of a statement

A description of the tokens that does not say how they are found: written one after the other they
are the statement without its blanks, each is a stretch of digits and points or a symbol that stands
alone, and no two stretches are neighbours.  Lexing succeeds on statements without foreign symbols,
gives texts of this description, and there are no others.

* `Statement.IsTokenization s texts`: the description.
* `Statement.tokenize_text_iff`: lexing gives the texts that fit it.
* `Statement.IsTokenization.unique`: only one list of texts fits.
* `Postfix.convert_eq_of_compact`: blanks make no difference to a conversion.
* `tokenize_characterized`: all of this, down to the result that is shown.
-/

namespace Statement

/-- A stretch of digits and points, at least one. -/
def IsRun (text : String) : Prop := text.toList ≠ [] ∧ ∀ c ∈ text.toList, isLiteralChar c = true

/-- A bracket or the sign of an operator by itself. -/
def StandsAlone (text : String) : Prop := text ∈ ["(", ")", "+", "-", "*", "/"]

/-- The texts are the tokens of a statement. -/
structure IsTokenization (s : String) (texts : List String) : Prop where
  /-- Nothing is lost but the blanks. -/
  joined : texts.flatMap String.toList = Text.compact s.toList
  tokens : ∀ text ∈ texts, IsRun text ∨ StandsAlone text
  separated : texts.IsChain fun a b => ¬ (IsRun a ∧ IsRun b)

/-! ### Texts of lexemes -/

/-- The text of a lexeme has its characters. -/
theorem toList_text (l : Lexeme) : l.text.toList = l.chars := String.toList_ofList

/-- Only a literal is written as a stretch of digits and points. -/
theorem isRun_text_iff {l : Lexeme} (h : l.IsProper) : IsRun l.text ↔ l.isLiteral = true := by
  unfold IsRun
  rw [toList_text]
  cases hl : l.isLiteral with
  | false =>
    obtain ⟨c, hc, hnot⟩ := chars_of_not_literal hl
    simp [hc, hnot]
  | true =>
    cases l with
    | literal text => exact iff_of_true h rfl
    | operator o => cases hl
    | opening => cases hl
    | closing => cases hl

/-- Any other lexeme is written as a symbol that stands alone. -/
theorem standsAlone_text {l : Lexeme} (h : l.isLiteral = false) : StandsAlone l.text := by
  unfold StandsAlone
  cases l with
  | literal text => cases h
  | operator o => cases o <;> decide
  | opening => decide
  | closing => decide

/-- A text is the one of its lexeme. -/
theorem text_ofPiece (text : String) : (ofPiece text.toList).text = text := by
  rw [Lexeme.text, chars_ofPiece, String.ofList_toList]

/-- The lexeme of a token is proper. -/
theorem isProper_ofPiece {text : String} (h : IsRun text ∨ StandsAlone text) :
    (ofPiece text.toList).IsProper := by
  rcases h with hrun | halone
  · have hliteral : ofPiece text.toList = .literal text := ofPiece_chars (l := .literal text) hrun
    rw [hliteral]
    exact hrun
  · have hall : ∀ symbol ∈ ["(", ")", "+", "-", "*", "/"],
        (ofPiece symbol.toList).isLiteral = false := by decide
    have hsymbol := hall text halone
    generalize ofPiece text.toList = l at hsymbol
    cases l with
    | literal _ => cases hsymbol
    | operator _ => trivial
    | opening => trivial
    | closing => trivial

/-! ### Lexing and the description -/

/-- The texts that lexing gives fit the description. -/
theorem isTokenization_of_tokenize {s : String} {ls : List Lexeme}
    (h : tokenize (some s) = .ok ls) : IsTokenization s (ls.map Lexeme.text) := by
  have hproper := isProper_of_tokenize h
  refine ⟨?_, ?_, ?_⟩
  · rw [spells_of_tokenize h, List.flatMap_map]
    exact List.flatMap_congr fun l _ => toList_text l
  · intro text htext
    obtain ⟨l, hl, rfl⟩ := List.mem_map.1 htext
    cases hliteral : l.isLiteral with
    | false => exact .inr (standsAlone_text hliteral)
    | true => exact .inl ((isRun_text_iff (hproper l hl)).2 hliteral)
  · rw [List.isChain_map]
    refine (separated_of_tokenize h).imp_of_mem_imp ?_
    rintro a b ha hb hab ⟨hrun, hrun'⟩
    exact hab ⟨(isRun_text_iff (hproper a ha)).1 hrun, (isRun_text_iff (hproper b hb)).1 hrun'⟩

/-- What fits the description is what lexing gives. -/
theorem tokenize_of_isTokenization {s : String} {texts : List String}
    (h : IsTokenization s texts) :
    tokenize (some s) = .ok (texts.map fun text => ofPiece text.toList) := by
  have hproper : ∀ l ∈ texts.map fun text => ofPiece text.toList, l.IsProper := by
    intro l hl
    obtain ⟨text, htext, rfl⟩ := List.mem_map.1 hl
    exact isProper_ofPiece (h.tokens text htext)
  have hseparated : Lexeme.Separated (texts.map fun text => ofPiece text.toList) := by
    rw [Lexeme.Separated, List.isChain_map]
    refine h.separated.imp_of_mem_imp ?_
    rintro a b ha hb hab ⟨hliteral, hliteral'⟩
    have hrun := (isRun_text_iff (isProper_ofPiece (h.tokens a ha))).2 hliteral
    have hrun' := (isRun_text_iff (isProper_ofPiece (h.tokens b hb))).2 hliteral'
    rw [text_ofPiece] at hrun hrun'
    exact hab ⟨hrun, hrun'⟩
  have hspells : Spells s (texts.map fun text => ofPiece text.toList) := by
    rw [Spells, ← h.joined, List.flatMap_map]
    exact List.flatMap_congr fun text _ => (chars_ofPiece text.toList).symm
  exact tokenize_of_spells hproper hseparated hspells

/-- **Lexing gives the texts that fit the description.** -/
theorem tokenize_text_iff {s : String} {texts : List String} :
    (∃ ls, tokenize (some s) = .ok ls ∧ ls.map Lexeme.text = texts) ↔ IsTokenization s texts := by
  constructor
  · rintro ⟨ls, hls, rfl⟩
    exact isTokenization_of_tokenize hls
  · intro h
    refine ⟨_, tokenize_of_isTokenization h, ?_⟩
    rw [List.map_map]
    calc texts.map (Lexeme.text ∘ fun text => ofPiece text.toList)
        = texts.map id := List.map_congr_left fun text _ => text_ofPiece text
      _ = texts := List.map_id texts

/-- **Only one list of texts fits.** -/
theorem IsTokenization.unique {s : String} {texts texts' : List String}
    (h : IsTokenization s texts) (h' : IsTokenization s texts') : texts = texts' := by
  obtain ⟨ls, hls, rfl⟩ := tokenize_text_iff.2 h
  obtain ⟨ls', hls', rfl⟩ := tokenize_text_iff.2 h'
  rw [hls] at hls'
  cases hls'
  rfl

/-- Lexing succeeds on statements without foreign symbols. -/
theorem tokenize_isOk_iff (s : String) :
    (∃ ls, tokenize (some s) = .ok ls) ↔
      ∀ c ∈ s.toList, Text.isBlank c = false → c ∈ symbols := by
  have hcorrect : isCorrect (Text.compact s.toList) = true ↔
      ∀ c ∈ s.toList, Text.isBlank c = false → c ∈ symbols := by
    simp [isCorrect_compact]
  rw [← hcorrect]
  constructor
  · rintro ⟨ls, hls⟩
    exact (tokenize_eq_ok hls).1
  · intro h
    exact ⟨_, if_pos h⟩

end Statement

/-! ### Blanks -/

open Statement

variable {s t : String}

namespace Postfix

/-- **Blanks make no difference to a conversion,** but for the statement that is named if it holds
    foreign symbols. -/
theorem convert_eq_of_compact (h : Text.compact s.toList = Text.compact t.toList) :
    convert (some s) = convert (some t) ∨
      convert (some s) = .error (.invalidSymbols s) ∧
        convert (some t) = .error (.invalidSymbols t) := by
  unfold convert tokenize
  simp only [h]
  cases isCorrect (Text.compact t.toList) with
  | false => exact .inr ⟨rfl, rfl⟩
  | true => exact .inl rfl

end Postfix

/-- Statements that are converted alike have the same value and the same outcome. -/
theorem outcome_congr (h : Postfix.convert (some s) = Postfix.convert (some t)) :
    value (some s) = value (some t) ∧
      ∀ p, (calculate p (some s)).outcome = (calculate p (some t)).outcome := by
  have hvalue : value (some s) = value (some t) := by simp only [value, h]
  refine ⟨hvalue, fun p => ?_⟩
  simp only [calculate, hvalue]

/-- A statement that cannot be converted has neither value nor text. -/
theorem record_of_convert_error {e : Statement.Error} (h : Postfix.convert (some s) = .error e)
    (p : Precision) :
    (calculate p (some s)).record.value = none ∧ (calculate p (some s)).formatted? = none := by
  simp [calculate, value, h, Calculation.record, Calculation.formatted?]

/-- **The tokens of a statement.**  Lexing succeeds exactly if every character is a blank or a symbol
    of statements.  It then gives the one list of texts that, written one after the other, are the
    statement without its blanks, of which each is a stretch of digits and points or a symbol that
    stands alone, and no two stretches are neighbours; whatever list has these properties, however
    blanks are put in, is given back.  So two statements that differ in blanks only have the same
    tokens, conversion, value and shown result; even a reason for which there is none is the same,
    unless there are foreign symbols. -/
theorem tokenize_characterized (s : String) :
    ((∃ ls, tokenize (some s) = .ok ls) ↔
      ∀ c ∈ s.toList, Text.isBlank c = false → c ∈ symbols) ∧
    (∀ texts, (∃ ls, tokenize (some s) = .ok ls ∧ ls.map Lexeme.text = texts) ↔
      IsTokenization s texts) ∧
    (∀ texts texts', IsTokenization s texts → IsTokenization s texts' → texts = texts') ∧
    ∀ t, Text.compact s.toList = Text.compact t.toList →
      (∀ ls, tokenize (some s) = .ok ls → tokenize (some t) = .ok ls ∧
        Postfix.convert (some s) = Postfix.convert (some t) ∧ value (some s) = value (some t) ∧
        ∀ p, (calculate p (some s)).outcome = (calculate p (some t)).outcome) ∧
      (∀ tokens, Postfix.convert (some s) = .ok tokens ↔ Postfix.convert (some t) = .ok tokens) ∧
      ∀ p, (calculate p (some s)).record.value = (calculate p (some t)).record.value ∧
        (calculate p (some s)).formatted? = (calculate p (some t)).formatted? := by
  refine ⟨tokenize_isOk_iff s, fun texts => tokenize_text_iff, fun _ _ h h' => h.unique h', ?_⟩
  intro t hcompact
  refine ⟨?_, ?_, ?_⟩
  · intro ls hls
    -- The lexemes spell the other statement too, so they are the ones that lexing finds there.
    have hspells : Spells t ls := by
      rw [Spells, ← hcompact]
      exact spells_of_tokenize hls
    have htokens : tokenize (some t) = .ok ls :=
      tokenize_of_spells (isProper_of_tokenize hls) (separated_of_tokenize hls) hspells
    have hconvert : Postfix.convert (some s) = Postfix.convert (some t) := by
      simp only [Postfix.convert, hls, htokens]
    exact ⟨htokens, hconvert, outcome_congr hconvert⟩
  · intro tokens
    rcases Postfix.convert_eq_of_compact hcompact with heq | ⟨hs, ht⟩
    · rw [heq]
    · rw [hs, ht]
      simp
  · intro p
    rcases Postfix.convert_eq_of_compact hcompact with heq | ⟨hs, ht⟩
    · have houtcome := (outcome_congr heq).2 p
      simp only [Calculation.record, Calculation.formatted?, houtcome]
      cases (calculate p (some t)).outcome <;> simp
    · rw [(record_of_convert_error hs p).1, (record_of_convert_error ht p).1,
        (record_of_convert_error hs p).2, (record_of_convert_error ht p).2]
      exact ⟨rfl, rfl⟩

end Reckoner
