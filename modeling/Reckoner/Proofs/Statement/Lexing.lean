import Mathlib.Data.List.Chain
import Reckoner.Statement.Basic

namespace Reckoner

/-!
# Lexing takes a spelling apart

A list of lexemes is spelled by writing its members one after the other, with blanks anywhere.
Lexing gives the list back, provided that no two literals stand side by side; and the lexemes of a
text are always of that form.

* `Lexeme.IsProper`: a literal is a stretch of digits and points.
* `Lexeme.Separated`: no two literals stand side by side.
* `Statement.Spells s ls`: without its blanks, `s` is `ls` written out.
* `Statement.tokenize_of_spells`: lexing undoes spelling.
* `Statement.spells_of_tokenize`: a statement spells what lexing gives.
* `Statement.isProper_of_tokenize`, `Statement.separated_of_tokenize`: what lexing gives is proper
  and separated.
-/

/-- A literal of digits and points, at least one of them; any other lexeme. -/
def Lexeme.IsProper : Lexeme → Prop
  | .literal text => text.toList ≠ [] ∧ ∀ c ∈ text.toList, Statement.isLiteralChar c = true
  | _ => True

/-- Whether a lexeme is a literal. -/
def Lexeme.isLiteral : Lexeme → Bool
  | .literal _ => true
  | _ => false

/-- No two literals stand side by side. -/
def Lexeme.Separated (ls : List Lexeme) : Prop :=
  ls.IsChain fun a b => ¬ (a.isLiteral = true ∧ b.isLiteral = true)

namespace Statement

/-- A text spells lexemes if it is, but for its blanks, their characters one after the other. -/
def Spells (s : String) (ls : List Lexeme) : Prop :=
  Text.compact s.toList = ls.flatMap Lexeme.chars

/-! ### Characters -/

/-- A digit or point stands for nothing by itself. -/
theorem single?_of_isLiteralChar {c : Char} (h : isLiteralChar c = true) : single? c = none := by
  -- Brackets and signs are no part of a literal, so the character is none of them.
  have hne : ∀ d : Char, isLiteralChar d = false → c ≠ d := by
    rintro d hd rfl
    simp [h] at hd
  have hsign : Operator.ofSymbol? c = none := by
    cases ho : Operator.ofSymbol? c with
    | none => rfl
    | some o =>
      have hc : c = o.symbol := Operator.ofSymbol?_eq_some_iff.1 ho
      exact absurd hc (hne _ (by cases o <;> decide))
  simp [single?, hne '(' (by decide), hne ')' (by decide), hsign]

/-- The sign of an operator is no part of a literal. -/
theorem isLiteralChar_symbol (o : Operator) : isLiteralChar o.symbol = false := by
  cases o <;> decide

/-- The sign of an operator stands for that operator. -/
theorem single?_symbol (o : Operator) : single? o.symbol = some (.operator o) := by
  cases o <;> decide

/-- What a symbol stands for is written as this symbol. -/
theorem chars_of_single? {c : Char} {l : Lexeme} (h : single? c = some l) : l.chars = [c] := by
  unfold single? at h
  split at h
  · cases h
    rename_i hc
    rw [hc]
    rfl
  · split at h
    · cases h
      rename_i hc
      rw [hc]
      rfl
    · obtain ⟨o, ho, rfl⟩ := Option.map_eq_some_iff.1 h
      rw [Operator.ofSymbol?_eq_some_iff.1 ho]
      rfl

/-- What stands alone is no literal. -/
theorem isLiteral_of_single? {c : Char} {l : Lexeme} (h : single? c = some l) :
    l.isLiteral = false := by
  unfold single? at h
  split at h
  · cases h; rfl
  · split at h
    · cases h; rfl
    · obtain ⟨o, _, rfl⟩ := Option.map_eq_some_iff.1 h
      rfl

/-! ### Pieces -/

/-- The first piece starts as the text does. -/
theorem head?_of_pieces {cs : List Char} {d : Char} {run : List Char} {more : List (List Char)}
    (h : pieces cs = (d :: run) :: more) : cs.head? = some d := by
  have hflat : (pieces cs).flatten = cs := flatten_pieces cs
  rw [h] at hflat
  rw [← hflat]
  rfl

/-- Where no literal goes on, a character is a piece of its own. -/
theorem pieces_cons_of_boundary {c : Char} {rest : List Char}
    (h : ∀ d, rest.head? = some d → ¬ (isLiteralChar c = true ∧ isLiteralChar d = true)) :
    pieces (c :: rest) = [c] :: pieces rest := by
  simp only [pieces]
  split
  · rename_i d run more hp
    have hd : rest.head? = some d := head?_of_pieces hp
    rw [if_neg (by simpa using h d hd), hp]
  · rfl

/-- A stretch of digits and points is one piece if it ends where no literal goes on. -/
theorem pieces_run {run rest : List Char} (hne : run ≠ [])
    (hrun : ∀ c ∈ run, isLiteralChar c = true)
    (hrest : ∀ d, rest.head? = some d → isLiteralChar d = false) :
    pieces (run ++ rest) = run :: pieces rest := by
  induction run with
  | nil => exact absurd rfl hne
  | cons c run ih =>
    cases run with
    | nil =>
      refine pieces_cons_of_boundary ?_
      intro d hd
      simp [hrest d hd]
    | cons d run =>
      -- The others are one piece by induction, and the character joins it.
      have htail : pieces (d :: run ++ rest) = (d :: run) :: pieces rest :=
        ih (by simp) (fun x hx => hrun x (List.mem_cons_of_mem c hx))
      have hc : isLiteralChar c = true := hrun c (by simp)
      have hd : isLiteralChar d = true := hrun d (by simp)
      rw [List.cons_append, pieces, htail]
      simp [hc, hd]

/-- A piece is a stretch of digits and points, or a single other character. -/
theorem mem_pieces {cs piece : List Char} (h : piece ∈ pieces cs) :
    (piece ≠ [] ∧ ∀ c ∈ piece, isLiteralChar c = true) ∨
      ∃ c ∈ cs, piece = [c] ∧ isLiteralChar c = false := by
  induction cs generalizing piece with
  | nil => simp [pieces] at h
  | cons c rest ih =>
    -- A piece of the rest keeps its shape.
    have hold : ∀ p ∈ pieces rest, (p ≠ [] ∧ ∀ x ∈ p, isLiteralChar x = true) ∨
        ∃ x ∈ c :: rest, p = [x] ∧ isLiteralChar x = false := by
      intro p hp
      rcases ih hp with hrun | ⟨x, hx, hpx⟩
      · exact .inl hrun
      · exact .inr ⟨x, List.mem_cons_of_mem c hx, hpx⟩
    -- The character by itself is a piece of either shape.
    have hnew : ([c] ≠ [] ∧ ∀ x ∈ [c], isLiteralChar x = true) ∨
        ∃ x ∈ c :: rest, [c] = [x] ∧ isLiteralChar x = false := by
      cases hc : isLiteralChar c
      · exact .inr ⟨c, by simp, rfl, hc⟩
      · exact .inl (by simp [hc])
    simp only [pieces] at h
    split at h
    · rename_i d run more hp
      split at h
      · rename_i hcd
        rw [Bool.and_eq_true] at hcd
        rcases List.mem_cons.1 h with rfl | hmore
        · -- The first piece has grown by the character.
          have hfirst : d :: run ∈ pieces rest := by simp [hp]
          rcases ih hfirst with ⟨_, hrun⟩ | ⟨x, _, hx, hlit⟩
          · refine .inl ⟨by simp, ?_⟩
            intro x hx
            rcases List.mem_cons.1 hx with rfl | hx
            · exact hcd.1
            · exact hrun x hx
          · cases hx
            exact absurd hcd.2 (by simp [hlit])
        · exact hold piece (by rw [hp]; exact List.mem_cons_of_mem _ hmore)
      · rcases List.mem_cons.1 h with rfl | hmem
        · exact hnew
        · exact hold piece (by rw [hp]; exact hmem)
    · rcases List.mem_cons.1 h with rfl | hmem
      · exact hnew
      · exact hold piece hmem

/-- Two neighbouring pieces are not both stretches of digits and points. -/
theorem isChain_pieces (cs : List Char) :
    (pieces cs).IsChain fun p q => ¬ ((∀ c ∈ p, isLiteralChar c = true) ∧
      ∀ c ∈ q, isLiteralChar c = true) := by
  induction cs with
  | nil => simp [pieces]
  | cons c rest ih =>
    simp only [pieces]
    split
    · rename_i d run more hp
      rw [hp] at ih
      split
      · -- The first piece grows, and what follows it stays.
        refine ih.cons_of_imp ?_
        rintro q hq ⟨hfirst, hsecond⟩
        exact hq ⟨fun x hx => hfirst x (List.mem_cons_of_mem c hx), hsecond⟩
      · rename_i hcd
        refine List.isChain_cons_cons.2 ⟨?_, ih⟩
        rintro ⟨hc, hd⟩
        exact hcd (by simp [hc c (by simp), hd d (by simp)])
    · rename_i hne
      cases hp : pieces rest with
      | nil => simp
      | cons q more =>
        have hq : q = [] := by
          cases q with
          | nil => rfl
          | cons d run => exact absurd hp (hne d run more)
        have hmem : q ∈ pieces rest := by simp [hp]
        rcases mem_pieces hmem with ⟨hqne, _⟩ | ⟨x, _, hx, _⟩
        · exact absurd hq hqne
        · simp [hq] at hx

/-! ### Spelling and lexing -/

/-- A proper lexeme is the one of its own characters. -/
theorem ofPiece_chars {l : Lexeme} (h : l.IsProper) : ofPiece l.chars = l := by
  cases l with
  | opening => rfl
  | closing => rfl
  | operator o => simp [ofPiece, Lexeme.chars, single?_symbol]
  | literal text =>
    obtain ⟨hne, hlit⟩ := h
    have htext : Lexeme.literal (String.ofList text.toList) = .literal text := by
      rw [String.ofList_toList]
    simp only [Lexeme.chars, ofPiece]
    split
    · rename_i c hc
      have hcl : isLiteralChar c = true := hlit c (by simp [hc])
      rw [single?_of_isLiteralChar hcl]
      exact htext
    · exact htext

/-- The characters of any lexeme but a literal are no part of a literal. -/
theorem chars_of_not_literal {l : Lexeme} (h : l.isLiteral = false) :
    ∃ c, l.chars = [c] ∧ isLiteralChar c = false := by
  cases l with
  | literal text => simp [Lexeme.isLiteral] at h
  | operator o => exact ⟨o.symbol, rfl, isLiteralChar_symbol o⟩
  | opening => exact ⟨'(', rfl, by decide⟩
  | closing => exact ⟨')', rfl, by decide⟩

/-- The characters of separated proper lexemes fall into the pieces they were put together from. -/
theorem pieces_flatMap_chars {ls : List Lexeme} (hproper : ∀ l ∈ ls, l.IsProper)
    (hsep : Lexeme.Separated ls) : pieces (ls.flatMap Lexeme.chars) = ls.map Lexeme.chars := by
  induction ls with
  | nil => rfl
  | cons l ls ih =>
    have htail : pieces (ls.flatMap Lexeme.chars) = ls.map Lexeme.chars :=
      ih (fun m hm => hproper m (List.mem_cons_of_mem l hm)) hsep.of_cons
    rw [List.flatMap_cons, List.map_cons, ← htail]
    cases hl : l.isLiteral with
    | false =>
      -- A symbol that stands alone joins no neighbour.
      obtain ⟨c, hc, hnot⟩ := chars_of_not_literal hl
      rw [hc]
      exact pieces_cons_of_boundary (by simp [hnot])
    | true =>
      cases l with
      | operator o => simp [Lexeme.isLiteral] at hl
      | opening => simp [Lexeme.isLiteral] at hl
      | closing => simp [Lexeme.isLiteral] at hl
      | literal text =>
        obtain ⟨hne, hlit⟩ := hproper (.literal text) (by simp)
        refine pieces_run hne hlit ?_
        -- What follows a literal is written with no digit or point.
        intro d hd
        cases ls with
        | nil => simp at hd
        | cons m ls =>
          have hm : m.isLiteral = false := by
            have hrel := (List.isChain_cons_cons.1 hsep).1
            simpa [Lexeme.isLiteral] using hrel
          obtain ⟨c, hc, hnot⟩ := chars_of_not_literal hm
          rw [List.flatMap_cons, hc] at hd
          cases hd
          exact hnot

/-- Lexing the characters of separated proper lexemes gives the lexemes back. -/
theorem lexemes_flatMap_chars {ls : List Lexeme} (hproper : ∀ l ∈ ls, l.IsProper)
    (hsep : Lexeme.Separated ls) : lexemes (ls.flatMap Lexeme.chars) = ls := by
  rw [lexemes, pieces_flatMap_chars hproper hsep, List.map_map]
  calc ls.map (ofPiece ∘ Lexeme.chars)
      = ls.map id := List.map_congr_left fun l hl => ofPiece_chars (hproper l hl)
    _ = ls := List.map_id ls

/-- Proper lexemes are written in symbols of statements. -/
theorem isCorrect_flatMap_chars {ls : List Lexeme} (hproper : ∀ l ∈ ls, l.IsProper) :
    isCorrect (ls.flatMap Lexeme.chars) = true := by
  rw [isCorrect, List.all_eq_true]
  intro c hc
  obtain ⟨l, hl, hcl⟩ := List.mem_flatMap.1 hc
  cases l with
  | literal text => simp [isAllowed, (hproper _ hl).2 c hcl]
  | operator o =>
    rw [Lexeme.chars, List.mem_singleton] at hcl
    simp [isAllowed, hcl, single?_symbol]
  | opening => rw [Lexeme.chars, List.mem_singleton] at hcl; subst hcl; decide
  | closing => rw [Lexeme.chars, List.mem_singleton] at hcl; subst hcl; decide

/-- **Lexing undoes spelling.**  However blanks are put in, the lexemes come back. -/
theorem tokenize_of_spells {s : String} {ls : List Lexeme} (hproper : ∀ l ∈ ls, l.IsProper)
    (hsep : Lexeme.Separated ls) (hs : Spells s ls) : tokenize (some s) = .ok ls := by
  simp only [tokenize]
  rw [hs, if_pos (isCorrect_flatMap_chars hproper), lexemes_flatMap_chars hproper hsep]

/-! ### What lexing gives -/

/-- A piece of a text of allowed symbols is a proper lexeme, and a literal only if it consists of
    digits and points. -/
theorem ofPiece_of_mem_pieces {cs piece : List Char} (hcs : isCorrect cs = true)
    (h : piece ∈ pieces cs) :
    (ofPiece piece).IsProper ∧
      ((ofPiece piece).isLiteral = true → ∀ c ∈ piece, isLiteralChar c = true) := by
  rcases mem_pieces h with ⟨hne, hrun⟩ | ⟨c, hc, rfl, hnot⟩
  · -- A run of one character is looked up as a symbol first, but no digit or point is one.
    have hpiece : ofPiece piece = .literal (String.ofList piece) := by
      simp only [ofPiece]
      split
      · rename_i c
        rw [single?_of_isLiteralChar (hrun c (by simp))]
        rfl
      · rfl
    rw [hpiece]
    exact ⟨by simpa [Lexeme.IsProper] using ⟨hne, hrun⟩, fun _ => hrun⟩
  · -- An allowed character that is no part of a literal stands for a lexeme by itself.
    have hallowed : isAllowed c = true := by
      rw [isCorrect, List.all_eq_true] at hcs
      exact hcs c hc
    have hsingle : (single? c).isSome = true := by simpa [isAllowed, hnot] using hallowed
    obtain ⟨l, hl⟩ := Option.isSome_iff_exists.1 hsingle
    have hpiece : ofPiece [c] = l := by simp [ofPiece, hl]
    have hlit : l.isLiteral = false := isLiteral_of_single? hl
    rw [hpiece]
    refine ⟨?_, by simp [hlit]⟩
    cases l with
    | literal text => simp [Lexeme.isLiteral] at hlit
    | operator o => trivial
    | opening => trivial
    | closing => trivial

/-- Lexing succeeds on allowed symbols only, and cuts the text without its blanks. -/
theorem tokenize_eq_ok {s : String} {ls : List Lexeme} (h : tokenize (some s) = .ok ls) :
    isCorrect (Text.compact s.toList) = true ∧ ls = lexemes (Text.compact s.toList) := by
  simp only [tokenize] at h
  split at h
  · rename_i hcorrect
    cases h
    exact ⟨hcorrect, rfl⟩
  · exact absurd h (by simp)

/-- A piece is written as it was cut out. -/
theorem chars_ofPiece (piece : List Char) : (ofPiece piece).chars = piece := by
  have hliteral : (Lexeme.literal (String.ofList piece)).chars = piece := String.toList_ofList
  unfold ofPiece
  split
  · rename_i c
    cases hc : single? c with
    | none => exact hliteral
    | some l => exact chars_of_single? hc
  · exact hliteral

/-- **A statement spells its own lexemes.** -/
theorem spells_of_tokenize {s : String} {ls : List Lexeme} (h : tokenize (some s) = .ok ls) :
    Spells s ls := by
  obtain ⟨_, rfl⟩ := tokenize_eq_ok h
  have hchars : ∀ piece ∈ pieces (Text.compact s.toList), (ofPiece piece).chars = piece :=
    fun piece _ => chars_ofPiece piece
  rw [Spells, lexemes, List.flatMap_map, List.flatMap_congr hchars, List.flatMap_id',
    flatten_pieces]

/-- The lexemes of a statement are proper. -/
theorem isProper_of_tokenize {s : String} {ls : List Lexeme} (h : tokenize (some s) = .ok ls) :
    ∀ l ∈ ls, l.IsProper := by
  obtain ⟨hcorrect, rfl⟩ := tokenize_eq_ok h
  intro l hl
  obtain ⟨piece, hpiece, rfl⟩ := List.mem_map.1 hl
  exact (ofPiece_of_mem_pieces hcorrect hpiece).1

/-- The lexemes of a statement are separated. -/
theorem separated_of_tokenize {s : String} {ls : List Lexeme} (h : tokenize (some s) = .ok ls) :
    Lexeme.Separated ls := by
  obtain ⟨hcorrect, rfl⟩ := tokenize_eq_ok h
  rw [Lexeme.Separated, lexemes, List.isChain_map]
  refine (isChain_pieces _).imp_of_mem_imp ?_
  rintro p q hp hq hpq ⟨hpl, hql⟩
  exact hpq ⟨(ofPiece_of_mem_pieces hcorrect hp).2 hpl, (ofPiece_of_mem_pieces hcorrect hq).2 hql⟩

end Statement

end Reckoner
