import Reckoner.Proofs.Postfix.Scan
import Reckoner.Proofs.Statement.Lexing

namespace Reckoner

/-!
# Which statements are rejected, and why

The rules of the notation, position by position: what stands before a bracket or operator, what
stands behind it, and how many brackets are open.  A statement is rejected for the first position at
which one of them is broken; only if all are kept, for a bracket that stays open.

* `Statement.violation? ls i`: the rule that the lexeme at position `i` breaks.
* `Statement.firstViolation? ls`: that of the smallest such position.
* `Statement.complaint? s`: what is said against a statement.
* `Postfix.firstFault_eq_firstViolation?`: the scan finds the smallest position.
* `Postfix.convert_verdict`: the conversion fails with that complaint, or succeeds.
-/

namespace Statement

/-- The symbols of statements. -/
def symbols : List Char := "0123456789.()+-*/".toList

/-- The rule that the lexeme at a position breaks. -/
def violation? (ls : List Lexeme) (i : Nat) : Option Error :=
  match ls[i]? with
  | some .opening =>
    if 0 < i ∧ (ls[i - 1]?.any Lexeme.isLiteral ∨ ls[i - 1]? = some .closing) then
      some .noOperatorBeforeOpening
    else none
  | some (.operator _) =>
    if i = 0 ∨ i + 1 = ls.length then some .operatorAtEdge
    else if Postfix.Conversion.isOperator ls[i + 1]? then some .consecutiveOperators
    else none
  | some .closing =>
    if 0 < i ∧ Postfix.Conversion.isOperator ls[i - 1]? then some .operatorBeforeClosing
    else if (ls.take (i + 1)).count .opening < (ls.take (i + 1)).count .closing then
      some .unmatchedClosing
    else none
  | _ => none

/-- The rule broken at the smallest position. -/
def firstViolation? (ls : List Lexeme) : Option Error :=
  (List.range ls.length).findSome? (violation? ls)

/-- What is said against a statement: symbols first, then the smallest violating position, then
    brackets that stay open. -/
def complaint? (s : String) : Option Error :=
  if s.toList.any fun c => !Text.isBlank c && !symbols.contains c then some (.invalidSymbols s)
  else
    let ls := lexemes (Text.compact s.toList)
    match firstViolation? ls with
    | some e => some e
    | none => if ls.count .closing < ls.count .opening then some .unmatchedOpening else none

/-- Nothing is wrong behind the last lexeme. -/
theorem violation?_of_length_le {ls : List Lexeme} {i : Nat} (h : ls.length ≤ i) :
    violation? ls i = none := by
  rw [violation?, List.getElem?_eq_none h]

/-- **The first violation** is the one at the smallest violating position. -/
theorem firstViolation?_eq_some_iff {ls : List Lexeme} {e : Error} :
    firstViolation? ls = some e ↔
      ∃ i, violation? ls i = some e ∧ ∀ j < i, violation? ls j = none := by
  rw [firstViolation?, List.findSome?_eq_some_iff]
  constructor
  · rintro ⟨below, i, above, hrange, hi, hbelow⟩
    refine ⟨i, hi, ?_⟩
    intro j hj
    apply hbelow
    -- A position below the first one comes before it in the list of all positions.
    have hlen : below.length = i := by
      have hget : (List.range ls.length)[below.length]? = some i := by
        rw [hrange]
        simp
      rw [List.getElem?_range] at hget
      · exact Option.some.inj hget
      · have hlength := congrArg List.length hrange
        simp only [List.length_range, List.length_append, List.length_cons] at hlength
        omega
    have hget : (List.range ls.length)[j]? = below[j]? := by
      rw [hrange, List.getElem?_append_left (by omega)]
    have hlength := congrArg List.length hrange
    simp only [List.length_range, List.length_append, List.length_cons] at hlength
    rw [List.getElem?_range (by omega)] at hget
    exact List.mem_of_getElem? hget.symm
  · rintro ⟨i, hi, hbelow⟩
    have hlt : i < ls.length := by
      by_contra hge
      rw [violation?_of_length_le (by omega)] at hi
      exact absurd hi (by simp)
    refine ⟨List.range i, i, List.range' (i + 1) (ls.length - (i + 1)), ?_, hi, ?_⟩
    · rw [List.range_eq_range', List.range_eq_range', ← List.range'_succ,
        show ls.length - (i + 1) + 1 = ls.length - i by omega]
      have happend := List.range'_append_1 (s := 0) (m := i) (n := ls.length - i)
      rw [Nat.zero_add, show i + (ls.length - i) = ls.length by omega] at happend
      exact happend.symm
    · intro j hj
      exact hbelow j (List.mem_range.1 hj)

/-- The allowed characters are the symbols of statements. -/
theorem isAllowed_eq (c : Char) : isAllowed c = symbols.contains c := by
  rw [Bool.eq_iff_iff]
  constructor
  · intro h
    rw [isAllowed, Bool.or_eq_true] at h
    rcases h with h | h
    · rw [isLiteralChar, Bool.or_eq_true, decide_eq_true_eq] at h
      rcases h with h | rfl
      · -- The digits are checked by their code points.
        have hc : Char.ofNat c.toNat = c := Char.ofNat_toNat c
        have hrange : 48 ≤ c.toNat ∧ c.toNat < 58 := by
          simp only [Char.isDigit, Bool.and_eq_true, decide_eq_true_eq] at h
          exact ⟨h.1, Nat.lt_succ_of_le h.2⟩
        have hall : ∀ n < 58, 48 ≤ n → symbols.contains (Char.ofNat n) = true := by decide
        rw [← hc]
        exact hall c.toNat hrange.2 hrange.1
      · decide
    · obtain ⟨l, hl⟩ := Option.isSome_iff_exists.1 h
      unfold single? at hl
      split at hl
      · rename_i hc; subst hc; decide
      · split at hl
        · rename_i hc; subst hc; decide
        · obtain ⟨o, ho, _⟩ := Option.map_eq_some_iff.1 hl
          rw [Operator.ofSymbol?_eq_some_iff] at ho
          subst ho
          cases o <;> decide
  · intro h
    have hall : ∀ d ∈ symbols, isAllowed d = true := List.all_eq_true.1 (by decide)
    exact hall c (by simpa using h)

/-- A statement without foreign symbols is correct when its blanks are taken out. -/
theorem isCorrect_compact (cs : List Char) :
    isCorrect (Text.compact cs) = !cs.any fun c => !Text.isBlank c && !symbols.contains c := by
  rw [isCorrect, Text.compact, List.all_filter, List.not_any_eq_all_not]
  congr 1
  funext c
  rw [isAllowed_eq]
  cases Text.isBlank c <;> cases symbols.contains c <;> rfl

end Statement

namespace Postfix

open Statement

/-! ### The scan finds the smallest position -/

/-- Behind lexemes that open `depth` more brackets than they close, what is wrong with a lexeme
    between its neighbours is what is wrong at its position. -/
theorem fault?_eq_violation? {done rest : List Lexeme} {depth : Nat} (l : Lexeme)
    (hdepth : done.count .closing + depth = done.count .opening) :
    Conversion.fault? done.getLast? rest.head? depth l =
      violation? (done ++ l :: rest) done.length := by
  -- The lexeme and its neighbours are found by their positions, and the lexemes so far by theirs.
  have hat : (done ++ l :: rest)[done.length]? = some l := by simp
  have hafter : (done ++ l :: rest)[done.length + 1]? = rest.head? := by
    rw [List.getElem?_append_right (by omega)]
    simp [List.head?_eq_getElem?]
  have hbefore : ∀ m, done.getLast? = some m →
      0 < done.length ∧ (done ++ l :: rest)[done.length - 1]? = some m := by
    intro m hm
    have hpos : 0 < done.length := by
      cases done with
      | nil => simp at hm
      | cons d done => simp
    rw [List.getElem?_append_left (by omega), ← List.getLast?_eq_getElem?]
    exact ⟨hpos, hm⟩
  have htake : (done ++ l :: rest).take (done.length + 1) = done ++ [l] := by
    rw [List.take_length_add_append]
    rfl
  have hlast : done.length + 1 = (done ++ l :: rest).length ↔ rest.head?.isNone = true := by
    cases rest <;> simp
  have hfirst : done.length = 0 ↔ done.getLast?.isNone = true := by
    cases done <;> simp
  cases l with
  | literal text => simp [Conversion.fault?, violation?]
  | opening =>
    simp only [Conversion.fault?, violation?, hat]
    cases hd : done.getLast? with
    | none => simp [hfirst.2 (by simp [hd])]
    | some m =>
      obtain ⟨hpos, hm⟩ := hbefore m hd
      rw [hm]
      cases m <;> simp [hpos, Conversion.isOperator, Lexeme.isLiteral]
  | operator o =>
    simp only [Conversion.fault?, violation?, hat, hafter, hfirst, hlast, Bool.or_eq_true]
  | closing =>
    simp only [Conversion.fault?, violation?, hat, htake]
    -- More brackets are closed than opened exactly if none was open.
    have hcount : (done ++ [Lexeme.closing]).count .opening <
        (done ++ [Lexeme.closing]).count .closing ↔ depth = 0 := by
      simp only [List.count_append, List.count_singleton]
      simp
      omega
    simp only [hcount]
    cases hd : done.getLast? with
    | none => simp [hfirst.2 (by simp [hd]), Conversion.isOperator]
    | some m =>
      obtain ⟨hpos, hm⟩ := hbefore m hd
      rw [hm]
      simp [hpos]

/-- From any position on the scan finds the smallest violating position. -/
theorem firstFault_append (done rest : List Lexeme) (depth : Nat)
    (hdepth : done.count .closing + depth = done.count .opening) :
    Conversion.firstFault done.getLast? depth rest =
      (List.range' done.length rest.length).findSome? (violation? (done ++ rest)) := by
  induction rest generalizing done depth with
  | nil => rfl
  | cons l rest ih =>
    simp only [Conversion.firstFault, List.length_cons, List.range'_succ, List.findSome?_cons]
    rw [← fault?_eq_violation? l hdepth]
    cases hfault : Conversion.fault? done.getLast? rest.head? depth l with
    | some e => rfl
    | none =>
      have hcount := Conversion.count_depthAfter hfault
      have hnext := ih (done ++ [l]) (Conversion.depthAfter depth l) (by
        rw [List.count_append, List.count_append]
        omega)
      simpa using hnext

/-- The scan finds the smallest violating position. -/
theorem firstFault_eq_firstViolation? (ls : List Lexeme) :
    Conversion.firstFault none 0 ls = firstViolation? ls := by
  have hscan := firstFault_append [] ls 0 rfl
  rw [firstViolation?, List.range_eq_range']
  exact hscan

/-- Lexemes are rejected for the first violation, then for open brackets, and otherwise converted.
    -/
theorem ofLexemes_verdict (ls : List Lexeme) :
    match firstViolation? ls with
    | some e => ofLexemes ls = .error e
    | none =>
      if ls.count .closing < ls.count .opening then ofLexemes ls = .error .unmatchedOpening
      else ∃ tokens, ofLexemes ls = .ok tokens := by
  rw [← firstFault_eq_firstViolation?, ofLexemes_eq]
  cases hfault : Conversion.firstFault none 0 ls with
  | some e => rfl
  | none =>
    have hcount := Conversion.count_foldl_depthAfter hfault
    have hstart : Conversion.start.openings = 0 := rfl
    simp only [Conversion.finish_eq, Conversion.openings_foldl_advance, hstart]
    by_cases hopen : ls.count .closing < ls.count .opening
    · rw [if_pos hopen, if_neg (by omega)]
    · rw [if_neg hopen, if_pos (by omega)]
      exact ⟨_, rfl⟩

/-- **The verdict on a statement.**  The conversion fails exactly if there is a complaint, with this
    complaint, and succeeds exactly if there is none.  If all symbols are known, the rule that is
    broken at the smallest position is what it complains of. -/
theorem convert_verdict (s : String) :
    (∀ e, convert (some s) = .error e ↔ complaint? s = some e) ∧
      ((∃ tokens, convert (some s) = .ok tokens) ↔ complaint? s = none) ∧
      ((∀ c ∈ s.toList, Text.isBlank c = true ∨ c ∈ symbols) →
        let ls := lexemes (Text.compact s.toList)
        ∀ i e, violation? ls i = some e → (∀ j < i, violation? ls j = none) →
          convert (some s) = .error e) := by
  -- The complaints are looked for in the order in which the conversion finds them.
  have hverdict : match complaint? s with
      | some e => convert (some s) = .error e
      | none => ∃ tokens, convert (some s) = .ok tokens := by
    simp only [complaint?, convert, tokenize, isCorrect_compact]
    cases s.toList.any fun c => !Text.isBlank c && !symbols.contains c with
    | true => rfl
    | false =>
      have hlexemes := ofLexemes_verdict (lexemes (Text.compact s.toList))
      simp only [Bool.not_false, Bool.false_eq_true, if_true, if_false]
      cases hfirst : firstViolation? (lexemes (Text.compact s.toList)) with
      | some e =>
        rw [hfirst] at hlexemes
        exact hlexemes
      | none =>
        simp only [hfirst] at hlexemes
        split at hlexemes
        · rename_i hopen
          simpa only [if_pos hopen] using hlexemes
        · rename_i hclosed
          simpa only [if_neg hclosed] using hlexemes
  have herror (e : Statement.Error) : convert (some s) = .error e ↔ complaint? s = some e := by
    cases hc : complaint? s with
    | some e' =>
      rw [hc] at hverdict
      simp [hverdict]
    | none =>
      rw [hc] at hverdict
      obtain ⟨tokens, htokens⟩ := hverdict
      simp [htokens]
  refine ⟨herror, ?_, ?_⟩
  · cases hc : complaint? s with
    | some e =>
      rw [hc] at hverdict
      simp [hverdict]
    | none =>
      rw [hc] at hverdict
      simp [hverdict]
  · intro hsymbols ls i e hi hbefore
    have hfirst : firstViolation? ls = some e := firstViolation?_eq_some_iff.2 ⟨i, hi, hbefore⟩
    have hknown : (s.toList.any fun c => !Text.isBlank c && !symbols.contains c) = false := by
      rw [List.any_eq_false]
      intro c hc
      rcases hsymbols c hc with hblank | hsymbol
      · simp [hblank]
      · simp [hsymbol]
    rw [herror, complaint?, hknown]
    simp only [Bool.false_eq_true, if_false]
    rw [hfirst]

end Postfix

end Reckoner
