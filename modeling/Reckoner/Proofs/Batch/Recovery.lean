import Mathlib.Logic.Function.Basic
import Reckoner.Proofs.Batch.ResultLine
import Reckoner.Proofs.Postfix.Conservation
import Reckoner.Proofs.Statement.Lexing

namespace Reckoner

open Text

/-!
# What can be told from a result line

A line starts with its statement, but a statement that is rejected may be any text, and so it may
imitate what stands between a statement and the reason.  Still no two statements have the same line.
Only a statement with foreign symbols can imitate anything, and then the reason repeats it: of two
such statements on one line the longer one would need a shorter reason, but has a longer one.

* `Statement.IsClean`: the symbols of a statement are allowed ones or blanks.
* `calculate_of_not_isClean`, `isClean_of_calculate`: what is said of foreign symbols, and when.
* `Failure.capital_not_mem_message`: no other reason could pass for it.
* `Batch.isInfix_resultLine_iff`: which lines have the mark of an error.
* `Batch.eq_of_resultLine`: no two statements have the same line.
* `Batch.lines_unambiguous`: a line tells its statement, and whether it was rejected.
-/

/-! ### Foreign symbols -/

/-- A statement of allowed symbols and blanks. -/
def Statement.IsClean (s : String) : Prop := Statement.isCorrect (compact s.toList) = true

/-- A clean statement has none of the characters that are neither blank nor allowed. -/
theorem Statement.IsClean.not_mem {s : String} (h : IsClean s) {c : Char}
    (hblank : isBlank c = false) (hforeign : isAllowed c = false) : c ∉ s.toList := by
  intro hc
  unfold IsClean isCorrect compact at h
  rw [List.all_eq_true] at h
  have hallowed := h c (List.mem_filter.2 ⟨hc, by rw [hblank]; rfl⟩)
  rw [hforeign] at hallowed
  cases hallowed

/-- **Foreign symbols** are the reason for which a statement is rejected, whatever else is wrong. -/
theorem calculate_of_not_isClean (p : Precision) {s : String} (h : ¬ Statement.IsClean s) :
    (calculate p (some s)).outcome = .error (.malformed (.invalidSymbols s)) := by
  have htokenize : Statement.tokenize (some s) = .error (.invalidSymbols s) := if_neg h
  simp only [calculate, value, Postfix.convert, htokenize]

/-- A statement that is answered is clean. -/
theorem isClean_of_calculate {p : Precision} {s : String} {answer : Answer}
    (h : (calculate p (some s)).outcome = .ok answer) : Statement.IsClean s := by
  by_contra hclean
  rw [calculate_of_not_isClean p hclean] at h
  cases h

/-! ### Reasons that are not about foreign symbols -/

namespace Postfix

/-- The scan finds nothing wrong with symbols. -/
theorem Conversion.firstFault_ne_invalidSymbols (before : Option Lexeme) (depth : Nat)
    (ls : List Lexeme) (s : String) : firstFault before depth ls ≠ some (.invalidSymbols s) := by
  induction ls generalizing before depth with
  | nil => simp [firstFault]
  | cons l ls ih =>
    rw [firstFault]
    cases hl : fault? before ls.head? depth l with
    | none => exact ih (some l) (depthAfter depth l)
    | some e =>
      rintro ⟨rfl⟩
      cases l <;> simp only [fault?] at hl <;> (repeat' split at hl) <;> cases hl

/-- Lexemes are not rejected for their symbols. -/
theorem ofLexemes_ne_invalidSymbols (ls : List Lexeme) (s : String) :
    ofLexemes ls ≠ .error (.invalidSymbols s) := by
  rw [ofLexemes_eq]
  cases hfault : Conversion.firstFault none 0 ls with
  | some e =>
    rintro ⟨rfl⟩
    exact Conversion.firstFault_ne_invalidSymbols none 0 ls s hfault
  | none =>
    simp only [Conversion.finish_eq]
    split <;> simp

end Postfix

/-- Digits and points are quoted as they are. -/
theorem quotedChars_of_isLiteralChar {cs : List Char}
    (h : ∀ c ∈ cs, Statement.isLiteralChar c = true) :
    quotedChars cs = quoteFor cs :: cs ++ [quoteFor cs] := by
  have hplain : ∀ c ∈ cs, escapeChar (quoteFor cs) c = [c] := by
    intro c hc
    have hliteral := h c hc
    have hrange : 48 ≤ c.toNat ∧ c.toNat ≤ 57 ∨ c = '.' := by
      simpa [Statement.isLiteralChar, Char.isDigit, UInt32.le_iff_toNat_le] using hliteral
    have hprintable : isPrintable c = true := by
      rcases hrange with hrange | rfl
      · exact isPrintable_of_ascii c (by omega) (by omega)
      · decide
    have hquote : c ≠ quoteFor cs := by
      rintro rfl
      rcases quoteFor_eq_or cs with hquote | hquote <;> rw [hquote] at hliteral <;>
        exact absurd hliteral (by decide)
    have hbackslash : c ≠ '\\' := by
      rintro rfl
      exact absurd hliteral (by decide)
    exact escapeChar_of_plain hprintable hquote hbackslash
  show quoteFor cs :: cs.flatMap (escapeChar (quoteFor cs)) ++ [quoteFor cs] = _
  rw [List.flatMap_congr hplain, List.flatMap_singleton']

/-- What is said about the places of lexemes has no capital S. -/
theorem Statement.Error.capital_not_mem_message {e : Statement.Error}
    (h : ∀ s, e ≠ .invalidSymbols s) : 'S' ∉ e.message.toList := by
  cases e with
  | invalidSymbols s => exact absurd rfl (h s)
  | _ => decide +kernel

/-- What is said about postfix sequences has no capital S, unless a literal has one. -/
theorem Postfix.Error.capital_not_mem_message {e : Postfix.Error}
    (h : ∀ text, e = .invalidLiteral text → ∀ c ∈ text.toList, Statement.isLiteralChar c = true) :
    'S' ∉ e.message.toList := by
  cases e with
  | invalidLiteral text =>
    have hliteral := h text rfl
    show 'S' ∉ ("Invalid number literal: " ++ quoted text).toList
    rw [String.toList_append, toList_quoted, quotedChars_of_isLiteralChar hliteral]
    have htext : 'S' ∉ text.toList := fun hmem => absurd (hliteral _ hmem) (by decide)
    have hquote : 'S' ≠ quoteFor text.toList := by
      rcases quoteFor_eq_or text.toList with hquote | hquote <;> rw [hquote] <;> decide
    simp [htext, hquote]
  | missingOperands o => cases o <;> decide
  | noOperand => decide
  | remainingOperands count =>
    show 'S' ∉ ("Invalid expression (" ++ toString count ++ " remaining operands)").toList
    rw [String.toList_append, String.toList_append]
    have hdigits : 'S' ∉ (toString count).toList := by
      rw [Nat.toString_eq_ofList_toDigits, String.toList_ofList]
      intro hmem
      exact absurd (Nat.isDigit_of_mem_toDigits (by decide) (by decide) hmem) (by decide)
    have hfront : 'S' ∉ "Invalid expression (".toList := by decide
    have hback : 'S' ∉ " remaining operands)".toList := by decide
    simp only [List.mem_append, not_or]
    exact ⟨⟨hfront, hdigits⟩, hback⟩

/-- **No other reason could pass for foreign symbols:** what is said against a clean statement has
    no capital S. -/
theorem Failure.capital_not_mem_message {p : Precision} {s : String} {failure : Failure}
    (h : (calculate p (some s)).outcome = .error failure) (hclean : Statement.IsClean s) :
    'S' ∉ failure.message.toList := by
  have htokenize : Statement.tokenize (some s) =
      .ok (Statement.lexemes (compact s.toList)) := if_pos hclean
  have hconvert : Postfix.convert (some s) =
      Postfix.ofLexemes (Statement.lexemes (compact s.toList)) := by
    rw [Postfix.convert, htokenize]
  simp only [calculate, value, hconvert] at h
  cases htokens : Postfix.ofLexemes (Statement.lexemes (compact s.toList)) with
  | error e =>
    simp only [htokens] at h
    obtain rfl : .malformed e = failure := Except.error.inj h
    apply Statement.Error.capital_not_mem_message
    rintro t rfl
    exact Postfix.ofLexemes_ne_invalidSymbols _ t htokens
  | ok tokens =>
    simp only [htokens] at h
    cases hevaluate : Postfix.evaluate tokens with
    | error e =>
      simp only [hevaluate] at h
      obtain rfl : .unevaluable e = failure := Except.error.inj h
      apply Postfix.Error.capital_not_mem_message
      rintro text rfl
      -- The literal is one of the statement, and those are made of digits and points.
      have hmem := Postfix.mem_of_ofLexemes htokens
        (Postfix.mem_of_evaluate_invalidLiteral hevaluate)
      exact (Statement.isProper_of_tokenize htokenize _ hmem).2
    | ok v =>
      simp only [hevaluate] at h
      split at h
      case h_1 nonFinite _ =>
        obtain rfl := Except.error.inj h
        cases nonFinite with
        | nan => decide
        | infinity negative => cases negative <;> decide
      case h_2 =>
        split at h
        case h_1 nonFinite _ =>
          obtain rfl := Except.error.inj h
          cases nonFinite with
          | nan => decide
          | infinity => exact (by decide : 'S' ∉ "cannot convert float infinity to integer".toList)
        case h_2 => cases h

/-! ### Lines -/

namespace Batch

/-- What stands between a rejected statement and the reason. -/
def errorMark : List Char := " -> ERROR: ".toList

variable {p p' : Precision} {s s' : String}

/-- The line of a statement that is answered. -/
theorem toList_resultLine_of_ok {answer : Answer}
    (h : (calculate p (some s)).outcome = .ok answer) :
    (resultLine p s).toList = (s.toList ++ [' ']) ++ '=' :: (' ' :: answer.formatted.toList) := by
  have hequals : " = ".toList = [' '] ++ '=' :: [' '] := rfl
  simp only [resultLine, h]
  rw [String.toList_append, String.toList_append, hequals]
  simp

/-- The line of a statement that is rejected. -/
theorem toList_resultLine_of_error {failure : Failure}
    (h : (calculate p (some s)).outcome = .error failure) :
    (resultLine p s).toList = s.toList ++ (errorMark ++ failure.message.toList) := by
  simp only [resultLine, h]
  rw [String.toList_append, String.toList_append, List.append_assoc]
  rfl

/-- A displayed result has numeral characters only. -/
theorem not_mem_formatted {answer : Answer} (h : (calculate p (some s)).outcome = .ok answer)
    {c : Char} (hc : Display.isNumeral c = false) : c ∉ answer.formatted.toList := by
  obtain ⟨_, _, _, hformat⟩ := calculate_eq_ok h
  intro hmem
  rw [(Display.numeral_of_format hformat).2 c hmem] at hc
  cases hc

/-- **The mark of an error** is in the lines of rejected statements only: the others have no letter.
    -/
theorem isInfix_resultLine_iff (p : Precision) (s : String) :
    errorMark <:+: (resultLine p s).toList ↔
      ∃ failure, (calculate p (some s)).outcome = .error failure := by
  cases h : (calculate p (some s)).outcome with
  | error failure =>
    refine ⟨fun _ => ⟨failure, rfl⟩, fun _ => ?_⟩
    rw [toList_resultLine_of_error h]
    exact ⟨s.toList, failure.message.toList, List.append_assoc _ _ _⟩
  | ok answer =>
    refine ⟨fun hinfix => ?_, fun ⟨_, hfailure⟩ => nomatch hfailure⟩
    have hletter : 'E' ∈ (resultLine p s).toList := hinfix.subset (by decide)
    have hs : 'E' ∉ s.toList := (isClean_of_calculate h).not_mem (by decide) (by decide)
    have hresult : 'E' ∉ answer.formatted.toList := not_mem_formatted h (by decide)
    rw [toList_resultLine_of_ok h] at hletter
    simp [hs, hresult] at hletter

/-- On the line of an answer there is one equals sign, and the statement is before it. -/
theorem eq_of_resultLine_of_ok {answer answer' : Answer}
    (h : (calculate p (some s)).outcome = .ok answer)
    (h' : (calculate p' (some s')).outcome = .ok answer')
    (hline : resultLine p s = resultLine p' s') : s = s' := by
  have hs : '=' ∉ s.toList ++ [' '] := by
    simpa using (isClean_of_calculate h).not_mem (by decide) (by decide)
  have hresult : '=' ∉ ' ' :: answer.formatted.toList := by
    simpa using not_mem_formatted h (by decide)
  have hchars := congrArg String.toList hline
  rw [toList_resultLine_of_ok h, toList_resultLine_of_ok h',
    List.append_cons_inj_of_notMem hs hresult] at hchars
  exact String.toList_injective (List.append_cancel_right hchars.1)

/-- What a longer statement has more than a shorter one on the same line imitates the mark, so it
    has a foreign symbol in it. -/
theorem arrow_mem_of_imitation {d m m' : List Char} (hne : d ≠ [])
    (h : errorMark ++ m = d ++ (errorMark ++ m')) : '>' ∈ d := by
  have hmark : errorMark = ' ' :: '-' :: '>' :: " ERROR: ".toList := rfl
  rw [hmark] at h
  rcases d with _ | ⟨c, _ | ⟨c', _ | ⟨c'', d⟩⟩⟩
  · exact absurd rfl hne
  · simp at h
  · simp at h
  · simp only [List.cons_append, List.cons.injEq] at h
    simp [← h.2.2.1]

/-- **Of two rejected statements on one line none is longer.**  The longer one has foreign symbols,
    so the reason quotes it.  The shorter one has the longer reason, so this holds of it too; but it
    has the shorter quotation. -/
theorem eq_nil_of_imitation {failure failure' : Failure} {d : List Char}
    (h : (calculate p (some s)).outcome = .error failure)
    (h' : (calculate p' (some s')).outcome = .error failure') (hd : s'.toList = s.toList ++ d)
    (hline : errorMark ++ failure.message.toList =
      d ++ (errorMark ++ failure'.message.toList)) : d = [] := by
  by_contra hne
  have hmessage (t : String) : (Failure.malformed (.invalidSymbols t)).message.toList =
      "Statement contains invalid symbols: ".toList ++ quotedChars t.toList := by
    show ("Statement contains invalid symbols: " ++ quoted t).toList = _
    rw [String.toList_append, toList_quoted]
  have hforeign' : ¬ Statement.IsClean s' := by
    intro hclean
    apply hclean.not_mem (c := '>') (by decide) (by decide)
    rw [hd]
    exact List.mem_append_right _ (arrow_mem_of_imitation hne hline)
  rw [calculate_of_not_isClean p' hforeign'] at h'
  obtain rfl := Except.error.inj h'
  have hlength := congrArg List.length hline
  simp only [List.length_append] at hlength
  have hforeign : ¬ Statement.IsClean s := by
    intro hclean
    apply Failure.capital_not_mem_message h hclean
    -- The reason for the longer statement is the end of the other one.
    have hend : (Failure.malformed (.invalidSymbols s')).message.toList <:+
        errorMark ++ failure.message.toList := by
      rw [hline, ← List.append_assoc]
      exact List.suffix_append _ _
    apply (List.suffix_of_suffix_length_le hend (List.suffix_append _ _) (by omega)).subset
    rw [hmessage]
    exact List.mem_append_left _ (by decide)
  rw [calculate_of_not_isClean p hforeign] at h
  obtain rfl := Except.error.inj h
  have hquoted := length_quotedChars_append s.toList d
  rw [hmessage, hmessage, hd, List.length_append, List.length_append] at hlength
  exact hne (List.eq_nil_of_length_eq_zero (by omega))

/-- **No two statements have the same line,** not even with different precisions. -/
theorem eq_of_resultLine (hline : resultLine p s = resultLine p' s') : s = s' := by
  have hmark := isInfix_resultLine_iff p s
  rw [hline, isInfix_resultLine_iff] at hmark
  cases h : (calculate p (some s)).outcome with
  | ok answer =>
    cases h' : (calculate p' (some s')).outcome with
    | ok answer' => exact eq_of_resultLine_of_ok h h' hline
    | error failure' => simp [h, h'] at hmark
  | error failure =>
    cases h' : (calculate p' (some s')).outcome with
    | ok answer' => simp [h, h'] at hmark
    | error failure' =>
      have hchars := congrArg String.toList hline
      rw [toList_resultLine_of_error h, toList_resultLine_of_error h',
        List.append_eq_append_iff] at hchars
      apply String.toList_injective
      rcases hchars with ⟨d, hd, hrest⟩ | ⟨d, hd, hrest⟩
      · rw [hd, eq_nil_of_imitation h h' hd hrest, List.append_nil]
      · rw [hd, eq_nil_of_imitation h' h hd hrest, List.append_nil]

/-- The line of a statement with its own outcome. -/
def lineOf (p : Precision) (number : Nat) (s : String) : ResultLine :=
  .ofOutcome number s (calculate p (some s)).outcome

/-- The lines of a batch are those of its statements, numbered from one. -/
theorem lines_eq_mapIdx (p : Precision) (statements : List String) :
    lines p statements = statements.mapIdx fun i s => lineOf p (i + 1) s := by
  apply List.ext_getElem?
  intro i
  unfold lines outcomes
  rw [List.getElem?_map, List.getElem?_mapIdx, List.getElem?_mapIdx, Option.map_map]
  rfl

/-- **A line tells its statement, and whether it was rejected.**  The lines of a batch are those of
    its statements; of different statements they are different, whatever the precisions; those with
    the mark of an error are those of rejected statements; and so both can be recovered from the
    line alone. -/
theorem lines_unambiguous :
    (∀ m p allowed statements destination, (run m p allowed statements destination).lines =
      statements.mapIdx fun i s => lineOf p (i + 1) s) ∧
    (∀ p p' n n' s s', s ≠ s' → (lineOf p n s).render ≠ (lineOf p' n' s').render) ∧
    (∀ p n s, " -> ERROR: ".toList <:+: (lineOf p n s).render.toList ↔
      ∃ failure, (calculate p (some s)).outcome = .error failure) ∧
    ∃ recover : String → String × Bool, ∀ p n s,
      recover (lineOf p n s).render = (s, (calculate p (some s)).outcome.isOk) := by
  have hrender (p : Precision) (n : Nat) (s : String) :
      (lineOf p n s).render = resultLine p s := render_ofOutcome p n s
  refine ⟨fun _ p _ statements _ => lines_eq_mapIdx p statements, ?_, ?_, ?_⟩
  · intro p p' n n' s s' hne hline
    rw [hrender, hrender] at hline
    exact hne (eq_of_resultLine hline)
  · intro p n s
    rw [hrender]
    exact isInfix_resultLine_iff p s
  · -- Equal lines have the mark of an error or not, and the same statement.
    have hfactors : Function.FactorsThrough
        (fun x : Precision × String => (x.2, (calculate x.1 (some x.2)).outcome.isOk))
        (fun x => resultLine x.1 x.2) := by
      rintro ⟨p, s⟩ ⟨p', s'⟩ hline
      have hmark := isInfix_resultLine_iff p s
      simp only at hline ⊢
      rw [hline, isInfix_resultLine_iff, eq_of_resultLine hline] at hmark
      rw [eq_of_resultLine hline]
      cases h : (calculate p (some s')).outcome <;>
        cases h' : (calculate p' (some s')).outcome <;> simp [h, h'] at hmark <;> rfl
    obtain ⟨recover, hrecover⟩ := (Function.factorsThrough_iff _).1 hfactors
    refine ⟨recover, fun p n s => ?_⟩
    rw [hrender]
    exact (congrFun hrecover (p, s)).symm

/-- A statement that imitates the line of another one has a line of its own. -/
theorem lines_unambiguous_imitation :
    let imitation := "x -> ERROR: Statement contains invalid symbols: 'x"
    "x" ≠ imitation ∧
      (lineOf 4 1 "x").render = "x -> ERROR: Statement contains invalid symbols: 'x'" ∧
      (lineOf 4 1 "x").render ≠ (lineOf 4 2 imitation).render := by
  intro imitation
  have hne : "x" ≠ imitation := by decide
  exact ⟨hne, by decide +kernel, lines_unambiguous.2.1 4 4 1 2 "x" imitation hne⟩

end Batch

end Reckoner
