import Reckoner.Proofs.Calculator.Outcome
import Reckoner.Proofs.Postfix.Parsing
import Reckoner.Proofs.Postfix.Weight

namespace Reckoner

open Expression

/-!
# Which statements with a value derive from the grammar

The conversion looks at neighbours and brackets, the evaluation counts operands.  What one lets pass
the other stops, with one exception: a missing operand, as in an empty bracket or before an operator
that follows an opening bracket, is made up for by a literal directly behind a closing bracket.

* `Postfix.completes_of_weight`: among the scanned lexemes whose literals are placed well, those
  that leave one value are complete.
* `derivable_iff_of_calculate`: a statement with a value derives from the grammar exactly if no
  literal stands directly behind a closing bracket.
-/

namespace Postfix

open Conversion

/-- An operand is wanted before a literal that may stand where it does. -/
theorem wants_of_mayFollow {before : Option Lexeme} {text : String}
    (h : ∀ a, before = some a → a.MayFollow (.literal text)) : wants before = true := by
  cases before with
  | none => rfl
  | some a =>
    obtain ⟨hlit, hclosing⟩ := h a rfl rfl
    cases a with
    | literal text => simp [Lexeme.isLiteral] at hlit
    | operator o => rfl
    | opening => rfl
    | closing => exact absurd rfl hclosing

/-- **What is missing shows in the count.**  Where an operand is wanted, the lexemes of a scan
    without faults leave at most one value, and elsewhere at most none; and only complete ones leave
    so many. -/
theorem completes_of_weight {before : Option Lexeme} {depth : Nat} {ls : List Lexeme}
    (hfault : firstFault before depth ls = none)
    (hchain : (before.toList ++ ls).IsChain Lexeme.MayFollow)
    (hdepth : ls.foldl depthAfter depth = 0) :
    (ls.map Lexeme.weight).sum ≤ (if wants before then 1 else 0) ∧
      ((ls.map Lexeme.weight).sum = (if wants before then 1 else 0) →
        completes (wants before) depth ls = true) := by
  induction ls generalizing before depth with
  | nil =>
    obtain rfl : depth = 0 := hdepth
    cases wants before <;> simp [completes]
  | cons l ls ih =>
    have hl := firstFault_cons_eq_none hfault
    have hrest : ((some l).toList ++ ls).IsChain Lexeme.MayFollow :=
      (List.isChain_append.1 hchain).2.1
    obtain ⟨hle, heq⟩ := ih hl.2 hrest hdepth
    rw [List.map_cons, List.sum_cons]
    cases l with
    | literal text =>
      -- A literal is placed where an operand is wanted, and none is wanted behind it.
      have hw : wants before = true := by
        apply wants_of_mayFollow
        rintro a rfl
        exact (List.isChain_cons_cons.1 hchain).1
      have hw' : wants (some (.literal text)) = false := rfl
      rw [hw'] at hle heq
      rw [hw]
      simp only [Lexeme.weight, if_true, Bool.false_eq_true, if_false] at hle heq ⊢
      exact ⟨by omega, fun h => heq (by omega)⟩
    | opening =>
      have hw : wants before = true := by
        have hopening := hl.1
        simp only [fault?] at hopening
        by_contra hnot
        rw [wants] at hnot
        rw [if_neg hnot] at hopening
        exact absurd hopening (by simp)
      have hw' : wants (some .opening) = true := rfl
      rw [hw'] at hle heq
      rw [hw]
      simp only [Lexeme.weight, if_true] at hle heq ⊢
      exact ⟨by omega, fun h => heq (by omega)⟩
    | operator o =>
      have hw' : wants (some (.operator o)) = true := rfl
      rw [hw'] at hle heq
      simp only [Lexeme.weight, if_true] at hle heq ⊢
      cases wants before with
      | true =>
        -- An operand is missing before the operator, so the count falls short.
        exact ⟨by simp; omega, fun h => by simp at h; omega⟩
      | false => exact ⟨by simp; omega, fun h => heq (by simp at h; omega)⟩
    | closing =>
      have hw' : wants (some .closing) = false := rfl
      rw [hw'] at hle heq
      simp only [Lexeme.weight, Bool.false_eq_true, if_false] at hle heq ⊢
      cases wants before with
      | true =>
        -- The bracket is empty, so the count falls short.
        exact ⟨by simp; omega, fun h => by simp at h; omega⟩
      | false =>
        obtain ⟨outer, rfl⟩ := Nat.exists_eq_succ_of_ne_zero
          (Nat.ne_of_gt (depth_pos_of_fault? hl.1))
        exact ⟨by simp; omega, fun h => heq (by simp at h; omega)⟩

end Postfix

/-- **A statement with a value is well-formed but for the place of its literals.**  It derives from
    the grammar exactly if no literal stands directly behind a closing bracket. -/
theorem derivable_iff_of_calculate {p : Precision} {statement : Option String} {answer : Answer}
    (h : (calculate p statement).outcome = .ok answer) :
    ∃ ls, Statement.tokenize statement = .ok ls ∧
      (Derivable ls ↔ ∀ text, ¬ [Lexeme.closing, .literal text] <:+: ls) := by
  obtain ⟨tokens, hconvert, hevaluate, _⟩ := calculate_eq_ok h
  obtain ⟨s, rfl⟩ : ∃ s, statement = some s := by
    cases statement with
    | none => simp [Postfix.convert, Statement.tokenize] at hconvert
    | some s => exact ⟨s, rfl⟩
  rw [Postfix.convert] at hconvert
  cases htokenize : Statement.tokenize (some s) with
  | error e => simp [htokenize] at hconvert
  | ok ls =>
    rw [htokenize] at hconvert
    refine ⟨ls, rfl, ?_⟩
    rw [derivable_iff]
    constructor
    · rintro ⟨_, hcompletes⟩ text ⟨before, after, hls⟩
      have hplaced := List.isChain_iff_forall_rel_of_append_cons_cons.1
        (isChain_of_completes hcompletes)
      have hpair : Lexeme.MayFollow .closing (.literal text) :=
        @hplaced _ _ before after (by rw [← hls]; simp)
      exact (hpair rfl).2 rfl
    · intro hplaced
      refine ⟨Statement.isProper_of_tokenize htokenize, ?_⟩
      obtain ⟨hfault, hdepth, _⟩ := Postfix.ofLexemes_eq_ok hconvert
      -- Lexing keeps literals apart, so only a closing bracket could stand before one.
      have hchain : ls.IsChain Lexeme.MayFollow := by
        rw [List.isChain_iff_forall_rel_of_append_cons_cons]
        intro a b before after hls hb
        have hsep : Lexeme.Separated ls := Statement.separated_of_tokenize htokenize
        rw [Lexeme.Separated, List.isChain_iff_forall_rel_of_append_cons_cons] at hsep
        refine ⟨by simpa [hb] using hsep hls, ?_⟩
        rintro rfl
        cases b with
        | literal text => exact hplaced text ⟨before, after, by simp [hls]⟩
        | operator o => simp [Lexeme.isLiteral] at hb
        | opening => simp [Lexeme.isLiteral] at hb
        | closing => simp [Lexeme.isLiteral] at hb
      have hweight : (ls.map Lexeme.weight).sum = 1 := by
        rw [← Postfix.weight_of_ofLexemes hconvert]
        exact Postfix.weight_of_evaluate hevaluate
      exact (Postfix.completes_of_weight hfault hchain hdepth).2 hweight

/-- An empty bracket with a literal behind it has a value and does not derive from the grammar. -/
theorem derivable_iff_of_calculate_empty_bracket :
    ∃ answer, (calculate Precision.standard (some "()1")).outcome = .ok answer ∧
      answer.formatted = "1" ∧
      ∃ ls, Statement.tokenize (some "()1") = .ok ls ∧ ¬ Derivable ls := by
  have hformatted : (calculate Precision.standard (some "()1")).formatted? = some "1" := by
    decide +kernel
  rw [Calculation.formatted?] at hformatted
  cases houtcome : (calculate Precision.standard (some "()1")).outcome with
  | error failure => simp [houtcome] at hformatted
  | ok answer =>
    rw [houtcome] at hformatted
    obtain ⟨ls, hls, hiff⟩ := derivable_iff_of_calculate houtcome
    have hlexemes : Statement.tokenize (some "()1") =
        .ok [.opening, .closing, .literal "1"] := rfl
    refine ⟨answer, rfl, Option.some.inj hformatted, ls, hls, ?_⟩
    rw [hls] at hlexemes
    cases hlexemes
    intro hderivable
    exact hiff.1 hderivable "1" ⟨[.opening], [], rfl⟩

end Reckoner
