import Reckoner.Proofs.Postfix.Scan

namespace Reckoner

/-!
# No literal is lost

Literals go out as they come, and what is released later are operators only.  So the output of a
conversion has the literals of the statement, in their order and as they are written.

* `Lexeme.literal?`, `Postfix.Token.literal?`: the text of a literal.
* `Postfix.literals_of_ofLexemes`: the literals of the output are those of the lexemes.
* `Postfix.mem_of_evaluate_invalidLiteral`: a literal that has no value is one of them.
-/

/-- The text of a literal. -/
def Lexeme.literal? : Lexeme → Option String
  | .literal text => some text
  | _ => none

namespace Postfix

/-- The text of a literal. -/
def Token.literal? : Token → Option String
  | .literal text => some text
  | .operator _ => none

namespace Conversion

/-- What is released are no literals. -/
theorem literals_release (condition : Operator → Bool) (c : Conversion) :
    (release condition c.output c.pending).output.filterMap Token.literal? =
      c.output.filterMap Token.literal? := by
  obtain ⟨ops, rest, hpending, hops, hstop⟩ := exists_release condition c.pending
  have hnone : ((ops.map Token.operator).reverse).filterMap Token.literal? = [] := by
    rw [List.filterMap_eq_nil_iff]
    intro token htoken
    obtain ⟨o, _, rfl⟩ := List.mem_map.1 (List.mem_reverse.1 htoken)
    rfl
  rw [hpending, release_append hops hstop, List.filterMap_append, hnone, List.nil_append]

/-- A lexeme brings the literal that it is, if it is one. -/
theorem literals_advance (c : Conversion) (l : Lexeme) :
    (c.advance l).output.filterMap Token.literal? =
      l.literal?.toList ++ c.output.filterMap Token.literal? := by
  cases l with
  | literal text => rfl
  | opening => rfl
  | operator o => exact literals_release _ c
  | closing => exact literals_release _ c

/-- Lexemes bring their literals one by one; the last one comes to be the first. -/
theorem literals_foldl_advance (c : Conversion) (ls : List Lexeme) :
    (ls.foldl advance c).output.filterMap Token.literal? =
      (ls.filterMap Lexeme.literal?).reverse ++ c.output.filterMap Token.literal? := by
  induction ls generalizing c with
  | nil => rfl
  | cons l ls ih =>
    rw [List.foldl_cons, ih, literals_advance]
    cases hl : l.literal? with
    | none =>
      rw [List.filterMap_cons_none hl]
      rfl
    | some text =>
      rw [List.filterMap_cons_some hl, List.reverse_cons, List.append_assoc]
      rfl

end Conversion

/-- **No literal is lost** in a conversion, and none comes to another place among the others. -/
theorem literals_of_ofLexemes {ls : List Lexeme} {tokens : List Token}
    (h : ofLexemes ls = .ok tokens) :
    tokens.filterMap Token.literal? = ls.filterMap Lexeme.literal? := by
  obtain ⟨_, _, rfl⟩ := ofLexemes_eq_ok h
  have hscan := Conversion.literals_foldl_advance .start ls
  have hstart : Conversion.start.output.filterMap Token.literal? = [] := rfl
  rw [hstart, List.append_nil] at hscan
  rw [List.filterMap_reverse, Conversion.literals_release, hscan, List.reverse_reverse]

/-- The literals of the output are lexemes of the statement. -/
theorem mem_of_ofLexemes {ls : List Lexeme} {tokens : List Token} {text : String}
    (h : ofLexemes ls = .ok tokens) (htext : .literal text ∈ tokens) : .literal text ∈ ls := by
  have hmem : text ∈ ls.filterMap Lexeme.literal? := by
    rw [← literals_of_ofLexemes h]
    exact List.mem_filterMap.2 ⟨.literal text, htext, rfl⟩
  obtain ⟨l, hl, hliteral⟩ := List.mem_filterMap.1 hmem
  cases l with
  | literal other =>
    obtain rfl : other = text := Option.some.inj hliteral
    exact hl
  | _ => cases hliteral

/-! ### Literals without a value -/

/-- A run that stops at a literal has this literal among its tokens. -/
theorem mem_of_run_invalidLiteral {stack : List Binary64} {tokens : List Token} {text : String}
    (h : run stack tokens = .error (.invalidLiteral text)) : .literal text ∈ tokens := by
  induction tokens generalizing stack with
  | nil => cases h
  | cons token tokens ih =>
    rw [run] at h
    cases hstep : step stack token with
    | ok next =>
      rw [hstep] at h
      exact List.mem_cons_of_mem _ (ih h)
    | error e =>
      rw [hstep] at h
      obtain rfl : e = .invalidLiteral text := Except.error.inj h
      cases token with
      | literal other =>
        rw [step, literalValue] at hstep
        cases hvalue : literalValue? other with
        | some v =>
          rw [hvalue] at hstep
          cases hstep
        | none =>
          rw [hvalue] at hstep
          cases hstep
          exact List.mem_cons_self
      | operator o =>
        rcases stack with _ | ⟨right, _ | ⟨left, rest⟩⟩ <;> cases hstep

/-- **A literal without a value** that stops an evaluation is one of the tokens. -/
theorem mem_of_evaluate_invalidLiteral {tokens : List Token} {text : String}
    (h : evaluate tokens = .error (.invalidLiteral text)) : .literal text ∈ tokens := by
  unfold evaluate at h
  cases hrun : run [] tokens with
  | error e =>
    rw [hrun] at h
    obtain rfl : e = .invalidLiteral text := Except.error.inj h
    exact mem_of_run_invalidLiteral hrun
  | ok stack =>
    rw [hrun] at h
    rcases stack with _ | ⟨value, _ | ⟨next, rest⟩⟩ <;> cases h

end Postfix

end Reckoner
