import Mathlib.Algebra.BigOperators.Group.List.Basic
import Mathlib.Algebra.Ring.Int.Defs
import Reckoner.Proofs.Postfix.Scan

namespace Reckoner

/-!
# Counting operands

A literal brings a value, an operator takes two and gives one back.  So the number of values left at
the end of an evaluation is the number of literals less that of operators, and the conversion, which
only changes their order, keeps this difference.

* `Lexeme.weight`, `Postfix.Token.weight`: one for a literal, minus one for an operator.
* `Postfix.length_run`: evaluation changes the height of the stack by the weight of its tokens.
* `Postfix.weight_of_ofLexemes`: the output of a conversion weighs as much as its lexemes.
-/

/-- How many values a lexeme adds to those on the stack. -/
def Lexeme.weight : Lexeme → Int
  | .literal _ => 1
  | .operator _ => -1
  | _ => 0

namespace Postfix

/-- How many values a token adds to those on the stack. -/
def Token.weight : Token → Int
  | .literal _ => 1
  | .operator _ => -1

/-- How many values what waits will add to those on the stack. -/
def Pending.weight : Pending → Int
  | .opening => 0
  | .operator _ => -1

/-! ### Evaluation -/

/-- One token changes the height of the stack by its weight. -/
theorem length_step {stack stack' : List Binary64} {token : Token}
    (h : step stack token = .ok stack') : (stack'.length : Int) = stack.length + token.weight := by
  cases token with
  | literal text =>
    rw [step] at h
    cases hv : literalValue text with
    | error e =>
      rw [hv] at h
      exact absurd h (by simp [bind, Except.bind])
    | ok v =>
      rw [hv] at h
      cases h
      simp [Token.weight]
  | operator o =>
    rcases stack with _ | ⟨right, _ | ⟨left, rest⟩⟩
    · simp [step] at h
    · simp [step] at h
    · -- Two values are taken and one is put back.
      simp only [step, Except.ok.injEq] at h
      subst h
      simp only [List.length_cons, Token.weight]
      omega

/-- Several tokens change the height of the stack by their weights. -/
theorem length_run {stack stack' : List Binary64} {tokens : List Token}
    (h : run stack tokens = .ok stack') :
    (stack'.length : Int) = stack.length + (tokens.map Token.weight).sum := by
  induction tokens generalizing stack with
  | nil =>
    cases h
    simp
  | cons token rest ih =>
    rw [run] at h
    cases hstep : step stack token with
    | error e => simp [hstep] at h
    | ok next =>
      rw [hstep] at h
      have htail := ih h
      have hhead := length_step hstep
      rw [List.map_cons, List.sum_cons]
      omega

/-- A sequence with a value has one literal more than it has operators. -/
theorem weight_of_evaluate {tokens : List Token} {v : Binary64} (h : evaluate tokens = .ok v) :
    (tokens.map Token.weight).sum = 1 := by
  rw [evaluate] at h
  cases hrun : run [] tokens with
  | error e => simp [hrun] at h
  | ok stack =>
    have hlen := length_run hrun
    rw [hrun] at h
    rcases stack with _ | ⟨value, _ | ⟨next, rest⟩⟩
    · simp [result] at h
    · simpa using hlen.symm
    · simp [result] at h

/-! ### Conversion -/

namespace Conversion

/-- The weight of what has gone out and of what waits. -/
def weight (c : Conversion) : Int :=
  (c.output.map Token.weight).sum + (c.pending.map Pending.weight).sum

/-- What goes out weighs as much as it did on the stack. -/
theorem weight_release (condition : Operator → Bool) (c : Conversion) :
    (release condition c.output c.pending).weight = c.weight := by
  obtain ⟨ops, rest, hpending, hops, hstop⟩ := exists_release condition c.pending
  -- An operator weighs the same wherever it is.
  have hweights : (ops.map (Token.weight ∘ Token.operator)).sum =
      (ops.map (Pending.weight ∘ Pending.operator)).sum := rfl
  rw [weight, weight, hpending, release_append hops hstop]
  simp only [List.map_append, List.map_reverse, List.sum_append, List.sum_reverse, List.map_map,
    hweights]
  omega

/-- A lexeme adds its weight. -/
theorem weight_advance (c : Conversion) (l : Lexeme) :
    (c.advance l).weight = c.weight + l.weight := by
  cases l with
  | literal text =>
    simp only [advance, weight, Lexeme.weight, List.map_cons, List.sum_cons, Token.weight]
    omega
  | opening => simp [advance, weight, Lexeme.weight, Pending.weight]
  | operator o =>
    have hrelease := weight_release (fun p => o.precedence ≤ p.precedence) c
    simp only [weight] at hrelease
    simp only [advance, weight, Lexeme.weight, List.map_cons, List.sum_cons, Pending.weight]
    omega
  | closing =>
    have hrelease := weight_release (fun _ => true) c
    rw [weight] at hrelease
    -- The bracket that is dropped weighs nothing.
    have htail :
        ((release (fun _ => true) c.output c.pending).pending.tail.map Pending.weight).sum =
        ((release (fun _ => true) c.output c.pending).pending.map Pending.weight).sum := by
      rcases release_all c with ⟨h, _⟩ | ⟨rest, h, _⟩
      · rw [h]; rfl
      · rw [h]; simp [Pending.weight]
    simp only [advance, weight, Lexeme.weight]
    rw [htail, hrelease]
    simp [weight]

/-- Lexemes add their weights. -/
theorem weight_foldl_advance (c : Conversion) (ls : List Lexeme) :
    (ls.foldl advance c).weight = c.weight + (ls.map Lexeme.weight).sum := by
  induction ls generalizing c with
  | nil => simp
  | cons l ls ih =>
    rw [List.foldl_cons, ih, weight_advance, List.map_cons, List.sum_cons]
    omega

end Conversion

/-- The output of a conversion weighs as much as the lexemes. -/
theorem weight_of_ofLexemes {ls : List Lexeme} {tokens : List Token}
    (h : ofLexemes ls = .ok tokens) :
    (tokens.map Token.weight).sum = (ls.map Lexeme.weight).sum := by
  obtain ⟨_, hdepth, rfl⟩ := ofLexemes_eq_ok h
  have hscan := Conversion.weight_foldl_advance .start ls
  have hopenings := Conversion.openings_foldl_advance .start ls
  generalize ls.foldl Conversion.advance .start = c at hscan hopenings ⊢
  have hzero : c.openings = 0 := hopenings.trans hdepth
  have hrelease := Conversion.weight_release (fun _ => true) c
  rcases Conversion.release_all c with ⟨hpending, _⟩ | ⟨rest, _, hpos⟩
  · -- Nothing waits any more, so all the weight is in the output.
    have hstart : Conversion.weight .start = 0 := rfl
    rw [Conversion.weight, hpending, hscan, hstart] at hrelease
    simpa using hrelease
  · omega

end Postfix

end Reckoner
