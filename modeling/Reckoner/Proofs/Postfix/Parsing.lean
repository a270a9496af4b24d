import Reckoner.Proofs.Expression.Grammar
import Reckoner.Proofs.Postfix.Scan

namespace Reckoner

open Expression

/-!
# The conversion parses

On lexemes that derive from the grammar the conversion finds the tree of the derivation and gives
its postorder.  The invariant links the stack and the output to the part of the tree that is known:
above what lay on the stack before there are just the operators that still wait for their right
operands to be complete, and if they all went out now, the output would have grown by the postorder.

* `Expression.Category.bound`: the precedence from which on operators wait above a derivation.
* `Postfix.Conversion.Reads`: the invariant.
* `Postfix.Conversion.exists_reads_of_derives`: it holds after every derivation.
* `Postfix.Conversion.firstFault_of_completes`: nothing is wrong with complete lexemes.
* `Postfix.convert_evaluate_of_derives`: conversion gives the postorder, evaluation the value.
-/

/-- No operator that waits above the lexemes of a category is weaker than this. -/
def Expression.Category.bound : Category → Nat
  | .expr => 1
  | .term => 2
  | .factor => 3

/-- Signs of sums bind as strongly as the category of expressions asks for. -/
theorem Operator.precedence_of_sum {o : Operator} (h : o = .plus ∨ o = .minus) :
    o.precedence = 1 := by
  rcases h with rfl | rfl <;> rfl

/-- Signs of products bind as strongly as the category of terms asks for. -/
theorem Operator.precedence_of_product {o : Operator} (h : o = .times ∨ o = .over) :
    o.precedence = 2 := by
  rcases h with rfl | rfl <;> rfl

/-- There are two strengths of operators. -/
theorem Operator.precedence_le (o : Operator) : 1 ≤ o.precedence ∧ o.precedence ≤ 2 := by
  cases o <;> decide

namespace Postfix.Conversion

/-! ### The invariant -/

/-- On top of the stack there is no operator of the given strength or a greater one. -/
def Weaker (strength : Nat) (pending : List Pending) : Prop :=
  ∀ o rest, pending = .operator o :: rest → o.precedence < strength

/-- From a state on, lexemes have been read as an expression: the operators `ops` have come to wait
    above what waited before, the output is `out`, and if the operators went out now, the output
    would have grown by the postorder of the expression. -/
structure Reads (ls : List Lexeme) (x : Expression) (pending : List Pending) (output : List Token)
    (ops : List Operator) (out : List Token) : Prop where
  scan : ls.foldl advance ⟨pending, output⟩ = ⟨ops.map .operator ++ pending, out⟩
  order : (ops.map Token.operator).reverse ++ out = x.postorder.reverse ++ output

/-- An operator makes one expression of two.  All that is as strong as the operator goes out, which
    completes the left operand; then the operator waits below what waits for the right one. -/
theorem Reads.operation {ls ms : List Lexeme} {x y : Expression} {o : Operator}
    {pending : List Pending} {output out out' : List Token} {ops ops' : List Operator}
    (hleft : Reads ls x pending output ops out) (hops : ∀ p ∈ ops, o.precedence ≤ p.precedence)
    (hweaker : Weaker o.precedence pending)
    (hright : Reads ms y (.operator o :: pending) ((ops.map .operator).reverse ++ out) ops' out') :
    Reads (ls ++ .operator o :: ms) (.operation o x y) pending output (ops' ++ [o]) out' where
  scan := by
    have hstop : Stops (fun p => o.precedence ≤ p.precedence) pending := by
      intro p rest hp
      simpa using hweaker p rest hp
    have hrelease := release_append (by simpa using hops) hstop out
    rw [List.foldl_append, hleft.scan, List.foldl_cons]
    simp only [advance]
    rw [hrelease, hright.scan]
    simp
  order := by
    have horder := hright.order
    rw [hleft.order] at horder
    rw [List.map_append, List.reverse_append, List.append_assoc, horder]
    simp [postorder]

/-- Brackets take the operators between them along, so an expression in brackets is complete. -/
theorem Reads.bracket {ls : List Lexeme} {x : Expression} {pending : List Pending}
    {output out : List Token} {ops : List Operator}
    (h : Reads ls x (.opening :: pending) output ops out) :
    Reads (.opening :: ls ++ [.closing]) x pending output [] (x.postorder.reverse ++ output) where
  scan := by
    have hrelease : release (fun _ => true) out (ops.map .operator ++ .opening :: pending) =
        ⟨.opening :: pending, (ops.map .operator).reverse ++ out⟩ :=
      release_append (by simp) (by simp [Stops]) out
    rw [List.cons_append, List.foldl_cons, List.foldl_append]
    simp only [advance]
    rw [h.scan, List.foldl_cons]
    simp only [advance]
    rw [hrelease, h.order]
    rfl
  order := rfl

/-- **The invariant of the scan.**  Over a derivation only operators come to wait, none weaker than
    its category allows, and together with what has gone out they make up its postorder. -/
theorem exists_reads_of_derives {c : Category} {ls : List Lexeme} {x : Expression}
    (h : Derives c ls x) (pending : List Pending) (output : List Token)
    (hweaker : Weaker c.bound pending) :
    ∃ ops out, (∀ p ∈ ops, c.bound ≤ p.precedence) ∧ Reads ls x pending output ops out := by
  induction h generalizing pending output with
  | @literal text _ => exact ⟨[], .literal text :: output, by simp, rfl, rfl⟩
  | @bracket ls x _ ih =>
    obtain ⟨ops, out, _, hread⟩ := ih (.opening :: pending) output (by simp [Weaker])
    exact ⟨[], x.postorder.reverse ++ output, by simp, hread.bracket⟩
  | factor _ ih =>
    -- No operator is so strong that a factor would take it along.
    have hfactor : Weaker Category.factor.bound pending := by
      intro p rest _
      exact Nat.lt_succ_of_le p.precedence_le.2
    obtain ⟨ops, out, hops, hread⟩ := ih pending output hfactor
    refine ⟨ops, out, ?_, hread⟩
    intro p hp
    exact Nat.le_trans (by decide) (hops p hp)
  | @product ls ms x y o sign _ _ ihl ihr =>
    have ho : o.precedence = 2 := Operator.precedence_of_product sign
    obtain ⟨ops, out, hops, hleft⟩ := ihl pending output hweaker
    have hfactor : Weaker Category.factor.bound (.operator o :: pending) := by
      intro p rest _
      exact Nat.lt_succ_of_le p.precedence_le.2
    obtain ⟨ops', out', hops', hright⟩ := ihr _ ((ops.map .operator).reverse ++ out) hfactor
    refine ⟨ops' ++ [o], out', ?_, hleft.operation ?_ ?_ hright⟩
    · intro p hp
      rcases List.mem_append.1 hp with hp | hp
      · exact Nat.le_trans (by decide) (hops' p hp)
      · obtain rfl := List.mem_singleton.1 hp
        exact ho.ge
    · rw [ho]
      exact hops
    · rw [ho]
      exact hweaker
  | term _ ih =>
    have hterm : Weaker Category.term.bound pending := by
      intro p rest hp
      exact Nat.lt_succ_of_lt (hweaker p rest hp)
    obtain ⟨ops, out, hops, hread⟩ := ih pending output hterm
    refine ⟨ops, out, ?_, hread⟩
    intro p hp
    exact Nat.le_trans (by decide) (hops p hp)
  | @sum ls ms x y o sign _ _ ihl ihr =>
    have ho : o.precedence = 1 := Operator.precedence_of_sum sign
    obtain ⟨ops, out, hops, hleft⟩ := ihl pending output hweaker
    have hterm : Weaker Category.term.bound (.operator o :: pending) := by
      intro p rest hp
      cases hp
      rw [ho]
      decide
    obtain ⟨ops', out', _, hright⟩ := ihr _ ((ops.map .operator).reverse ++ out) hterm
    refine ⟨ops' ++ [o], out', ?_, hleft.operation ?_ ?_ hright⟩
    · intro p _
      exact p.precedence_le.1
    · rw [ho]
      exact hops
    · rw [ho]
      exact hweaker

/-! ### Nothing is wrong -/

/-- An operand is wanted at the start, behind an operator and behind an opening bracket. -/
def wants (before : Option Lexeme) : Bool :=
  before.isNone || isOperator before || before = some .opening

/-- Nothing is wrong with lexemes that complete a statement. -/
theorem firstFault_of_completes {before : Option Lexeme} {depth : Nat} {ls : List Lexeme}
    (h : completes (wants before) depth ls = true) : firstFault before depth ls = none := by
  induction ls generalizing before depth with
  | nil => rfl
  | cons l ls ih =>
    cases hw : wants before with
    | true =>
      rw [hw] at h
      cases l with
      | literal text => exact @ih (some (.literal text)) depth h
      | opening =>
        simp only [wants] at hw
        simp only [firstFault, fault?, hw, if_true]
        exact @ih (some .opening) (depth + 1) h
      | operator o => simp [completes] at h
      | closing => simp [completes] at h
    | false =>
      rw [hw] at h
      simp only [wants, Bool.or_eq_false_iff] at hw
      cases l with
      | literal text => simp [completes] at h
      | opening => simp [completes] at h
      | operator o =>
        -- What is behind an operator starts an operand, so there is something and no operator.
        have hnext : ls.head?.isNone = false ∧ isOperator ls.head? = false := by
          cases ls with
          | nil => simp [completes] at h
          | cons m ls => cases m <;> simp [completes, isOperator] at h ⊢
        simp only [firstFault, fault?, hw.1.1, hnext.1, hnext.2, Bool.or_false, Bool.false_eq_true,
          if_false]
        exact @ih (some (.operator o)) depth h
      | closing =>
        cases depth with
        | zero => simp [completes] at h
        | succ outer =>
          simp only [firstFault, fault?, hw.1.2, Bool.false_eq_true, if_false, Nat.succ_ne_zero]
          exact @ih (some .closing) outer h

end Postfix.Conversion

namespace Postfix

/-- Lexemes that derive from the grammar become the postorder of their tree. -/
theorem ofLexemes_of_derives {ls : List Lexeme} {x : Expression} (h : Derives .expr ls x) :
    ofLexemes ls = .ok x.postorder := by
  have hfault : Conversion.firstFault none 0 ls = none :=
    Conversion.firstFault_of_completes ((derivable_iff ls).1 ⟨x, h⟩).2
  obtain ⟨ops, out, _, hread⟩ :=
    Conversion.exists_reads_of_derives h [] [] (by simp [Conversion.Weaker])
  have hrelease : Conversion.release (fun _ => true) out (ops.map .operator ++ []) =
      ⟨[], (ops.map .operator).reverse ++ out⟩ :=
    Conversion.release_append (by simp) (by simp [Conversion.Stops]) out
  rw [ofLexemes_eq, hfault, Conversion.start, hread.scan]
  simp only [Conversion.finish]
  rw [hrelease, hread.order]
  simp

/-- **Statements are parsed and evaluated as the grammar says.**  A statement that spells lexemes of
    the grammar becomes the postorder of their tree; this has the value of the tree, and has none
    only if a literal has none. -/
theorem convert_evaluate_of_derives {s : String} {ls : List Lexeme} {x : Expression}
    (hx : Derives .expr ls x) (hs : Statement.Spells s ls) :
    convert (some s) = .ok x.postorder ∧ evaluate x.postorder = x.value ∧
      ((∃ e, x.value = .error e) ↔
        ∃ text, Lexeme.literal text ∈ ls ∧ literalValue? text = none) := by
  refine ⟨?_, evaluate_postorder x, ?_⟩
  · rw [convert, Statement.tokenize_of_spells hx.isProper hx.separated hs]
    exact ofLexemes_of_derives hx
  · rw [value_eq_error_iff]
    simp only [hx.mem_literals]

/-- A chain is taken from left to right, and brackets around a literal leave no trace. -/
theorem convert_evaluate_of_derives_chain :
    Derives .expr [.literal "8", .operator .minus, .literal "4", .operator .minus, .opening,
        .literal "2", .closing]
      (.operation .minus (.operation .minus (.literal "8") (.literal "4")) (.literal "2")) ∧
    Statement.Spells "8 - 4-( 2)" [.literal "8", .operator .minus, .literal "4", .operator .minus,
      .opening, .literal "2", .closing] ∧
    convert (some "8 - 4-( 2)") =
      .ok [.literal "8", .literal "4", .operator .minus, .literal "2", .operator .minus] := by
  have hproper : ∀ text : String, text.toList ≠ [] →
      text.toList.all Statement.isLiteralChar = true → (Lexeme.literal text).IsProper :=
    fun _ hne hall => ⟨hne, List.all_eq_true.1 hall⟩
  have hderives : Derives .expr [.literal "8", .operator .minus, .literal "4", .operator .minus,
      .opening, .literal "2", .closing]
      (.operation .minus (.operation .minus (.literal "8") (.literal "4")) (.literal "2")) :=
    .sum (.inr rfl)
      (.sum (.inr rfl) (.term (.factor (.literal (hproper "8" (by decide) (by decide)))))
        (.factor (.literal (hproper "4" (by decide) (by decide)))))
      (.factor (.bracket (.term (.factor (.literal (hproper "2" (by decide) (by decide)))))))
  have hspells : Statement.Spells "8 - 4-( 2)" [.literal "8", .operator .minus, .literal "4",
      .operator .minus, .opening, .literal "2", .closing] := by
    unfold Statement.Spells
    decide
  exact ⟨hderives, hspells, (convert_evaluate_of_derives hderives hspells).1⟩

end Postfix

end Reckoner
