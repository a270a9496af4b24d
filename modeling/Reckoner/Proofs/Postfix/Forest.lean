import Mathlib.Data.List.Forall2
import Reckoner.Proofs.Expression.Tree
import Reckoner.Proofs.Postfix.Origins
import Reckoner.Proofs.Postfix.Weight

namespace Reckoner

/-!
# Evaluation parses

The stack of an evaluation holds the values of trees, and the tokens so far are the postorders of
these trees one after the other.  So a sequence has a value exactly if it is the postorder of one
tree with parseable literals, and this tree can be read off the sequence.

* `Postfix.grow`: a stack of trees in place of a stack of values.
* `Postfix.postorder_injective`: a sequence is the postorder of one tree at most.
* `Postfix.Holds`: the invariant, trees with the values on the stack.
* `Postfix.exists_forest_of_run`: it holds after every run.
* `Postfix.faultAt? tokens i`: what is wrong with the token at a position.
* `Postfix.run_cases`: a run stops at the first position with a fault, or at none.
* `Postfix.Rejects tokens e`: the reasons why a sequence has no value.
* `Postfix.evaluate_parses`: values, trees and errors of a sequence.
-/

namespace Postfix

open Expression

/-! ### A stack of trees -/

/-- The trees after one token, the last one first: a literal is a tree, and an operator makes one
    tree of the two on top. -/
def grow (forest : List Expression) : Token → Option (List Expression)
  | .literal text => some (.literal text :: forest)
  | .operator o =>
    match forest with
    | right :: left :: rest => some (.operation o left right :: rest)
    | _ => none

/-- The postorders of trees one after the other. -/
def listing (forest : List Expression) : List Token := forest.reverse.flatMap postorder

/-- One more tree comes behind the others. -/
theorem listing_cons (x : Expression) (forest : List Expression) :
    listing (x :: forest) = listing forest ++ x.postorder := by
  unfold listing
  rw [List.reverse_cons, List.flatMap_append, List.flatMap_singleton]

/-- **One token** is added to the listing. -/
theorem listing_grow {forest forest' : List Expression} {token : Token}
    (h : grow forest token = some forest') : listing forest' = listing forest ++ [token] := by
  cases token with
  | literal text =>
    obtain rfl := Option.some.inj h
    exact listing_cons _ _
  | operator o =>
    rcases forest with _ | ⟨right, _ | ⟨left, rest⟩⟩
    · cases h
    · cases h
    · obtain rfl := Option.some.inj h
      simp only [listing_cons, postorder, List.append_assoc]

/-- **Several tokens** are added one by one. -/
theorem listing_foldlM_grow {forest forest' : List Expression} {tokens : List Token}
    (h : tokens.foldlM grow forest = some forest') :
    listing forest' = listing forest ++ tokens := by
  induction tokens generalizing forest with
  | nil =>
    obtain rfl := Option.some.inj h
    exact (List.append_nil _).symm
  | cons token tokens ih =>
    rw [List.foldlM_cons] at h
    obtain ⟨next, hnext, hrest⟩ := Option.bind_eq_some_iff.1 h
    rw [ih hrest, listing_grow hnext, List.append_assoc, List.singleton_append]

/-- A postorder puts its tree on the stack. -/
theorem foldlM_grow_postorder (x : Expression) (forest : List Expression) (rest : List Token) :
    (x.postorder ++ rest).foldlM grow forest = rest.foldlM grow (x :: forest) := by
  induction x generalizing forest rest with
  | literal text => rfl
  | operation o left right ihl ihr =>
    rw [postorder, List.append_assoc, List.append_assoc, ihl, ihr]
    rfl

/-- **A sequence is the postorder of one tree at most.** -/
theorem postorder_injective {x y : Expression} (h : x.postorder = y.postorder) : x = y := by
  have hx := foldlM_grow_postorder x [] []
  have hy := foldlM_grow_postorder y [] []
  rw [h, hy] at hx
  exact (List.cons.inj (Option.some.inj hx)).1.symm

/-! ### Trees and values -/

/-- Trees with the values on a stack. -/
def Holds (forest : List Expression) (stack : List Binary64) : Prop :=
  List.Forall₂ (fun x v => x.value = .ok v) forest stack

/-- **One step of the evaluation** is one step of the trees. -/
theorem exists_grow_of_step {forest : List Expression} {stack stack' : List Binary64}
    {token : Token} (h : Holds forest stack) (hstep : step stack token = .ok stack') :
    ∃ forest', grow forest token = some forest' ∧ Holds forest' stack' := by
  cases token with
  | literal text =>
    rw [step] at hstep
    cases hv : literalValue text with
    | error e =>
      rw [hv] at hstep
      cases hstep
    | ok v =>
      rw [hv] at hstep
      cases hstep
      exact ⟨_, rfl, .cons hv h⟩
  | operator o =>
    rcases stack with _ | ⟨right, _ | ⟨left, rest⟩⟩
    · cases hstep
    · cases hstep
    · cases hstep
      -- The two values on top are those of the two trees on top.
      obtain _ | ⟨hright, _ | ⟨hleft, hrest⟩⟩ := h
      refine ⟨_, rfl, .cons ?_ hrest⟩
      simp only [Expression.value, hleft, hright]

/-- **A run of the evaluation** is a run of the trees. -/
theorem exists_forest_of_run {forest : List Expression} {stack stack' : List Binary64}
    {tokens : List Token} (h : Holds forest stack) (hrun : run stack tokens = .ok stack') :
    ∃ forest', tokens.foldlM grow forest = some forest' ∧ Holds forest' stack' := by
  induction tokens generalizing forest stack with
  | nil =>
    cases hrun
    exact ⟨forest, rfl, h⟩
  | cons token tokens ih =>
    rw [run] at hrun
    cases hstep : step stack token with
    | error e =>
      rw [hstep] at hrun
      cases hrun
    | ok next =>
      rw [hstep] at hrun
      obtain ⟨middle, hmiddle, hnext⟩ := exists_grow_of_step h hstep
      obtain ⟨forest', hforest', hend⟩ := ih hnext hrun
      refine ⟨forest', ?_, hend⟩
      rw [List.foldlM_cons, hmiddle]
      exact hforest'

/-- **What is on the stack** are the values of trees whose postorders make up the tokens. -/
theorem exists_forest_of_run_nil {stack : List Binary64} {tokens : List Token}
    (h : run [] tokens = .ok stack) :
    ∃ forest, listing forest = tokens ∧ Holds forest stack := by
  obtain ⟨forest, hforest, hholds⟩ := exists_forest_of_run List.Forall₂.nil h
  exact ⟨forest, listing_foldlM_grow hforest, hholds⟩

/-- **A value is that of a tree** of which the sequence is the postorder. -/
theorem exists_tree_of_evaluate {tokens : List Token} {v : Binary64}
    (h : evaluate tokens = .ok v) : ∃ x : Expression, x.postorder = tokens ∧ x.value = .ok v := by
  unfold evaluate at h
  cases hrun : run [] tokens with
  | error e =>
    rw [hrun] at h
    cases h
  | ok stack =>
    rw [hrun] at h
    obtain ⟨forest, rfl, hholds⟩ := exists_forest_of_run_nil hrun
    rcases stack with _ | ⟨value, _ | ⟨next, rest⟩⟩
    · cases h
    · cases h
      obtain _ | ⟨hvalue, ⟨⟩⟩ := hholds
      exact ⟨_, (listing_cons _ []).symm, hvalue⟩
    · cases h

/-- The literals of a tree are those of its postorder. -/
theorem mem_postorder_iff {x : Expression} {text : String} :
    .literal text ∈ x.postorder ↔ text ∈ x.literals := by
  induction x with
  | literal other => simp [postorder, literals]
  | operation o left right ihl ihr => simp [postorder, literals, ihl, ihr]

/-! ### Faults -/

/-- The number of literals less that of operators. -/
def excess (tokens : List Token) : Int :=
  (tokens.filterMap Token.literal?).length - (tokens.filterMap Token.operator?).length

/-- Every token counts by its weight. -/
theorem excess_eq_sum_weight (tokens : List Token) :
    excess tokens = (tokens.map Token.weight).sum := by
  induction tokens with
  | nil => rfl
  | cons token tokens ih =>
    rw [List.map_cons, List.sum_cons, ← ih]
    cases token with
    | literal text =>
      simp only [excess, List.filterMap_cons, Token.literal?, Token.operator?, Token.weight,
        List.length_cons]
      omega
    | operator o =>
      simp only [excess, List.filterMap_cons, Token.literal?, Token.operator?, Token.weight,
        List.length_cons]
      omega

/-- From an empty stack a run leaves as many values as there are more literals than operators. -/
theorem length_eq_excess {stack : List Binary64} {tokens : List Token}
    (h : run [] tokens = .ok stack) : (stack.length : Int) = excess tokens := by
  rw [length_run h, excess_eq_sum_weight, List.length_nil, Nat.cast_zero, Int.zero_add]

/-- What is wrong with a token behind some values: it is a literal without a value, or an operator
    behind less than two. -/
def Token.fault? (values : Int) : Token → Option Error
  | .literal text => if literalValue? text = none then some (.invalidLiteral text) else none
  | .operator o => if values < 2 then some (.missingOperands o) else none

/-- What is wrong with the token at a position. -/
def faultAt? (tokens : List Token) (i : Nat) : Option Error :=
  tokens[i]?.bind (Token.fault? (excess (tokens.take i)))

/-- Nothing is wrong behind the last token. -/
theorem faultAt?_of_length_le {tokens : List Token} {i : Nat} (h : tokens.length ≤ i) :
    faultAt? tokens i = none := by
  rw [faultAt?, List.getElem?_eq_none h, Option.bind_none]

/-- What follows makes no difference to what is wrong. -/
theorem faultAt?_append_of_lt {tokens : List Token} {i : Nat} (h : i < tokens.length)
    (rest : List Token) : faultAt? (tokens ++ rest) i = faultAt? tokens i := by
  rw [faultAt?, faultAt?, List.getElem?_append_left h, List.take_append_of_le_length (by omega)]

/-- What is wrong with the last token. -/
theorem faultAt?_concat_length (tokens : List Token) (token : Token) :
    faultAt? (tokens ++ [token]) tokens.length = token.fault? (excess tokens) := by
  rw [faultAt?, List.getElem?_concat_length, List.take_left]
  rfl

/-- A token has a fault, or there is a stack after it. -/
theorem step_cases (stack : List Binary64) (token : Token) :
    (∃ stack', step stack token = .ok stack' ∧ token.fault? stack.length = none) ∨
      ∃ e, step stack token = .error e ∧ token.fault? stack.length = some e := by
  cases token with
  | literal text =>
    simp only [step, Token.fault?, literalValue]
    cases literalValue? text with
    | none => exact .inr ⟨_, rfl, rfl⟩
    | some v => exact .inl ⟨_, rfl, rfl⟩
  | operator o =>
    rcases stack with _ | ⟨right, _ | ⟨left, rest⟩⟩
    · exact .inr ⟨_, rfl, rfl⟩
    · exact .inr ⟨_, rfl, rfl⟩
    · have htwo : ¬ (((right :: left :: rest).length : Nat) : Int) < 2 := by
        simp only [List.length_cons]
        omega
      refine .inl ⟨o.apply left right :: rest, rfl, ?_⟩
      rw [Token.fault?, if_neg htwo]

/-- A run goes on from the stack that the first tokens leave. -/
theorem run_append (stack : List Binary64) (tokens rest : List Token) :
    run stack (tokens ++ rest) =
      match run stack tokens with
      | .ok stack' => run stack' rest
      | .error e => .error e := by
  induction tokens generalizing stack with
  | nil => rfl
  | cons token tokens ih =>
    simp only [List.cons_append, run]
    cases step stack token with
    | error e => rfl
    | ok next => exact ih next

/-- **A run stops at the first fault**, or there is none. -/
theorem run_cases (tokens : List Token) :
    (∃ stack, run [] tokens = .ok stack ∧ ∀ i, faultAt? tokens i = none) ∨
      ∃ i e, run [] tokens = .error e ∧ faultAt? tokens i = some e ∧
        ∀ j < i, faultAt? tokens j = none := by
  induction tokens using List.reverseRecOn with
  | nil => exact .inl ⟨[], rfl, fun i => faultAt?_of_length_le (Nat.zero_le i)⟩
  | append_singleton tokens token ih =>
    rcases ih with ⟨stack, hrun, hnone⟩ | ⟨i, e, hrun, hfault, hfirst⟩
    · -- Nothing is wrong so far, so the last token decides.
      have hbefore : ∀ j < tokens.length, faultAt? (tokens ++ [token]) j = none := by
        intro j hj
        rw [faultAt?_append_of_lt hj]
        exact hnone j
      have hlast := faultAt?_concat_length tokens token
      rw [← length_eq_excess hrun] at hlast
      rcases step_cases stack token with ⟨stack', hstep, hok⟩ | ⟨e, hstep, herror⟩
      · refine .inl ⟨stack', ?_, ?_⟩
        · simp only [run_append, hrun, run, hstep]
        · intro j
          rcases Nat.lt_trichotomy j tokens.length with hlt | rfl | hgt
          · exact hbefore j hlt
          · rw [hlast, hok]
          · apply faultAt?_of_length_le
            rw [List.length_append, List.length_singleton]
            omega
      · refine .inr ⟨tokens.length, e, ?_, by rw [hlast, herror], hbefore⟩
        simp only [run_append, hrun, run, hstep]
    · have hi : i < tokens.length := by
        by_contra hge
        rw [faultAt?_of_length_le (Nat.le_of_not_lt hge)] at hfault
        cases hfault
      refine .inr ⟨i, e, ?_, ?_, ?_⟩
      · simp only [run_append, hrun]
      · rw [faultAt?_append_of_lt hi, hfault]
      · intro j hj
        rw [faultAt?_append_of_lt (by omega)]
        exact hfirst j hj

/-- Why a sequence has no value: the first token with a fault, or no token, or several values that
    are left. -/
inductive Rejects (tokens : List Token) : Error → Prop
  | fault {i : Nat} {e : Error} (found : faultAt? tokens i = some e)
      (first : ∀ j < i, faultAt? tokens j = none) : Rejects tokens e
  | empty (nothing : tokens = []) : Rejects tokens .noOperand
  | remaining {count : Nat} (sound : ∀ i, faultAt? tokens i = none)
      (left : (count : Int) = excess tokens) (several : 1 < count) :
      Rejects tokens (.remainingOperands count)

/-- An evaluation without a value has a reason. -/
theorem rejects_of_evaluate {tokens : List Token} {e : Error} (h : evaluate tokens = .error e) :
    Rejects tokens e := by
  unfold evaluate at h
  rcases run_cases tokens with ⟨stack, hrun, hnone⟩ | ⟨i, e', hrun, hfault, hfirst⟩
  · have hlength := length_eq_excess hrun
    obtain ⟨forest, hlisting, hholds⟩ := exists_forest_of_run_nil hrun
    rw [hrun] at h
    rcases stack with _ | ⟨value, _ | ⟨next, rest⟩⟩
    · cases h
      -- No values are left of no tokens only.
      obtain ⟨⟩ := hholds
      exact .empty hlisting.symm
    · cases h
    · cases h
      exact .remaining hnone hlength (by simp)
  · rw [hrun] at h
    cases h
    exact .fault hfault hfirst

/-- Each reason is the one that is given. -/
theorem evaluate_of_rejects {tokens : List Token} {e : Error} (h : Rejects tokens e) :
    evaluate tokens = .error e := by
  unfold evaluate
  cases h with
  | empty nothing =>
    rw [nothing]
    rfl
  | @fault i _ found first =>
    rcases run_cases tokens with ⟨stack, hrun, hnone⟩ | ⟨k, e', hrun, hfault, hfirst⟩
    · rw [hnone i] at found
      cases found
    · -- There is one first position.
      rcases Nat.lt_trichotomy i k with hlt | rfl | hgt
      · rw [hfirst i hlt] at found
        cases found
      · rw [hfault] at found
        cases found
        rw [hrun]
      · rw [first k hgt] at hfault
        cases hfault
  | @remaining count sound left several =>
    rcases run_cases tokens with ⟨stack, hrun, -⟩ | ⟨k, e', -, hfault, -⟩
    · have hlength := length_eq_excess hrun
      rw [hrun]
      rcases stack with _ | ⟨value, _ | ⟨next, rest⟩⟩
      · simp only [List.length_nil] at hlength
        omega
      · simp only [List.length_cons, List.length_nil] at hlength
        omega
      · have hcount : (value :: next :: rest).length = count := by omega
        rw [← hcount]
        rfl
    · rw [sound k] at hfault
      cases hfault

/-! ### The parser -/

/-- **Evaluation is a parser of postorders.**  A sequence has a value exactly if its literals have
    values and it is the postorder of some tree; then the tree is the only one, and the value is
    that of the tree.  Otherwise the error is that of the first token with a fault, or if there is
    none, that there are no tokens or that several values are left, with their number.  Up to the
    first fault there are as many values on the stack as there are more literals than operators. -/
theorem evaluate_parses (tokens : List Token) :
    ((∃ v, evaluate tokens = .ok v) ↔
      (∀ text, .literal text ∈ tokens → literalValue? text ≠ none) ∧
        ∃ x : Expression, x.postorder = tokens) ∧
    (∀ x : Expression, x.postorder = tokens → evaluate tokens = x.value ∧
      ∀ y : Expression, y.postorder = tokens → y = x) ∧
    (∀ e, evaluate tokens = .error e ↔ Rejects tokens e) ∧
    ∀ i ≤ tokens.length, (∀ j < i, faultAt? tokens j = none) →
      ∃ stack, run [] (tokens.take i) = .ok stack ∧
        (stack.length : Int) = excess (tokens.take i) := by
  refine ⟨⟨?_, ?_⟩, ?_, fun e => ⟨rejects_of_evaluate, evaluate_of_rejects⟩, ?_⟩
  · rintro ⟨v, hv⟩
    obtain ⟨x, rfl, hx⟩ := exists_tree_of_evaluate hv
    refine ⟨?_, x, rfl⟩
    intro text htext hnone
    obtain ⟨e, he⟩ := (value_eq_error_iff x).2 ⟨text, mem_postorder_iff.1 htext, hnone⟩
    rw [hx] at he
    cases he
  · rintro ⟨hliterals, x, rfl⟩
    cases hx : x.value with
    | ok v => exact ⟨v, by rw [evaluate_postorder, hx]⟩
    | error e =>
      obtain ⟨text, htext, hnone⟩ := (value_eq_error_iff x).1 ⟨e, hx⟩
      exact absurd hnone (hliterals text (mem_postorder_iff.2 htext))
  · rintro x rfl
    exact ⟨evaluate_postorder x, fun y hy => postorder_injective hy⟩
  · intro i hi hnone
    rcases run_cases (tokens.take i) with ⟨stack, hrun, -⟩ | ⟨k, e, -, hfault, -⟩
    · exact ⟨stack, hrun, length_eq_excess hrun⟩
    · have hlength : (tokens.take i).length = i := List.length_take_of_le hi
      have hk : k < i := by
        by_contra hge
        rw [faultAt?_of_length_le (by omega)] at hfault
        cases hfault
      have hwhole := faultAt?_append_of_lt (hlength.symm ▸ hk) (tokens.drop i)
      rw [List.take_append_drop, hnone k hk, hfault] at hwhole
      cases hwhole

end Postfix

end Reckoner
