import Reckoner.Proofs.Postfix.Scan
import Reckoner.Proofs.Statement.Lexing

namespace Reckoner

/-!
# Statements in brackets

What is in brackets is converted as if it stood alone, whether it derives from the grammar or not:
the neighbours of its first and last lexemes change, and below its operators on the stack there is a
bracket and whatever waits outside, but none of this makes a difference to the conversion.  So two
statements in brackets with an operator between them are converted part by part, and evaluated
likewise.

* `Lexeme.bracketed ls`: the lexemes in brackets.
* `Postfix.Conversion.under c pending output`: the state `c` inside a bracket.
* `Postfix.Conversion.foldl_advance_bracketed`: brackets leave the output of what is in them.
* `Postfix.Conversion.firstFault_bracketed`: and no fault.
* `Postfix.run_append_below`: evaluation leaves alone what is deeper on the stack.
* `Postfix.convert_compose`: statements that are put together are converted and evaluated part by
  part.
-/

/-- Lexemes in brackets. -/
def Lexeme.bracketed (ls : List Lexeme) : List Lexeme := .opening :: (ls ++ [.closing])

/-! ### Spelling -/

namespace Lexeme

/-- A lexeme other than a literal may come before any others. -/
theorem Separated.cons {l : Lexeme} {ls : List Lexeme} (hl : l.isLiteral = false)
    (hls : Separated ls) : Separated (l :: ls) := by
  cases ls with
  | nil => exact List.isChain_singleton l
  | cons m ls => exact List.isChain_cons_cons.2 ⟨by simp [hl], hls⟩

/-- Lexemes of which the first one is no literal may follow any others. -/
theorem Separated.append {l : Lexeme} {ls ms : List Lexeme} (hls : Separated ls)
    (hl : l.isLiteral = false) (hms : Separated (l :: ms)) : Separated (ls ++ l :: ms) := by
  refine List.isChain_append.2 ⟨hls, hms, ?_⟩
  intro a _ b hb
  obtain rfl : l = b := by simpa using hb
  simp [hl]

/-- Brackets may stand around any lexemes. -/
theorem Separated.bracketed {ls : List Lexeme} (hls : Separated ls) : Separated (bracketed ls) :=
  .cons rfl (hls.append rfl (List.isChain_singleton _))

/-- Brackets are proper lexemes. -/
theorem isProper_bracketed {ls : List Lexeme} (hls : ∀ l ∈ ls, l.IsProper) :
    ∀ l ∈ bracketed ls, l.IsProper := by
  intro l hl
  rcases List.mem_cons.1 hl with rfl | hl
  · trivial
  · rcases List.mem_append.1 hl with hl | hl
    · exact hls l hl
    · obtain rfl := List.mem_singleton.1 hl
      trivial

end Lexeme

namespace Statement

open Lexeme

/-- Texts one after the other spell their lexemes one after the other. -/
theorem Spells.append {s t : String} {ls ms : List Lexeme} (hs : Spells s ls) (ht : Spells t ms) :
    Spells (s ++ t) (ls ++ ms) := by
  unfold Spells Text.compact at *
  rw [String.toList_append, List.filter_append, hs, ht, List.flatMap_append]

/-- A text in brackets spells lexemes in brackets. -/
theorem Spells.bracketed {s : String} {ls : List Lexeme} (hs : Spells s ls) :
    Spells ("(" ++ s ++ ")") (bracketed ls) := by
  have hopening : Spells "(" [.opening] := by unfold Spells; decide
  have hclosing : Spells ")" [.closing] := by unfold Spells; decide
  exact (hopening.append hs).append hclosing

/-- The sign of an operator spells it. -/
theorem spells_symbol (o : Operator) : Spells (String.singleton o.symbol) [.operator o] := by
  unfold Spells
  cases o <;> decide

/-- The lexemes of a statement in brackets. -/
theorem tokenize_bracketed {s : String} {ls : List Lexeme} (h : tokenize (some s) = .ok ls) :
    tokenize (some ("(" ++ s ++ ")")) = .ok (bracketed ls) :=
  tokenize_of_spells (isProper_bracketed (isProper_of_tokenize h))
    (separated_of_tokenize h).bracketed (spells_of_tokenize h).bracketed

/-- The lexemes of two statements in brackets and an operator between them. -/
theorem tokenize_operation {s t : String} {ls ms : List Lexeme} (o : Operator)
    (hs : tokenize (some s) = .ok ls) (ht : tokenize (some t) = .ok ms) :
    tokenize (some ("(" ++ s ++ ")" ++ String.singleton o.symbol ++ "(" ++ t ++ ")")) =
      .ok (bracketed ls ++ .operator o :: bracketed ms) := by
  have hseparated : Separated (bracketed ls ++ .operator o :: bracketed ms) :=
    (separated_of_tokenize hs).bracketed.append rfl (.cons rfl (separated_of_tokenize ht).bracketed)
  have hspells := (((spells_of_tokenize hs).bracketed.append (spells_symbol o)).append
    (spells_of_tokenize ht).bracketed)
  rw [List.append_assoc, List.singleton_append, ← String.append_assoc, ← String.append_assoc]
    at hspells
  refine tokenize_of_spells ?_ hseparated hspells
  intro l hl
  rcases List.mem_append.1 hl with hl | hl
  · exact isProper_bracketed (isProper_of_tokenize hs) l hl
  · rcases List.mem_cons.1 hl with rfl | hl
    · trivial
    · exact isProper_bracketed (isProper_of_tokenize ht) l hl

end Statement

namespace Postfix

open Lexeme

namespace Conversion

/-! ### The stack inside a bracket -/

/-- The state inside a bracket, above what waits and what has gone out outside. -/
def under (c : Conversion) (pending : List Pending) (output : List Token) : Conversion :=
  ⟨c.pending ++ .opening :: pending, c.output ++ output⟩

variable (pending : List Pending) (output : List Token)

/-- Operators go out down to the bracket, as they do down to the bottom of the stack. -/
theorem release_under (condition : Operator → Bool) (c : Conversion) :
    release condition (c.under pending output).output (c.under pending output).pending =
      (release condition c.output c.pending).under pending output := by
  obtain ⟨ops, rest, hpending, hops, hstop⟩ := exists_release condition c.pending
  have hunder : Stops condition (rest ++ .opening :: pending) := by
    intro o below hbelow
    cases rest with
    | nil => cases hbelow
    | cons p rest =>
      obtain ⟨rfl, rfl⟩ := List.cons.inj hbelow
      exact hstop o rest rfl
  show release condition (c.output ++ output) (c.pending ++ .opening :: pending) = _
  rw [hpending, List.append_assoc, release_append hops hunder, release_append hops hstop, under,
    List.append_assoc]

/-- **One lexeme inside a bracket.**  A closing bracket has to find its own opening one. -/
theorem advance_under {c : Conversion} {l : Lexeme} (h : l = .closing → 0 < c.openings) :
    (c.under pending output).advance l = (c.advance l).under pending output := by
  cases l with
  | literal text => rfl
  | opening => rfl
  | operator o =>
    simp only [advance, release_under]
    rfl
  | closing =>
    simp only [advance, release_under]
    rcases release_all c with ⟨_, hzero⟩ | ⟨rest, hrest, _⟩
    · have hpos := h rfl
      omega
    · simp only [under, hrest, List.cons_append, List.tail_cons]

/-- **The lexemes inside a bracket** that have no fault by themselves. -/
theorem foldl_advance_under {before : Option Lexeme} {c : Conversion} {ls : List Lexeme}
    (h : firstFault before c.openings ls = none) :
    ls.foldl advance (c.under pending output) = (ls.foldl advance c).under pending output := by
  induction ls generalizing before c with
  | nil => rfl
  | cons l ls ih =>
    obtain ⟨hl, hls⟩ := firstFault_cons_eq_none h
    have hclosing : l = .closing → 0 < c.openings := by
      rintro rfl
      exact depth_pos_of_fault? hl
    rw [← openings_advance] at hls
    rw [List.foldl_cons, List.foldl_cons, advance_under pending output hclosing]
    exact ih hls

/-- **Brackets leave the output of what is in them:** no operator stays on the stack. -/
theorem foldl_advance_bracketed {ls : List Lexeme} {tokens : List Token}
    (h : ofLexemes ls = .ok tokens) :
    (bracketed ls).foldl advance ⟨pending, output⟩ = ⟨pending, tokens.reverse ++ output⟩ := by
  obtain ⟨hfault, hdepth, rfl⟩ := ofLexemes_eq_ok h
  have hstart : advance ⟨pending, output⟩ .opening = start.under pending output := rfl
  have hinside := @foldl_advance_under pending output none start ls hfault
  have hzero : (ls.foldl advance start).openings = 0 :=
    (openings_foldl_advance start ls).trans hdepth
  rw [bracketed, List.foldl_cons, hstart, List.foldl_append, hinside, List.foldl_cons,
    List.foldl_nil, List.reverse_reverse]
  generalize ls.foldl advance start = c at hzero
  simp only [advance, release_under]
  rcases release_all c with ⟨hnone, _⟩ | ⟨rest, _, hpos⟩
  · simp only [under, hnone, List.nil_append, List.tail_cons]
  · omega

/-! ### No fault inside a bracket -/

/-- A lexeme without a fault has none inside a bracket: where it had no neighbour, a bracket is
    none that matters. -/
theorem fault?_bracketed {before after : Option Lexeme} {depth : Nat} {l : Lexeme} (outer : Nat)
    (h : fault? before after depth l = none) :
    fault? (some (before.getD .opening)) (some (after.getD .closing)) (depth + (outer + 1)) l =
      none := by
  cases l with
  | literal text => rfl
  | opening =>
    cases before with
    | none => rfl
    | some a => exact h
  | operator o =>
    cases before with
    | none => simp [fault?] at h
    | some a =>
      cases after with
      | none => simp [fault?] at h
      | some b => exact h
  | closing =>
    cases before with
    | none => simp [fault?, isOperator]
    | some a =>
      cases ha : isOperator (some a) with
      | true => simp [fault?, ha] at h
      | false => simp [fault?, ha]

/-- The last lexeme of a statement without faults is no operator. -/
theorem isOperator_of_fault? {before : Option Lexeme} {depth : Nat} {l : Lexeme}
    (h : fault? before none depth l = none) : isOperator (some l) = false := by
  cases l with
  | operator o => simp [fault?] at h
  | literal text => rfl
  | opening => rfl
  | closing => rfl

/-- Inside a bracket one bracket more is open. -/
theorem depthAfter_add {before after : Option Lexeme} {depth : Nat} {l : Lexeme} (more : Nat)
    (h : fault? before after depth l = none) :
    depthAfter (depth + more) l = depthAfter depth l + more := by
  cases l with
  | literal text => rfl
  | operator o => rfl
  | opening =>
    show depth + more + 1 = depth + 1 + more
    omega
  | closing =>
    have hpos : 0 < depth := depth_pos_of_fault? h
    show depth + more - 1 = depth - 1 + more
    omega

/-- Lexemes without a fault have none inside a bracket, up to its end and with it. -/
theorem firstFault_closing {before : Option Lexeme} {depth : Nat} {ls : List Lexeme}
    (h : firstFault before depth ls = none) (hbefore : ls = [] → isOperator before = false)
    (outer : Nat) (rest : List Lexeme) :
    firstFault (some (before.getD .opening)) (depth + (outer + 1)) (ls ++ .closing :: rest) =
      firstFault (some .closing) (ls.foldl depthAfter depth + outer) rest := by
  induction ls generalizing before depth with
  | nil =>
    have hoperator : isOperator (some (before.getD .opening)) = false := by
      cases before with
      | none => rfl
      | some a => exact hbefore rfl
    simp only [List.nil_append, firstFault, fault?, hoperator, Bool.false_eq_true, if_false]
    rw [if_neg (by omega)]
    rfl
  | cons l ls ih =>
    obtain ⟨hl, hls⟩ := firstFault_cons_eq_none h
    have hafter : (ls ++ .closing :: rest).head? = some (ls.head?.getD .closing) := by
      cases ls <;> rfl
    have hlast : ls = [] → isOperator (some l) = false := by
      rintro rfl
      exact isOperator_of_fault? hl
    rw [List.cons_append, firstFault, hafter, fault?_bracketed outer hl, List.foldl_cons,
      ← ih hls hlast, ← depthAfter_add (outer + 1) hl]
    rfl

/-- **Brackets around a statement without faults** have none where a bracket may be opened. -/
theorem firstFault_bracketed {before : Option Lexeme} {ls : List Lexeme} {tokens : List Token}
    (h : ofLexemes ls = .ok tokens) (outer : Nat)
    (hopening : ∀ after, fault? before after outer .opening = none) (rest : List Lexeme) :
    firstFault before outer (bracketed ls ++ rest) = firstFault (some .closing) outer rest := by
  obtain ⟨hfault, hdepth, _⟩ := ofLexemes_eq_ok h
  have hinside := firstFault_closing hfault (fun _ => rfl) outer rest
  rw [hdepth, Nat.zero_add, Nat.zero_add] at hinside
  rw [bracketed, List.cons_append, List.append_assoc, List.singleton_append, firstFault, hopening]
  exact hinside

end Conversion

open Conversion

/-! ### Conversion -/

/-- Lexemes in brackets are converted as they are without. -/
theorem ofLexemes_bracketed {ls : List Lexeme} {tokens : List Token}
    (h : ofLexemes ls = .ok tokens) : ofLexemes (bracketed ls) = .ok tokens := by
  have hfault := @firstFault_bracketed none ls tokens h 0 (fun _ => rfl) []
  rw [List.append_nil] at hfault
  rw [ofLexemes_eq, hfault, start, foldl_advance_bracketed [] [] h]
  show Except.ok (tokens.reverse ++ []).reverse = _
  rw [List.append_nil, List.reverse_reverse]

/-- Lexemes in brackets on both sides of an operator are converted part by part. -/
theorem ofLexemes_operation {ls ms : List Lexeme} {tokens tokens' : List Token} (o : Operator)
    (hls : ofLexemes ls = .ok tokens) (hms : ofLexemes ms = .ok tokens') :
    ofLexemes (bracketed ls ++ .operator o :: bracketed ms) =
      .ok (tokens ++ tokens' ++ [.operator o]) := by
  have hfault : firstFault none 0 (bracketed ls ++ .operator o :: bracketed ms) = none := by
    rw [firstFault_bracketed hls 0 (fun _ => rfl)]
    -- The operator stands between two brackets.
    have hright := @firstFault_bracketed (some (.operator o)) ms tokens' hms 0 (fun _ => rfl) []
    rw [List.append_nil] at hright
    exact hright
  have hoperator : advance ⟨[], tokens.reverse ++ []⟩ (.operator o) =
      ⟨[.operator o], tokens.reverse ++ []⟩ := rfl
  rw [ofLexemes_eq, hfault, start, List.foldl_append, foldl_advance_bracketed [] [] hls,
    List.foldl_cons, hoperator, foldl_advance_bracketed _ _ hms]
  show Except.ok (.operator o :: (tokens'.reverse ++ (tokens.reverse ++ []))).reverse = _
  simp

/-- A statement that is converted has lexemes that are. -/
theorem convert_eq_ok {s : String} {tokens : List Token} (h : convert (some s) = .ok tokens) :
    ∃ ls, Statement.tokenize (some s) = .ok ls ∧ ofLexemes ls = .ok tokens := by
  unfold convert at h
  cases htokenize : Statement.tokenize (some s) with
  | error e =>
    rw [htokenize] at h
    cases h
  | ok ls =>
    rw [htokenize] at h
    exact ⟨ls, rfl, h⟩

/-! ### Evaluation -/

/-- One token leaves alone what is deeper on the stack. -/
theorem step_append_below {stack stack' : List Binary64} {token : Token}
    (h : step stack token = .ok stack') (below : List Binary64) :
    step (stack ++ below) token = .ok (stack' ++ below) := by
  cases token with
  | literal text =>
    rw [step] at h ⊢
    cases hv : literalValue text with
    | error e =>
      rw [hv] at h
      cases h
    | ok v =>
      rw [hv] at h
      cases h
      rfl
  | operator o =>
    rcases stack with _ | ⟨right, _ | ⟨left, rest⟩⟩
    · cases h
    · cases h
    · cases h
      rfl

/-- **Evaluation leaves alone what is deeper on the stack,** and goes on with what follows. -/
theorem run_append_below {stack stack' : List Binary64} {tokens : List Token}
    (h : run stack tokens = .ok stack') (below : List Binary64) (rest : List Token) :
    run (stack ++ below) (tokens ++ rest) = run (stack' ++ below) rest := by
  induction tokens generalizing stack with
  | nil =>
    cases h
    rfl
  | cons token tokens ih =>
    rw [run] at h
    cases hstep : step stack token with
    | error e =>
      rw [hstep] at h
      cases h
    | ok next =>
      rw [hstep] at h
      rw [List.cons_append, run, step_append_below hstep]
      exact ih h

/-- A sequence with a value puts it on any stack. -/
theorem run_of_evaluate {tokens : List Token} {v : Binary64} (h : evaluate tokens = .ok v)
    (below : List Binary64) (rest : List Token) :
    run below (tokens ++ rest) = run (v :: below) rest := by
  unfold evaluate at h
  cases hrun : run [] tokens with
  | error e =>
    rw [hrun] at h
    cases h
  | ok stack =>
    rw [hrun] at h
    rcases stack with _ | ⟨value, _ | ⟨next, more⟩⟩
    · cases h
    · cases h
      exact run_append_below hrun below rest
    · cases h

/-- Two sequences with values and an operator behind them have the value of the operation. -/
theorem evaluate_operation {tokens tokens' : List Token} {v w : Binary64} (o : Operator)
    (hv : evaluate tokens = .ok v) (hw : evaluate tokens' = .ok w) :
    evaluate (tokens ++ tokens' ++ [.operator o]) = .ok (o.apply v w) := by
  rw [evaluate, List.append_assoc, run_of_evaluate hv, run_of_evaluate hw]
  rfl

/-- **Statements are put together part by part.**  Of two statements that are converted, each may be
    put into brackets without any change, and with an operator between them they become the tokens
    of the one, those of the other and the operator.  If both have values, be they infinite or no
    numbers, the operator is applied to these. -/
theorem convert_compose {s t : String} {tokens tokens' : List Token} (o : Operator)
    (hs : convert (some s) = .ok tokens) (ht : convert (some t) = .ok tokens') :
    convert (some ("(" ++ s ++ ")")) = .ok tokens ∧
    convert (some ("(" ++ s ++ ")" ++ String.singleton o.symbol ++ "(" ++ t ++ ")")) =
      .ok (tokens ++ tokens' ++ [.operator o]) ∧
    ∀ v w, evaluate tokens = .ok v → evaluate tokens' = .ok w →
      evaluate (tokens ++ tokens' ++ [.operator o]) = .ok (o.apply v w) := by
  obtain ⟨ls, hls, htokens⟩ := convert_eq_ok hs
  obtain ⟨ms, hms, htokens'⟩ := convert_eq_ok ht
  refine ⟨?_, ?_, fun v w => evaluate_operation o⟩
  · rw [convert, Statement.tokenize_bracketed hls]
    exact ofLexemes_bracketed htokens
  · rw [convert, Statement.tokenize_operation o hls hms]
    exact ofLexemes_operation o htokens htokens'

/-- An infinite value on the left, and on the right a statement that no grammar derives. -/
theorem convert_compose_infinite :
    convert (some "1/0") = .ok [.literal "1", .literal "0", .operator .over] ∧
      convert (some "()2") = .ok [.literal "2"] ∧
      convert (some "(()2)") = .ok [.literal "2"] ∧
      convert (some "(1/0)-(()2)") =
        .ok [.literal "1", .literal "0", .operator .over, .literal "2", .operator .minus] ∧
      evaluate [.literal "1", .literal "0", .operator .over, .literal "2", .operator .minus] =
        .ok (.infinity false) := by
  have hs : convert (some "1/0") = .ok [.literal "1", .literal "0", .operator .over] := by
    decide +kernel
  have ht : convert (some "()2") = .ok [.literal "2"] := by decide +kernel
  have hv : evaluate [.literal "1", .literal "0", .operator .over] = .ok (.infinity false) := by
    decide +kernel
  obtain ⟨w, hw, hvalue⟩ : ∃ w, evaluate [.literal "2"] = .ok w ∧
      Operator.minus.apply (.infinity false) w = .infinity false := by
    refine ⟨Decimal.nearest false 2 0, ?_, ?_⟩ <;> decide +kernel
  refine ⟨hs, ht, (convert_compose .plus ht hs).1, (convert_compose .minus hs ht).2.1, ?_⟩
  rw [← hvalue]
  exact (convert_compose .minus hs ht).2.2 _ w hv hw

end Postfix

end Reckoner
