import Mathlib.Data.List.Infix
import Reckoner.Proofs.Postfix.Parsing

namespace Reckoner.Postfix

/-!
# What waits on the stack

An operator pushes out all that bind at least as strongly before it waits itself.  So operators
without a bracket between them bind ever more strongly from the bottom to the top of the stack, and
as there are two strengths, no more than two of them are next to each other.  How high the stack can
be is settled by the number of open brackets.

* `Ordered pending`: operators without a bracket between them are in the order of their strengths.
* `Ordered.length_le`: how high such a stack can be.
* `Conversion.ordered_advance`: each lexeme keeps the order.
* `Conversion.stateAfter ls count`: the state after so many lexemes.
* `Conversion.waits_step`, `Conversion.waits_stateAfter`: what one lexeme keeps, and so all of them.
* `waiting_of_convert`: the stack of a conversion, at any time.
-/

/-! ### The order of a stack -/

/-- Wherever operators are next to each other on a stack, with no bracket between them, each one
    binds more strongly than those below it. -/
def Ordered (pending : List Pending) : Prop :=
  ∀ ops : List Operator, ops.map .operator <:+: pending →
    ops.Pairwise fun upper lower => lower.precedence < upper.precedence

namespace Ordered

variable {pending rest : List Pending}

/-- What is left of a stack is in order. -/
theorem of_suffix (h : Ordered pending) (hrest : rest <:+ pending) : Ordered rest :=
  fun ops hops => h ops (hops.trans hrest.isInfix)

/-- Nothing is next to an operator across a bracket. -/
theorem opening (h : Ordered pending) : Ordered (.opening :: pending) := by
  intro ops hops
  rcases List.infix_cons_iff.1 hops with hprefix | hinfix
  · cases ops with
    | nil => exact List.Pairwise.nil
    | cons o ops =>
      rw [List.map_cons, List.cons_prefix_cons] at hprefix
      cases hprefix.1
  · exact h ops hinfix

/-- An operator may wait on top of a weaker one. -/
theorem operator {o : Operator} (h : Ordered pending)
    (hstop : Conversion.Stops (fun p => o.precedence ≤ p.precedence) pending) :
    Ordered (.operator o :: pending) := by
  intro ops hops
  rcases List.infix_cons_iff.1 hops with hprefix | hinfix
  · cases ops with
    | nil => exact List.Pairwise.nil
    | cons p lower =>
      rw [List.map_cons, List.cons_prefix_cons] at hprefix
      obtain ⟨hhead, hlower⟩ := hprefix
      obtain rfl := Pending.operator.inj hhead
      have hpairwise := h lower hlower.isInfix
      refine List.pairwise_cons.2 ⟨?_, hpairwise⟩
      -- The new operator is above the next one, and so above all below that.
      intro q hq
      cases lower with
      | nil => cases hq
      | cons r lower =>
        obtain ⟨below, rfl⟩ := hlower
        have hnext : r.precedence < p.precedence := by simpa using hstop r _ rfl
        rcases List.mem_cons.1 hq with rfl | hq
        · exact hnext
        · exact lt_trans ((List.pairwise_cons.1 hpairwise).1 q hq) hnext
  · exact h ops hinfix

/-- **There are two strengths,** so no more than two operators are next to each other. -/
theorem length_le_two {ops : List Operator}
    (h : ops.Pairwise fun upper lower => lower.precedence < upper.precedence) :
    ops.length ≤ 2 := by
  rcases ops with _ | ⟨a, _ | ⟨b, _ | ⟨c, ops⟩⟩⟩
  · exact Nat.zero_le 2
  · exact Nat.le_succ 1
  · exact le_refl 2
  · simp only [List.pairwise_cons] at h
    have hab := h.1 b (by simp)
    have hbc := h.2.1 c (by simp)
    have ha := a.precedence_le
    have hc := c.precedence_le
    omega

/-- **How high a stack can be:** below, between and above its brackets there are no more than two
    operators. -/
theorem length_le (h : Ordered pending) : pending.length ≤ 3 * pending.count .opening + 2 := by
  induction hlength : pending.length using Nat.strong_induction_on generalizing pending with
  | _ n ih =>
    subst hlength
    obtain ⟨ops, rest, rfl, -, hstop⟩ := Conversion.exists_release (fun _ => true) pending
    have hops := length_le_two (h ops (List.prefix_append _ rest).isInfix)
    cases rest with
    | nil =>
      simp only [List.append_nil, List.length_map]
      omega
    | cons p rest =>
      cases p with
      | operator o => exact absurd (hstop o rest rfl) (by simp)
      | opening =>
        have hsuffix : rest <:+ ops.map .operator ++ .opening :: rest :=
          (List.suffix_cons _ _).trans (List.suffix_append _ _)
        have hshorter := ih rest.length (by simp; omega) (h.of_suffix hsuffix) rfl
        simp only [List.length_append, List.length_map, List.length_cons, List.count_append,
          List.count_cons_self]
        omega

end Ordered

namespace Conversion

/-! ### One lexeme -/

/-- What goes out is on top of the stack, and it stops at the first operator that may stay. -/
theorem release_stops (condition : Operator → Bool) (c : Conversion) :
    (release condition c.output c.pending).pending <:+ c.pending ∧
      Stops condition (release condition c.output c.pending).pending := by
  obtain ⟨ops, rest, hpending, hops, hstop⟩ := exists_release condition c.pending
  rw [hpending, release_append hops hstop]
  exact ⟨List.suffix_append _ _, hstop⟩

/-- **Each lexeme keeps the order** of the stack. -/
theorem ordered_advance {c : Conversion} (h : Ordered c.pending) (l : Lexeme) :
    Ordered (c.advance l).pending := by
  cases l with
  | literal text => exact h
  | opening => exact h.opening
  | operator o =>
    obtain ⟨hsuffix, hstop⟩ := release_stops (fun p => o.precedence ≤ p.precedence) c
    exact (h.of_suffix hsuffix).operator hstop
  | closing =>
    obtain ⟨hsuffix, -⟩ := release_stops (fun _ => true) c
    exact h.of_suffix ((List.tail_suffix _).trans hsuffix)

/-- What is true of the state after some lexemes: the stack is in order, and it holds the brackets
    that were opened and not closed. -/
structure Waits (read : List Lexeme) (c : Conversion) : Prop where
  ordered : Ordered c.pending
  openings_eq : c.openings + read.count .closing = read.count .opening

/-- Before the first lexeme nothing waits. -/
theorem waits_start : Waits [] .start where
  ordered := by
    intro ops hops
    rw [List.map_eq_nil_iff.1 (List.infix_nil.1 hops)]
    exact List.Pairwise.nil
  openings_eq := rfl

/-- **One lexeme** that may stand where it does. -/
theorem waits_step {before after : Option Lexeme} {read : List Lexeme} {c c' : Conversion}
    {l : Lexeme} (h : Waits read c) (hstep : step before after c l = .ok c') :
    Waits (read ++ [l]) c' := by
  rw [step_eq] at hstep
  cases hfault : fault? before after c.openings l with
  | some e => simp [hfault] at hstep
  | none =>
    rw [hfault] at hstep
    obtain rfl := Except.ok.inj hstep
    refine ⟨ordered_advance h.ordered l, ?_⟩
    have hcount := count_depthAfter hfault
    have hread := h.openings_eq
    rw [openings_advance, List.count_append, List.count_append]
    omega

/-! ### All lexemes -/

/-- The state after the first lexemes, if none of them is out of place. -/
def stateAfter (ls : List Lexeme) : (count : Nat) → Except Statement.Error Conversion
  | 0 => .ok .start
  | i + 1 =>
    match stateAfter ls i, ls[i]? with
    | .ok c, some l => step (ls.take i).getLast? ls[i + 1]? c l
    | outcome, _ => outcome

/-- A lexeme out of place ends the scan. -/
theorem stateAfter_of_error {ls : List Lexeme} {i j : Nat} {e : Statement.Error} (hle : i ≤ j)
    (h : stateAfter ls i = .error e) : stateAfter ls j = .error e := by
  induction j, hle using Nat.le_induction with
  | base => exact h
  | succ j _ ih => rw [stateAfter, ih]

/-- **The scan goes through these states.** -/
theorem scan_eq_stateAfter (ls : List Lexeme) : scan none .start ls = stateAfter ls ls.length := by
  suffices h : ∀ rest read c, ls = read ++ rest → stateAfter ls read.length = .ok c →
      scan read.getLast? c rest = stateAfter ls ls.length from h ls [] .start rfl rfl
  intro rest
  induction rest with
  | nil =>
    intro read c hls hstate
    rw [hls, List.append_nil] at hstate ⊢
    rw [hstate]
    rfl
  | cons l rest ih =>
    intro read c hls hstate
    have hcurrent : ls[read.length]? = some l := by simp [hls]
    have hafter : ls[read.length + 1]? = rest.head? := by
      rw [hls, List.getElem?_append_right (Nat.le_add_right _ 1), Nat.add_sub_cancel_left,
        List.getElem?_cons_succ, List.head?_eq_getElem?]
    have hnext : stateAfter ls (read.length + 1) = step read.getLast? rest.head? c l := by
      rw [stateAfter, hstate, hcurrent, hafter, hls, List.take_left]
    rw [scan, ← hnext]
    cases hstep : stateAfter ls (read.length + 1) with
    | error e =>
      have hle : read.length + 1 ≤ ls.length := by simp [hls]
      exact (stateAfter_of_error hle hstep).symm
    | ok c' =>
      have happend : ls = (read ++ [l]) ++ rest := by rw [hls, List.append_assoc]; rfl
      have hrest := ih (read ++ [l]) c' happend (by rwa [List.length_append])
      rwa [List.getLast?_concat] at hrest

/-- **After any number of lexemes** the stack is in order and holds the open brackets. -/
theorem waits_stateAfter {ls : List Lexeme} {count : Nat} {c : Conversion}
    (h : stateAfter ls count = .ok c) : Waits (ls.take count) c := by
  induction count generalizing c with
  | zero =>
    obtain rfl : start = c := Except.ok.inj h
    exact waits_start
  | succ i ih =>
    rw [stateAfter] at h
    cases hstate : stateAfter ls i with
    | error e => simp [hstate] at h
    | ok before =>
      have hbefore := ih hstate
      cases hl : ls[i]? with
      | none =>
        -- Behind the last lexeme nothing is read any more.
        rw [hstate, hl] at h
        obtain rfl : before = c := Except.ok.inj h
        have hend : ls.length ≤ i := List.getElem?_eq_none_iff.1 hl
        rwa [List.take_of_length_le (Nat.le_succ_of_le hend), ← List.take_of_length_le hend]
      | some l =>
        rw [hstate, hl] at h
        rw [List.take_add_one, hl]
        exact waits_step hbefore h

end Conversion

/-! ### The conversion of a statement -/

/-- **What waits during a conversion.**  A conversion takes the lexemes of its statement one by one,
    and at the end what still waits.  After any number of lexemes, operators without a bracket
    between them are on the stack in the order of their strengths, the weakest at the bottom; as many
    brackets are on it as have been opened and not closed; and so no more than two operators are
    below, between and above them. -/
theorem waiting_of_convert (statement : Option String) :
    convert statement = (do
      let ls ← Statement.tokenize statement
      let c ← Conversion.stateAfter ls ls.length
      c.finish) ∧
    ∀ ls, Statement.tokenize statement = .ok ls →
      ∀ count c, Conversion.stateAfter ls count = .ok c →
        Ordered c.pending ∧
        c.openings + (ls.take count).count .closing = (ls.take count).count .opening ∧
        c.pending.length ≤ 3 * c.openings + 2 := by
  constructor
  · rw [convert]
    cases Statement.tokenize statement with
    | error e => rfl
    | ok ls =>
      show ofLexemes ls = Conversion.stateAfter ls ls.length >>= Conversion.finish
      rw [ofLexemes, Conversion.scan_eq_stateAfter]
      cases Conversion.stateAfter ls ls.length with
      | error e => rfl
      | ok c => rfl
  · intro ls _ count c hstate
    obtain ⟨hordered, hopenings⟩ := Conversion.waits_stateAfter hstate
    exact ⟨hordered, hopenings, hordered.length_le⟩

/-- Two operators below an open bracket and two above it: a stack can be as high as that. -/
theorem waiting_of_convert_highest :
    ∃ ls c, Statement.tokenize (some "1+2*(3-4/5)") = .ok ls ∧
      Conversion.stateAfter ls 9 = .ok c ∧ c.openings = 1 ∧ c.pending.length = 3 * c.openings + 2 ∧
      Ordered c.pending := by
  have htokenize : Statement.tokenize (some "1+2*(3-4/5)") =
      .ok [.literal "1", .operator .plus, .literal "2", .operator .times, .opening, .literal "3",
        .operator .minus, .literal "4", .operator .over, .literal "5", .closing] := by
    decide +kernel
  obtain ⟨hordered, -, -⟩ := (waiting_of_convert (some "1+2*(3-4/5)")).2 _ htokenize 9
    ⟨[.operator .over, .operator .minus, .opening, .operator .times, .operator .plus],
      [.literal "4", .literal "3", .literal "2", .literal "1"]⟩ rfl
  exact ⟨_, _, htokenize, rfl, rfl, rfl, hordered⟩

end Reckoner.Postfix
