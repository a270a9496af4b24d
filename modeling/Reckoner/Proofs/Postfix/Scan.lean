import Reckoner.Postfix.Conversion

namespace Reckoner.Postfix.Conversion

/-!
# One scan, two questions

The scan of a statement asks of each lexeme whether it may stand where it does, and moves operators
between the stack and the output.  The two have little to do with each other: the first looks at the
neighbours and at the number of open brackets only, the second at neither.

* `advance c l`: the state after a lexeme that may stand where it does.
* `fault? before after depth l`: what is wrong with a lexeme between its neighbours, with a number
  of brackets open.
* `firstFault`: the first thing wrong with a list of lexemes.
* `step_eq`, `scan_eq`, `ofLexemes_eq`: the conversion in these terms.
-/

/-- The number of open brackets. -/
def openings (c : Conversion) : Nat := c.pending.count .opening

/-! ### What goes out -/

/-- The top of the stack is not an operator that satisfies the condition. -/
def Stops (condition : Operator → Bool) (pending : List Pending) : Prop :=
  ∀ o rest, pending = .operator o :: rest → condition o = false

/-- The operators on top of a stack go out as far as the condition holds. -/
theorem release_append {condition : Operator → Bool} {ops : List Operator} {pending : List Pending}
    (hops : ∀ o ∈ ops, condition o = true) (hstop : Stops condition pending) (output : List Token) :
    release condition output (ops.map .operator ++ pending) =
      ⟨pending, (ops.map .operator).reverse ++ output⟩ := by
  induction ops generalizing output with
  | nil =>
    cases pending with
    | nil => rfl
    | cons p rest =>
      cases p with
      | opening => rfl
      | operator o => simp [release, hstop o rest rfl]
  | cons o ops ih =>
    have htail := ih (fun p hp => hops p (List.mem_cons_of_mem o hp)) (.operator o :: output)
    simp only [List.map_cons, List.cons_append, release, hops o (by simp), if_true]
    rw [htail]
    simp

/-- A stack consists of operators that satisfy the condition and a rest at which it stops. -/
theorem exists_release (condition : Operator → Bool) (pending : List Pending) :
    ∃ (ops : List Operator) (rest : List Pending), pending = ops.map .operator ++ rest ∧
      (∀ o ∈ ops, condition o = true) ∧ Stops condition rest := by
  induction pending with
  | nil => exact ⟨[], [], rfl, by simp, by simp [Stops]⟩
  | cons p pending ih =>
    cases p with
    | opening => exact ⟨[], .opening :: pending, rfl, by simp, by simp [Stops]⟩
    | operator o =>
      by_cases ho : condition o = true
      · obtain ⟨ops, rest, rfl, hops, hstop⟩ := ih
        exact ⟨o :: ops, rest, rfl, by simpa [ho] using hops, hstop⟩
      · refine ⟨[], .operator o :: pending, rfl, by simp, ?_⟩
        intro p rest hp
        cases hp
        simpa using ho

/-- No open bracket goes out. -/
theorem openings_release (condition : Operator → Bool) (c : Conversion) :
    (release condition c.output c.pending).openings = c.openings := by
  obtain ⟨ops, rest, hpending, hops, hstop⟩ := exists_release condition c.pending
  have hcount : (ops.map Pending.operator).count .opening = 0 := by
    rw [List.count_eq_zero]
    simp
  rw [openings, openings, hpending, release_append hops hstop, List.count_append, hcount,
    Nat.zero_add]

/-- If all operators go out, nothing stays or an open bracket is on top. -/
theorem release_all (c : Conversion) :
    ((release (fun _ => true) c.output c.pending).pending = [] ∧ c.openings = 0) ∨
      ∃ rest, (release (fun _ => true) c.output c.pending).pending = .opening :: rest ∧
        c.openings = rest.count .opening + 1 := by
  rw [← openings_release (fun _ => true) c, openings]
  obtain ⟨ops, rest, hpending, hops, hstop⟩ := exists_release (fun _ => true) c.pending
  rw [hpending, release_append hops hstop]
  cases rest with
  | nil => exact .inl ⟨rfl, rfl⟩
  | cons p rest =>
    cases p with
    | opening => exact .inr ⟨rest, rfl, by simp⟩
    | operator o => exact absurd (hstop o rest rfl) (by simp)

/-! ### The state after a lexeme -/

/-- The state after a lexeme, if it may stand where it does. -/
def advance (c : Conversion) : Lexeme → Conversion
  | .literal text => ⟨c.pending, .literal text :: c.output⟩
  | .opening => ⟨.opening :: c.pending, c.output⟩
  | .operator o =>
    let c := release (fun p => o.precedence ≤ p.precedence) c.output c.pending
    ⟨.operator o :: c.pending, c.output⟩
  | .closing =>
    let c := release (fun _ => true) c.output c.pending
    ⟨c.pending.tail, c.output⟩

/-- The number of open brackets after a lexeme. -/
def depthAfter (depth : Nat) : Lexeme → Nat
  | .opening => depth + 1
  | .closing => depth - 1
  | _ => depth

/-- The stack holds as many open brackets as there are. -/
theorem openings_advance (c : Conversion) (l : Lexeme) :
    (c.advance l).openings = depthAfter c.openings l := by
  cases l with
  | literal text => rfl
  | opening => simp [advance, openings, depthAfter]
  | operator o =>
    have hrelease := openings_release (fun p => o.precedence ≤ p.precedence) c
    simpa [advance, openings, depthAfter] using hrelease
  | closing =>
    rcases release_all c with ⟨h, hdepth⟩ | ⟨rest, h, hdepth⟩
    · rw [hdepth]
      simp [advance, openings, depthAfter, h]
    · rw [hdepth]
      simp [advance, openings, depthAfter, h]

/-- Several lexemes change the number of open brackets one by one. -/
theorem openings_foldl_advance (c : Conversion) (ls : List Lexeme) :
    (ls.foldl advance c).openings = ls.foldl depthAfter c.openings := by
  induction ls generalizing c with
  | nil => rfl
  | cons l ls ih => rw [List.foldl_cons, List.foldl_cons, ih, openings_advance]

/-! ### What can be wrong -/

/-- What is wrong with a lexeme that stands between two others, with a number of brackets open. -/
def fault? (before after : Option Lexeme) (depth : Nat) : Lexeme → Option Statement.Error
  | .literal _ => none
  | .opening =>
    if before.isNone || isOperator before || before = some .opening then none
    else some .noOperatorBeforeOpening
  | .operator _ =>
    if before.isNone || after.isNone then some .operatorAtEdge
    else if isOperator after then some .consecutiveOperators
    else none
  | .closing =>
    if isOperator before then some .operatorBeforeClosing
    else if depth = 0 then some .unmatchedClosing
    else none

/-- A closing bracket may stand only where a bracket is open. -/
theorem depth_pos_of_fault? {before after : Option Lexeme} {depth : Nat}
    (h : fault? before after depth .closing = none) : 0 < depth := by
  simp only [fault?] at h
  split at h
  · exact absurd h (by simp)
  · split at h
    · exact absurd h (by simp)
    · omega

/-- A lexeme without a fault adds what it opens to the open brackets and takes away what it closes.
    -/
theorem count_depthAfter {before after : Option Lexeme} {depth : Nat} {l : Lexeme}
    (h : fault? before after depth l = none) :
    [l].count .closing + depthAfter depth l = [l].count .opening + depth := by
  cases l with
  | literal text => rfl
  | operator o => rfl
  | opening => exact (Nat.zero_add (depth + 1)).trans (Nat.add_comm depth 1)
  | closing =>
    -- The bracket that is closed is open, so the count does not stop at zero.
    have hpos : 0 < depth := depth_pos_of_fault? h
    show 1 + (depth - 1) = 0 + depth
    omega

/-- A lexeme has a fault, or the state advances. -/
theorem step_eq (before after : Option Lexeme) (c : Conversion) (l : Lexeme) :
    step before after c l =
      match fault? before after c.openings l with
      | some e => .error e
      | none => .ok (c.advance l) := by
  cases l with
  | literal text => rfl
  | opening =>
    simp only [step, fault?, advance]
    split <;> rfl
  | operator o =>
    simp only [step, fault?, advance]
    split
    · rfl
    · split <;> rfl
  | closing =>
    -- All operators go out first, so that a bracket is on top or nothing is left.
    simp only [step, fault?, advance]
    split
    · rfl
    · rcases release_all c with ⟨h, hdepth⟩ | ⟨rest, h, hdepth⟩
      · simp [h, hdepth]
      · simp [h, hdepth]

/-- The first thing wrong with lexemes, with the one before them and the number of open brackets. -/
def firstFault (before : Option Lexeme) (depth : Nat) : List Lexeme → Option Statement.Error
  | [] => none
  | l :: rest =>
    match fault? before rest.head? depth l with
    | some e => some e
    | none => firstFault (some l) (depthAfter depth l) rest

/-- Nothing is wrong with lexemes if nothing is wrong with the first one nor behind it. -/
theorem firstFault_cons_eq_none {before : Option Lexeme} {depth : Nat} {l : Lexeme}
    {ls : List Lexeme} (h : firstFault before depth (l :: ls) = none) :
    fault? before ls.head? depth l = none ∧ firstFault (some l) (depthAfter depth l) ls = none := by
  rw [firstFault] at h
  cases hl : fault? before ls.head? depth l with
  | some e => simp [hl] at h
  | none => exact ⟨rfl, by simpa [hl] using h⟩

/-- If nothing is wrong, the open brackets are those that were opened and not closed. -/
theorem count_foldl_depthAfter {before : Option Lexeme} {depth : Nat} {ls : List Lexeme}
    (h : firstFault before depth ls = none) :
    ls.count .closing + ls.foldl depthAfter depth = ls.count .opening + depth := by
  induction ls generalizing before depth with
  | nil => rfl
  | cons l ls ih =>
    obtain ⟨hl, hls⟩ := firstFault_cons_eq_none h
    have hhead := count_depthAfter hl
    have htail := ih hls
    rw [List.foldl_cons, ← List.singleton_append, List.count_append, List.count_append]
    omega

/-- **The scan.**  It reports the first fault, or the state has advanced over all lexemes. -/
theorem scan_eq (before : Option Lexeme) (c : Conversion) (ls : List Lexeme) :
    scan before c ls =
      match firstFault before c.openings ls with
      | some e => .error e
      | none => .ok (ls.foldl advance c) := by
  induction ls generalizing before c with
  | nil => rfl
  | cons l ls ih =>
    -- The faults are counted with the brackets that the stack holds, so both go on alike.
    simp only [scan, firstFault, step_eq]
    cases fault? before ls.head? c.openings l with
    | some e => rfl
    | none =>
      simp only [ih, openings_advance, List.foldl_cons]

/-- The end of a statement: an error if a bracket is open. -/
theorem finish_eq (c : Conversion) :
    c.finish =
      if c.openings = 0 then .ok (release (fun _ => true) c.output c.pending).output.reverse
      else .error .unmatchedOpening := by
  rcases release_all c with ⟨h, hdepth⟩ | ⟨rest, h, hdepth⟩
  · simp [finish, h, hdepth]
  · simp [finish, h, hdepth]

end Conversion

/-- **The conversion.**  The first fault is reported, then an open bracket. -/
theorem ofLexemes_eq (ls : List Lexeme) :
    ofLexemes ls =
      match Conversion.firstFault none 0 ls with
      | some e => .error e
      | none => (ls.foldl Conversion.advance .start).finish := by
  have hstart : Conversion.start.openings = 0 := rfl
  rw [ofLexemes, Conversion.scan_eq, hstart]
  cases Conversion.firstFault none 0 ls with
  | some e => rfl
  | none => rfl

/-- **A successful conversion** has found no fault and no bracket open at the end, and then all that
    waits goes out. -/
theorem ofLexemes_eq_ok {ls : List Lexeme} {tokens : List Token} (h : ofLexemes ls = .ok tokens) :
    Conversion.firstFault none 0 ls = none ∧ ls.foldl Conversion.depthAfter 0 = 0 ∧
      tokens = (Conversion.release (fun _ => true) (ls.foldl Conversion.advance .start).output
        (ls.foldl Conversion.advance .start).pending).output.reverse := by
  have hstart : Conversion.start.openings = 0 := rfl
  rw [ofLexemes_eq] at h
  cases hfault : Conversion.firstFault none 0 ls with
  | some e => simp [hfault] at h
  | none =>
    simp only [hfault, Conversion.finish_eq, Conversion.openings_foldl_advance, hstart] at h
    by_cases hzero : ls.foldl Conversion.depthAfter 0 = 0
    · rw [if_pos hzero] at h
      exact ⟨rfl, hzero, (Except.ok.inj h).symm⟩
    · rw [if_neg hzero] at h
      exact absurd h (by simp)

end Reckoner.Postfix
