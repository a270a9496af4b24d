import Reckoner.Proofs.Expression.Tree
import Reckoner.Proofs.Statement.Lexing

namespace Reckoner

/-!
# The grammar of statements

`expr := term | expr (+|-) term`, `term := factor | term (*|/) factor` and
`factor := literal | '(' expr ')'`, with the tree that each derivation builds.

* `Derives c ls x`: the lexemes `ls` derive from the category `c`, with the tree `x`.
* `Derivable ls`: they derive from `expr`.
* `completes wanted depth ls`: the same as a scan that remembers whether an operand is wanted and
  how many brackets are open.
* `derivable_iff`: the two agree, so derivability can be decided.
-/

/-- The second of two neighbours is no literal directly behind an operand. -/
def Lexeme.MayFollow (a b : Lexeme) : Prop :=
  b.isLiteral = true → a.isLiteral = false ∧ a ≠ .closing

namespace Expression

/-- The categories of the grammar. -/
inductive Category where
  | expr
  | term
  | factor
  deriving DecidableEq, Repr

/-- Lexemes that derive from a category, and the tree of the derivation.  Sums and products grow at
    their right end, so operators of one kind are taken from left to right. -/
inductive Derives : Category → List Lexeme → Expression → Prop
  | literal {text : String} (proper : (Lexeme.literal text).IsProper) :
      Derives .factor [.literal text] (.literal text)
  | bracket {ls : List Lexeme} {x : Expression} (inner : Derives .expr ls x) :
      Derives .factor (.opening :: ls ++ [.closing]) x
  | factor {ls : List Lexeme} {x : Expression} (only : Derives .factor ls x) : Derives .term ls x
  | product {ls ms : List Lexeme} {x y : Expression} {o : Operator}
      (sign : o = .times ∨ o = .over) (left : Derives .term ls x) (right : Derives .factor ms y) :
      Derives .term (ls ++ .operator o :: ms) (.operation o x y)
  | term {ls : List Lexeme} {x : Expression} (only : Derives .term ls x) : Derives .expr ls x
  | sum {ls ms : List Lexeme} {x y : Expression} {o : Operator}
      (sign : o = .plus ∨ o = .minus) (left : Derives .expr ls x) (right : Derives .term ms y) :
      Derives .expr (ls ++ .operator o :: ms) (.operation o x y)

/-- Lexemes that derive from the grammar. -/
def Derivable (ls : List Lexeme) : Prop := ∃ x, Derives .expr ls x

/-! ### Simple facts about derivations -/

/-- Proper lexemes around an operator are proper lexemes. -/
theorem isProper_append_operator {ls ms : List Lexeme} {o : Operator}
    (hls : ∀ l ∈ ls, l.IsProper) (hms : ∀ l ∈ ms, l.IsProper) :
    ∀ l ∈ ls ++ .operator o :: ms, l.IsProper := by
  intro l hl
  rcases List.mem_append.1 hl with hl | hl
  · exact hls l hl
  · rcases List.mem_cons.1 hl with rfl | hl
    · trivial
    · exact hms l hl

/-- The lexemes of a derivation are proper. -/
theorem Derives.isProper {c : Category} {ls : List Lexeme} {x : Expression}
    (h : Derives c ls x) : ∀ l ∈ ls, l.IsProper := by
  induction h with
  | literal proper => simpa using proper
  | bracket _ ih => simpa [or_imp, forall_and, Lexeme.IsProper] using ih
  | factor _ ih => exact ih
  | product _ _ _ ihl ihr => exact isProper_append_operator ihl ihr
  | term _ ih => exact ih
  | sum _ _ _ ihl ihr => exact isProper_append_operator ihl ihr

/-- The literals of the tree are those of the derivation. -/
theorem Derives.mem_literals {c : Category} {ls : List Lexeme} {x : Expression}
    (h : Derives c ls x) (text : String) : text ∈ x.literals ↔ Lexeme.literal text ∈ ls := by
  induction h with
  | literal _ => simp [literals]
  | bracket _ ih => simp [ih]
  | factor _ ih => exact ih
  | product _ _ _ ihl ihr => simp [literals, ihl, ihr]
  | term _ ih => exact ih
  | sum _ _ _ ihl ihr => simp [literals, ihl, ihr]

/-- An expression can be followed by an operator and a factor, whatever the operator.  A product
    takes the last term of a sum with it. -/
theorem Derives.append_factor {ls ms : List Lexeme} {x y : Expression} (o : Operator)
    (h : Derives .expr ls x) (hright : Derives .factor ms y) :
    ∃ z, Derives .expr (ls ++ .operator o :: ms) z := by
  by_cases ho : o = .plus ∨ o = .minus
  · exact ⟨_, .sum ho h (.factor hright)⟩
  · have hprod : o = .times ∨ o = .over := by
      cases o <;> simp at ho ⊢
    cases h with
    | term only => exact ⟨_, .term (.product hprod only hright)⟩
    | sum sign left right =>
      have hsum := Derives.sum sign left (.product hprod right hright)
      rw [← List.cons_append, ← List.append_assoc] at hsum
      exact ⟨_, hsum⟩

/-! ### Scanning for completeness -/

/-- Whether lexemes complete a statement in which some brackets are open, at a place where an
    operand is wanted or where one has just ended. -/
def completes : (wanted : Bool) → (depth : Nat) → List Lexeme → Bool
  | true, depth, .literal _ :: ls => completes false depth ls
  | true, depth, .opening :: ls => completes true (depth + 1) ls
  | false, depth, .operator _ :: ls => completes true depth ls
  | false, depth + 1, .closing :: ls => completes false depth ls
  | false, 0, [] => true
  | _, _, _ => false

/-- What derives from the grammar stands where an operand is wanted. -/
theorem Derives.completes_append {c : Category} {ls : List Lexeme} {x : Expression}
    (h : Derives c ls x) (depth : Nat) (rest : List Lexeme) :
    completes true depth (ls ++ rest) = completes false depth rest := by
  induction h generalizing depth rest with
  | literal _ => rfl
  | @bracket ls x _ ih =>
    calc completes true depth (.opening :: ls ++ [.closing] ++ rest)
        = completes true (depth + 1) (ls ++ .closing :: rest) := by simp [completes]
      _ = completes false depth rest := by rw [ih]; rfl
  | factor _ ih => exact ih depth rest
  | product _ _ _ ihl ihr =>
    rw [List.append_assoc, ihl, List.cons_append, completes, ihr]
  | term _ ih => exact ih depth rest
  | sum _ _ _ ihl ihr =>
    rw [List.append_assoc, ihl, List.cons_append, completes, ihr]

/-- Where lexemes complete a statement, no literal stands directly behind another operand. -/
theorem isChain_of_completes {wanted : Bool} {depth : Nat} {ls : List Lexeme}
    (h : completes wanted depth ls = true) : ls.IsChain Lexeme.MayFollow := by
  -- After an operand there is no literal.
  have hnext : ∀ depth ls, completes false depth ls = true →
      ∀ b, ls.head? = some b → b.isLiteral = false := by
    intro depth ls h b hb
    cases ls with
    | nil => simp at hb
    | cons l ls =>
      cases hb
      cases b with
      | literal text => simp [completes] at h
      | operator o => rfl
      | opening => rfl
      | closing => rfl
  fun_induction completes wanted depth ls with
  | case1 depth text ls ih =>
    refine List.isChain_cons.2 ⟨?_, ih h⟩
    intro b hb hlit
    simp [hnext depth ls h b hb] at hlit
  | case2 depth ls ih =>
    exact List.isChain_cons.2 ⟨by simp [Lexeme.MayFollow, Lexeme.isLiteral], ih h⟩
  | case3 depth o ls ih =>
    exact List.isChain_cons.2 ⟨by simp [Lexeme.MayFollow, Lexeme.isLiteral], ih h⟩
  | case4 depth ls ih =>
    refine List.isChain_cons.2 ⟨?_, ih h⟩
    intro b hb hlit
    simp [hnext depth ls h b hb] at hlit
  | case5 => exact List.isChain_nil
  | case6 => simp at h

/-- Where an operand is wanted a factor stands, and where one has ended the expression goes on as
    far as its bracket does.  By induction on the number of lexemes, since a factor in brackets
    takes an unknown number of them away. -/
theorem split_of_completes (n : Nat) : ∀ ls : List Lexeme, ls.length ≤ n →
    (∀ l ∈ ls, l.IsProper) →
    (∀ depth, completes true depth ls = true → ∃ f rest y, ls = f ++ rest ∧
      Derives .factor f y ∧ completes false depth rest = true) ∧
    (∀ depth ms x, completes false depth ls = true → Derives .expr ms x →
      ∃ more rest y, ls = more ++ rest ∧ Derives .expr (ms ++ more) y ∧
        (rest = [] ∧ depth = 0 ∨ ∃ outer after, rest = .closing :: after ∧ depth = outer + 1 ∧
          completes false outer after = true)) := by
  induction n with
  | zero =>
    intro ls hlen _
    rw [List.eq_nil_of_length_eq_zero (Nat.le_zero.1 hlen)]
    refine ⟨fun depth h => by simp [completes] at h, fun depth ms x h hx => ?_⟩
    cases depth with
    | zero => exact ⟨[], [], x, rfl, by simpa using hx, .inl ⟨rfl, rfl⟩⟩
    | succ outer => simp [completes] at h
  | succ n ih =>
    intro ls hlen hproper
    cases ls with
    | nil => exact ih [] (Nat.zero_le n) (by simp)
    | cons l ls =>
      have hls : ls.length ≤ n := Nat.le_of_succ_le_succ hlen
      have hpls : ∀ m ∈ ls, m.IsProper := fun m hm => hproper m (List.mem_cons_of_mem l hm)
      constructor
      · intro depth h
        cases l with
        | operator o => simp [completes] at h
        | closing => simp [completes] at h
        | literal text => exact ⟨[.literal text], ls, _, rfl, .literal (hproper _ (by simp)), h⟩
        | opening =>
          -- The first factor inside the bracket, what follows it, and the end of the bracket.
          obtain ⟨f, rest, y, rfl, hf, hrest⟩ := (ih ls hls hpls).1 (depth + 1) h
          have hlen' : rest.length ≤ n := by
            rw [List.length_append] at hls
            omega
          have hprest : ∀ m ∈ rest, m.IsProper := fun m hm => hpls m (List.mem_append_right f hm)
          obtain ⟨more, rest', z, rfl, hz, hend⟩ :=
            (ih rest hlen' hprest).2 (depth + 1) f y hrest (.term (.factor hf))
          rcases hend with ⟨_, hdepth⟩ | ⟨outer, after, rfl, hdepth, hafter⟩
          · simp at hdepth
          · obtain rfl : depth = outer := Nat.succ.inj hdepth
            exact ⟨.opening :: (f ++ more) ++ [.closing], after, z, by simp, .bracket hz, hafter⟩
      · intro depth ms x h hx
        cases l with
        | literal text => simp [completes] at h
        | opening => simp [completes] at h
        | closing =>
          cases depth with
          | zero => simp [completes] at h
          | succ outer =>
            exact ⟨[], .closing :: ls, x, rfl, by simpa using hx, .inr ⟨outer, ls, rfl, rfl, h⟩⟩
        | operator o =>
          -- The expression takes the operator and the next factor with it.
          obtain ⟨f, rest, y, rfl, hf, hrest⟩ := (ih ls hls hpls).1 depth h
          have hlen' : rest.length ≤ n := by
            rw [List.length_append] at hls
            omega
          have hprest : ∀ m ∈ rest, m.IsProper := fun m hm => hpls m (List.mem_append_right f hm)
          obtain ⟨z, hz⟩ := hx.append_factor o hf
          obtain ⟨more, rest', w, rfl, hw, hend⟩ := (ih rest hlen' hprest).2 depth _ z hrest hz
          exact ⟨.operator o :: (f ++ more), rest', w, by simp, by simpa using hw, hend⟩

/-- **Derivability is decided by one scan.** -/
theorem derivable_iff (ls : List Lexeme) :
    Derivable ls ↔ (∀ l ∈ ls, l.IsProper) ∧ completes true 0 ls = true := by
  constructor
  · rintro ⟨x, hx⟩
    refine ⟨hx.isProper, ?_⟩
    have hscan := hx.completes_append 0 []
    rw [List.append_nil] at hscan
    rw [hscan]
    rfl
  · rintro ⟨hproper, h⟩
    obtain ⟨f, rest, y, rfl, hf, hrest⟩ := (split_of_completes _ ls (Nat.le_refl _) hproper).1 0 h
    have hprest : ∀ l ∈ rest, l.IsProper := fun l hl => hproper l (List.mem_append_right f hl)
    obtain ⟨more, rest', z, rfl, hz, hend⟩ :=
      (split_of_completes _ rest (Nat.le_refl _) hprest).2 0 f y hrest (.term (.factor hf))
    rcases hend with ⟨rfl, _⟩ | ⟨outer, after, _, hdepth, _⟩
    · exact ⟨z, by simpa using hz⟩
    · simp at hdepth

/-- Lexemes that derive from the grammar are separated. -/
theorem Derives.separated {ls : List Lexeme} {x : Expression} (h : Derives .expr ls x) :
    Lexeme.Separated ls := by
  have hscan : completes true 0 ls = true := ((derivable_iff ls).1 ⟨x, h⟩).2
  refine (isChain_of_completes hscan).imp ?_
  rintro a b hab ⟨ha, hb⟩
  simp [(hab hb).1] at ha

end Expression

end Reckoner
