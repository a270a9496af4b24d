import Mathlib.Data.List.Perm.Basic
import Reckoner.Proofs.Postfix.Conservation
import Reckoner.Proofs.Statement.Lexing

namespace Reckoner

/-!
# Every token comes from a place of its own

The tokens of an output are the lexemes of the statement but for its brackets, each of them once.
They change places in one way only: an operator may fall behind literals that follow it.

* `Lexeme.placed ls`: the lexemes that are no brackets, each with its place.
* `Postfix.Conversion.Carries`: the invariant of the scan: what has gone out and what waits are these
  lexemes, and what has gone out before a literal stands before it.
* `Postfix.exists_places_of_ofLexemes`: so are the tokens of the output.
* `Postfix.conserved_of_convert`: nothing of a statement is lost in its conversion, and nothing
  invented.
-/

namespace Lexeme

/-- Whether a lexeme is a bracket. -/
def isBracket : Lexeme → Bool
  | .opening | .closing => true
  | _ => false

/-- The operator that a lexeme is. -/
def operator? : Lexeme → Option Operator
  | .operator o => some o
  | _ => none

/-- The lexemes that are no brackets, each with its place. -/
def placed (ls : List Lexeme) : List (Lexeme × Nat) := ls.zipIdx.filter fun l => !l.1.isBracket

/-- One more lexeme takes the next place. -/
theorem placed_concat (ls : List Lexeme) (l : Lexeme) :
    placed (ls ++ [l]) = placed ls ++ if l.isBracket then [] else [(l, ls.length)] := by
  unfold placed
  rw [List.zipIdx_append, List.filter_append, Nat.zero_add]
  cases l <;> rfl

/-- Without their places they are the lexemes that are no brackets. -/
theorem map_fst_placed (ls : List Lexeme) :
    (placed ls).map Prod.fst = ls.filter fun l => !l.isBracket := by
  induction ls using List.reverseRecOn with
  | nil => rfl
  | append_singleton ls l ih =>
    rw [placed_concat, List.map_append, ih, List.filter_append]
    cases l <;> rfl

/-- The places are those of the statement. -/
theorem lt_length_of_mem_placed {ls : List Lexeme} {l : Lexeme × Nat} (h : l ∈ placed ls) :
    l.2 < ls.length := by
  have hindex := List.snd_lt_of_mem_zipIdx (List.mem_of_mem_filter h)
  omega

/-- Operators are no brackets. -/
theorem filterMap_operator?_filter (ls : List Lexeme) :
    (ls.filter fun l => !l.isBracket).filterMap operator? = ls.filterMap operator? := by
  rw [List.filterMap_filter]
  congr 1
  funext l
  cases l <;> rfl

end Lexeme

namespace Postfix

open Lexeme

/-- The operator that a token is. -/
def Token.operator? : Token → Option Operator
  | .literal _ => none
  | .operator o => some o

/-- The lexeme that a token is. -/
def Token.lexeme : Token → Lexeme
  | .literal text => .literal text
  | .operator o => .operator o

/-- The lexeme that waits, unless it is a bracket. -/
def Pending.lexeme? : Pending → Option Lexeme
  | .opening => none
  | .operator o => some (.operator o)

namespace Conversion

/-! ### The invariant -/

/-- After the scan of `ls` the lexemes `out` have gone out, the last one first, and `waiting` are on
    the stack.  Together they are all lexemes but the brackets, and what has gone out before a
    literal stands before it in the statement. -/
structure Carries (ls : List Lexeme) (c : Conversion) (out waiting : List (Lexeme × Nat)) :
    Prop where
  output : c.output.map Token.lexeme = out.map Prod.fst
  pending : c.pending.filterMap Pending.lexeme? = waiting.map Prod.fst
  perm : (out ++ waiting).Perm (placed ls)
  order : out.Pairwise fun b a => b.1.isLiteral = true → a.2 < b.2

variable {ls : List Lexeme} {c : Conversion} {out waiting : List (Lexeme × Nat)}

/-- What has gone out has a place among the lexemes read so far. -/
theorem Carries.lt_length (h : Carries ls c out waiting) {l : Lexeme × Nat} (hl : l ∈ out) :
    l.2 < ls.length :=
  lt_length_of_mem_placed (h.perm.subset (List.mem_append_left waiting hl))

/-- Released operators go from the one part to the other.  No literal is among them, so they may
    come behind whatever has gone out. -/
theorem Carries.release (h : Carries ls c out waiting) (condition : Operator → Bool) :
    ∃ out' waiting', Carries ls (release condition c.output c.pending) out' waiting' := by
  obtain ⟨ops, rest, hpending, hops, hstop⟩ := exists_release condition c.pending
  have hlexemes : (ops.map Pending.operator).filterMap Pending.lexeme? =
      ops.map Lexeme.operator := by
    rw [List.filterMap_map]
    exact congrFun List.filterMap_eq_map' ops
  have hwaiting := h.pending.symm
  rw [hpending, List.filterMap_append, hlexemes, List.map_eq_append_iff] at hwaiting
  obtain ⟨released, kept, rfl, hreleased, hkept⟩ := hwaiting
  have hliteral : ∀ l ∈ released.reverse, l.1.isLiteral = false := by
    intro l hl
    have hmem : l.1 ∈ ops.map Lexeme.operator :=
      hreleased ▸ List.mem_map_of_mem (List.mem_reverse.1 hl)
    obtain ⟨o, -, ho⟩ := List.mem_map.1 hmem
    rw [← ho]
    rfl
  refine ⟨released.reverse ++ out, kept, ?_, ?_, ?_, ?_⟩
  · rw [hpending, release_append hops hstop, List.map_append, List.map_append, h.output,
      List.map_reverse, List.map_reverse, hreleased, List.map_map]
    rfl
  · rw [hpending, release_append hops hstop, hkept]
  · have hmove : (released.reverse ++ out).Perm (out ++ released) :=
      ((List.reverse_perm released).append_right out).trans List.perm_append_comm
    refine (hmove.append_right kept).trans ?_
    rw [List.append_assoc]
    exact h.perm
  · refine List.pairwise_append.2 ⟨?_, h.order, ?_⟩
    · rw [List.pairwise_iff_forall_sublist]
      intro b a hsub hb
      rw [hliteral b (hsub.subset List.mem_cons_self)] at hb
      cases hb
    · intro b hmem a _ hb
      rw [hliteral b hmem] at hb
      cases hb

/-- A literal goes out behind all that has gone out. -/
theorem Carries.literal (h : Carries ls c out waiting) (text : String) :
    Carries (ls ++ [.literal text]) (c.advance (.literal text))
      ((.literal text, ls.length) :: out) waiting where
  output := by
    rw [List.map_cons, ← h.output]
    rfl
  pending := h.pending
  perm := by
    rw [placed_concat]
    exact (h.perm.cons _).trans (List.perm_append_singleton _ _).symm
  order := List.pairwise_cons.2 ⟨fun a ha _ => h.lt_length ha, h.order⟩

/-- An operator that comes waits. -/
theorem Carries.operator (h : Carries ls c out waiting) (o : Operator) :
    Carries (ls ++ [.operator o]) ⟨.operator o :: c.pending, c.output⟩ out
      ((.operator o, ls.length) :: waiting) where
  output := h.output
  pending := by
    rw [List.map_cons, ← h.pending]
    rfl
  perm := by
    rw [placed_concat]
    exact (List.perm_middle.trans (h.perm.cons _)).trans (List.perm_append_singleton _ _).symm
  order := h.order

/-- A bracket has no place. -/
theorem Carries.bracket (h : Carries ls c out waiting) {l : Lexeme} (hl : l.isBracket = true)
    {pending : List Pending}
    (hpending : pending.filterMap Pending.lexeme? = c.pending.filterMap Pending.lexeme?) :
    Carries (ls ++ [l]) ⟨pending, c.output⟩ out waiting where
  output := h.output
  pending := hpending.trans h.pending
  perm := by
    rw [placed_concat, if_pos hl, List.append_nil]
    exact h.perm
  order := h.order

/-- **One lexeme** keeps the invariant. -/
theorem Carries.advance (h : Carries ls c out waiting) (l : Lexeme) :
    ∃ out' waiting', Carries (ls ++ [l]) (c.advance l) out' waiting' := by
  cases l with
  | literal text => exact ⟨_, _, h.literal text⟩
  | opening => exact ⟨_, _, h.bracket rfl rfl⟩
  | operator o =>
    obtain ⟨out', waiting', hrelease⟩ := h.release fun p => o.precedence ≤ p.precedence
    exact ⟨_, _, hrelease.operator o⟩
  | closing =>
    obtain ⟨out', waiting', hrelease⟩ := h.release fun _ => true
    refine ⟨out', waiting', hrelease.bracket rfl ?_⟩
    rcases release_all c with ⟨hpending, _⟩ | ⟨rest, hpending, _⟩
    · rw [hpending]
      rfl
    · rw [hpending]
      rfl

/-- **The invariant of the scan.** -/
theorem exists_carries (ls : List Lexeme) :
    ∃ out waiting, Carries ls (ls.foldl Conversion.advance .start) out waiting := by
  induction ls using List.reverseRecOn with
  | nil => exact ⟨[], [], rfl, rfl, .refl _, .nil⟩
  | append_singleton ls l ih =>
    obtain ⟨out, waiting, h⟩ := ih
    rw [List.foldl_append]
    exact h.advance l

end Conversion

/-! ### The output -/

/-- **The tokens of the output and their places.**  They are the lexemes of the statement but for the
    brackets, and what comes before a literal in the output stands before it in the statement. -/
theorem exists_places_of_ofLexemes {tokens : List Token} {ls : List Lexeme}
    (h : ofLexemes ls = .ok tokens) :
    ∃ places : List (Lexeme × Nat), places.map Prod.fst = tokens.map Token.lexeme ∧
      places.Perm (placed ls) ∧ places.Pairwise fun a b => b.1.isLiteral = true → a.2 < b.2 := by
  obtain ⟨_, hdepth, rfl⟩ := ofLexemes_eq_ok h
  obtain ⟨_, _, hscan⟩ := Conversion.exists_carries ls
  have hopenings : (ls.foldl Conversion.advance .start).openings = 0 :=
    (Conversion.openings_foldl_advance .start ls).trans hdepth
  generalize ls.foldl Conversion.advance .start = c at hscan hopenings
  obtain ⟨out, waiting, hfinish⟩ := hscan.release fun _ => true
  rcases Conversion.release_all c with ⟨hpending, _⟩ | ⟨rest, _, hpos⟩
  · -- Nothing waits any more, so all lexemes are in the output.
    have hnone : waiting = [] := by
      have hwaiting := hfinish.pending
      rw [hpending] at hwaiting
      exact List.map_eq_nil_iff.1 hwaiting.symm
    have hperm := hfinish.perm
    rw [hnone, List.append_nil] at hperm
    refine ⟨out.reverse, ?_, (List.reverse_perm out).trans hperm, ?_⟩
    · rw [List.map_reverse, List.map_reverse, hfinish.output]
    · exact List.pairwise_reverse.2 hfinish.order
  · omega

/-- The operators of the output are those of the statement. -/
theorem operators_of_ofLexemes {tokens : List Token} {ls : List Lexeme}
    (h : ofLexemes ls = .ok tokens) :
    (tokens.filterMap Token.operator?).Perm (ls.filterMap Lexeme.operator?) := by
  obtain ⟨places, htokens, hperm, -⟩ := exists_places_of_ofLexemes h
  have hoperators : tokens.filterMap Token.operator? =
      (places.map Prod.fst).filterMap Lexeme.operator? := by
    rw [htokens, List.filterMap_map]
    congr 1
    funext token
    cases token <;> rfl
  have hplaced : ls.filterMap Lexeme.operator? =
      ((placed ls).map Prod.fst).filterMap Lexeme.operator? := by
    rw [map_fst_placed, filterMap_operator?_filter]
  rw [hoperators, hplaced]
  exact (hperm.map Prod.fst).filterMap Lexeme.operator?

/-- Brackets are written in no token of the output. -/
theorem bracket_not_mem_of_ofLexemes {tokens : List Token} {ls : List Lexeme}
    (hproper : ∀ l ∈ ls, l.IsProper) (h : ofLexemes ls = .ok tokens) {token : Token}
    (htoken : token ∈ tokens) : '(' ∉ token.lexeme.chars ∧ ')' ∉ token.lexeme.chars := by
  cases token with
  | operator o => cases o <;> decide
  | literal text =>
    obtain ⟨-, hchars⟩ := hproper _ (mem_of_ofLexemes h htoken)
    constructor
    · intro hmem
      exact absurd (hchars '(' hmem) (by decide)
    · intro hmem
      exact absurd (hchars ')' hmem) (by decide)

/-- **A conversion loses nothing and invents nothing.**  Of a statement that is converted, the
    literals of the output are those of the statement, in their order and as they are written, the
    operators are those of the statement in some order, and there are no brackets.  The tokens can
    be given the places of these lexemes in the statement, each place once, so that every operator
    comes behind all literals that stand before it. -/
theorem conserved_of_convert {statement : Option String} {tokens : List Token}
    (h : convert statement = .ok tokens) :
    ∃ ls, Statement.tokenize statement = .ok ls ∧
      tokens.filterMap Token.literal? = ls.filterMap Lexeme.literal? ∧
      (tokens.filterMap Token.operator?).Perm (ls.filterMap Lexeme.operator?) ∧
      (∀ token ∈ tokens, '(' ∉ token.lexeme.chars ∧ ')' ∉ token.lexeme.chars) ∧
      ∃ places : List (Lexeme × Nat), places.map Prod.fst = tokens.map Token.lexeme ∧
        places.Perm (placed ls) ∧
        ∀ (i j a b : Nat) (text : String) (o : Operator), places[i]? = some (.literal text, a) →
          places[j]? = some (.operator o, b) → a < b → i < j := by
  unfold convert at h
  cases htokenize : Statement.tokenize statement with
  | error e =>
    rw [htokenize] at h
    cases h
  | ok ls =>
    rw [htokenize] at h
    obtain ⟨s, rfl⟩ : ∃ s, statement = some s := by
      cases statement with
      | none => cases htokenize
      | some s => exact ⟨s, rfl⟩
    obtain ⟨places, htokens, hperm, horder⟩ := exists_places_of_ofLexemes h
    refine ⟨ls, rfl, literals_of_ofLexemes h, operators_of_ofLexemes h,
      fun token => bracket_not_mem_of_ofLexemes (Statement.isProper_of_tokenize htokenize) h,
      places, htokens, hperm, ?_⟩
    intro i j a b text o hi hj hab
    by_contra hle
    rcases Nat.lt_or_eq_of_le (Nat.le_of_not_lt hle) with hlt | rfl
    · -- An operator in front of the literal would stand before it.
      obtain ⟨hilt, hi⟩ := List.getElem?_eq_some_iff.1 hi
      obtain ⟨hjlt, hj⟩ := List.getElem?_eq_some_iff.1 hj
      have hbefore := List.pairwise_iff_getElem.1 horder j i hjlt hilt hlt
      rw [hi, hj] at hbefore
      have hba : b < a := hbefore rfl
      omega
    · rw [hi] at hj
      cases hj

/-- An operator that waits for a bracket, and an empty bracket, which leaves no trace. -/
theorem conserved_of_convert_brackets :
    convert (some "2*(3+4) - ()") = .ok [.literal "2", .literal "3", .literal "4",
      .operator .plus, .operator .times, .operator .minus] ∧
    ∃ ls, Statement.tokenize (some "2*(3+4) - ()") = .ok ls ∧
      ls.filterMap Lexeme.literal? = ["2", "3", "4"] ∧
      [Operator.plus, .times, .minus].Perm (ls.filterMap Lexeme.operator?) := by
  have h : convert (some "2*(3+4) - ()") = .ok [.literal "2", .literal "3", .literal "4",
      .operator .plus, .operator .times, .operator .minus] := by decide +kernel
  obtain ⟨ls, hls, hliterals, hoperators, -, -⟩ := conserved_of_convert h
  exact ⟨h, ls, hls, hliterals.symm, hoperators⟩

end Postfix

end Reckoner
