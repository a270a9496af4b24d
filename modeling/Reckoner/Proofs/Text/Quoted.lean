import Reckoner.Proofs.Text.Lines
import Reckoner.Text.Quoted

namespace Reckoner.Text

/-!
# Quoted texts

Whatever a text holds, between quotes it has no line break: what ends a line has no printed form, so
it is written by its code.  And no character is written shorter when the text grows, though it may
come to be between other quotes.

* `isPrintable_of_isLineBreak`: line breaks are not printable.
* `oneLine_quoted`: a quoted text is on one line.
* `length_quotedChars_append`: a quoted text grows at least as much as the text.
-/

/-- A code point in one of several ranges. -/
theorem inRanges_of_mem {ranges : List (Nat × Nat)} {c : Char} (low high : Nat)
    (h : (low, high) ∈ ranges) (hlow : low ≤ c.toNat) (hhigh : c.toNat ≤ high) :
    inRanges ranges c = true := by
  rw [inRanges, List.any_eq_true]
  exact ⟨(low, high), h, by simp [hlow, hhigh]⟩

/-- **Line breaks are not printable.**  Those of ASCII are controls, and the others are in the
    table. -/
theorem isPrintable_of_isLineBreak {c : Char} (h : isLineBreak c = true) :
    isPrintable c = false := by
  have hcases : (0x0A ≤ c.toNat ∧ c.toNat ≤ 0x0D ∨ 0x1C ≤ c.toNat ∧ c.toNat ≤ 0x1E) ∨
      c.toNat = 0x85 ∨ 0x2028 ≤ c.toNat ∧ c.toNat ≤ 0x2029 := by
    simp only [isLineBreak, inRanges, lineBreakRanges, List.any_cons, List.any_nil, Bool.or_false,
      Bool.or_eq_true, Bool.and_eq_true, decide_eq_true_eq] at h
    omega
  rw [isPrintable]
  rcases hcases with hascii | hnext | hseparator
  · rw [if_pos (by omega)]
    exact decide_eq_false (by omega)
  · have htable : inRanges unprintableRanges c = true :=
      inRanges_of_mem 0x7F 0xA0 (by decide) (by omega) (by omega)
    rw [if_neg (by omega), htable]
    rfl
  · have htable : inRanges unprintableRanges c = true :=
      inRanges_of_mem 0x2028 0x202F (by decide) (by omega) (by omega)
    rw [if_neg (by omega), htable]
    rfl

/-- A hexadecimal digit is not blank. -/
theorem isBlank_digitChar : ∀ d < 16, isBlank (Nat.digitChar d) = false := by decide

/-- Hexadecimal digits hold no line break. -/
theorem unbroken_hexDigits (width n : Nat) : Unbroken (hexDigits width n) := by
  induction width generalizing n with
  | zero => intro c hc; simp [hexDigits] at hc
  | succ width ih =>
    intro c hc
    rw [hexDigits] at hc
    rcases List.mem_append.1 hc with hc | hc
    · exact ih _ c hc
    · obtain rfl := List.mem_singleton.1 hc
      exact isLineBreak_of_not_isBlank (isBlank_digitChar _ (Nat.mod_lt n (by decide)))

/-- A character as it is written between quotes holds no line break. -/
theorem unbroken_escapeChar {quote : Char} (hquote : isLineBreak quote = false) (c : Char) :
    Unbroken (escapeChar quote c) := by
  -- A code is a backslash, a letter and digits.
  have hcode : ∀ letter width, Unbroken ['\\', letter] →
      Unbroken ('\\' :: letter :: hexDigits width c.toNat) :=
    fun letter width hletter => hletter.append (unbroken_hexDigits width c.toNat)
  by_cases hself : (c = quote || c = '\\') = true
  · have hc : isLineBreak c = false := by
      rcases (by simpa using hself : c = quote ∨ c = '\\') with rfl | rfl
      · exact hquote
      · decide
    have hmark : Unbroken ['\\'] := by decide
    rw [escapeChar, if_pos hself]
    exact hmark.append fun d hd => by rw [List.mem_singleton.1 hd]; exact hc
  rw [escapeChar, if_neg hself]
  by_cases hn : c = '\n'
  · rw [if_pos hn]; decide
  rw [if_neg hn]
  by_cases hr : c = '\r'
  · rw [if_pos hr]; decide
  rw [if_neg hr]
  by_cases ht : c = '\t'
  · rw [if_pos ht]; decide
  rw [if_neg ht]
  by_cases hprint : isPrintable c = true
  · -- What stands for itself is printable, so it is no line break.
    rw [if_pos hprint]
    intro d hd
    obtain rfl := List.mem_singleton.1 hd
    by_contra hbreak
    have hnot : isPrintable d = false := isPrintable_of_isLineBreak (by simpa using hbreak)
    simp [hnot] at hprint
  rw [if_neg hprint]
  by_cases hbyte : c.toNat < 0x100
  · rw [if_pos hbyte]; exact hcode 'x' 2 (by decide)
  rw [if_neg hbyte]
  by_cases hword : c.toNat < 0x10000
  · rw [if_pos hword]; exact hcode 'u' 4 (by decide)
  · rw [if_neg hword]; exact hcode 'U' 8 (by decide)

/-- The quotes around a text are not blank. -/
theorem isBlank_quoteFor (cs : List Char) : isBlank (quoteFor cs) = false := by
  rw [quoteFor]
  split
  · decide
  · decide

/-- **A quoted text is on one line,** whatever the text is. -/
theorem oneLine_quoted (s : String) : OneLine (quoted s).toList := by
  have hquote : isLineBreak (quoteFor s.toList) = false :=
    isLineBreak_of_not_isBlank (isBlank_quoteFor s.toList)
  rw [quoted, String.toList_ofList, quotedChars]
  apply OneLine.append
  · exact OneLine.of_not_isBlank (by simp) (by simpa using isBlank_quoteFor s.toList)
  · intro c hc
    rcases List.mem_cons.1 hc with rfl | hc
    · exact hquote
    · obtain ⟨d, _, hc⟩ := List.mem_flatMap.1 hc
      exact unbroken_escapeChar hquote d c hc

/-! ### The length of a quoted text -/

/-- The characters of a quoted text. -/
theorem toList_quoted (s : String) : (quoted s).toList = quotedChars s.toList :=
  String.toList_ofList

/-- Single quotes or double ones. -/
theorem quoteFor_eq_or (cs : List Char) : quoteFor cs = '\'' ∨ quoteFor cs = '"' := by
  unfold quoteFor
  split
  · exact .inr rfl
  · exact .inl rfl

/-- A text that holds its own quote keeps it when it grows: it holds both quotes. -/
theorem quoteFor_append {cs : List Char} (h : quoteFor cs ∈ cs) (ds : List Char) :
    quoteFor (cs ++ ds) = quoteFor cs := by
  have hboth : '\'' ∈ cs ∧ '"' ∈ cs := by
    unfold quoteFor at h
    split at h
    · rename_i hquote
      simp only [Bool.and_eq_true, Bool.not_eq_true', List.contains_eq_mem, decide_eq_true_eq,
        decide_eq_false_iff_not] at hquote
      exact absurd h hquote.2
    · rename_i hquote
      refine ⟨h, ?_⟩
      by_contra hdouble
      simp [h, hdouble] at hquote
  simp [quoteFor, hboth]

/-- Nothing is written as nothing. -/
theorem length_escapeChar_pos (quote c : Char) : 0 < (escapeChar quote c).length := by
  unfold escapeChar
  repeat' split
  all_goals simp

/-- **A character is not written shorter when the text grows.**  Only a quote can come to be written
    in another way, and then behind a backslash that it did not have. -/
theorem length_escapeChar_append {cs : List Char} {c : Char} (hc : c ∈ cs) (ds : List Char) :
    (escapeChar (quoteFor cs) c).length ≤ (escapeChar (quoteFor (cs ++ ds)) c).length := by
  by_cases hown : c = quoteFor cs
  · rw [quoteFor_append (hown ▸ hc)]
  by_cases hnew : c = quoteFor (cs ++ ds)
  · have hplain : isPrintable c = true ∧ c ≠ '\\' := by
      rcases quoteFor_eq_or (cs ++ ds) with hquote | hquote <;> rw [hnew, hquote] <;> decide
    rw [escapeChar_of_plain hplain.1 hown hplain.2]
    exact length_escapeChar_pos _ c
  · -- It is neither quote, so the quotes make no difference.
    have hsame : escapeChar (quoteFor cs) c = escapeChar (quoteFor (cs ++ ds)) c := by
      simp only [escapeChar, hown, hnew]
    rw [hsame]

/-- Longer parts make a longer whole. -/
theorem length_flatMap_le {f g : Char → List Char} {cs : List Char}
    (h : ∀ c ∈ cs, (f c).length ≤ (g c).length) :
    (cs.flatMap f).length ≤ (cs.flatMap g).length := by
  induction cs with
  | nil => exact Nat.le_refl 0
  | cons c cs ih =>
    rw [List.flatMap_cons, List.flatMap_cons, List.length_append, List.length_append]
    exact Nat.add_le_add (h c List.mem_cons_self)
      (ih fun d hd => h d (List.mem_cons_of_mem c hd))

/-- **A quoted text grows at least as much as the text.** -/
theorem length_quotedChars_append (cs ds : List Char) :
    (quotedChars cs).length + ds.length ≤ (quotedChars (cs ++ ds)).length := by
  have hold : (cs.flatMap (escapeChar (quoteFor cs))).length ≤
      (cs.flatMap (escapeChar (quoteFor (cs ++ ds)))).length :=
    length_flatMap_le fun c hc => length_escapeChar_append hc ds
  have hnew : (ds.flatMap fun c => [c]).length ≤
      (ds.flatMap (escapeChar (quoteFor (cs ++ ds)))).length :=
    length_flatMap_le fun c _ => length_escapeChar_pos _ c
  rw [List.flatMap_singleton'] at hnew
  simp only [quotedChars, List.length_append, List.length_cons, List.flatMap_append]
  omega

end Reckoner.Text
