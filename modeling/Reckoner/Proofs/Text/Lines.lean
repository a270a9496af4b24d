import Mathlib.Data.List.DropRight
import Mathlib.Data.List.TakeWhile
import Reckoner.Text.Lines

namespace Reckoner.Text

/-!
# Texts on one line

What keeps a text together when it is written to a file of lines and read back: no character of it
ends a line, and no blank of it is stripped.

* `Unbroken cs`: no line break.
* `OneLine cs`: no line break, and no blank at the end.
* `Stripped cs`: no blank at the start either.
* `Ended cs`: no line break at the end.
* `splitLines_append`, `splitLines_break`: lines at the front of a text, and breaks there.
* `splitLines_append_lineFeed`: a line feed cuts unbroken characters off as a line of their own.
* `splitLines_append_of_ended`: it cuts off what is ended, with all its lines.
* `trim_append_append`: the blanks around a stripped text are stripped.
* `trim_eq_self`: nothing is stripped from a stripped text.
* `stripped_trim`: what stripping leaves of a line is nothing or a stripped text.
-/

/-- Characters without a line break. -/
def Unbroken (cs : List Char) : Prop := ∀ c ∈ cs, isLineBreak c = false

/-- Characters without a line break whose last one is not blank. -/
structure OneLine (cs : List Char) : Prop where
  unbroken : Unbroken cs
  ending : cs.getLast?.map isBlank = some false

/-- Characters without a line break and without blanks at their ends. -/
structure Stripped (cs : List Char) : Prop extends OneLine cs where
  start : cs.head?.map isBlank = some false

instance (cs : List Char) : Decidable (Unbroken cs) :=
  decidable_of_iff (cs.all fun c => !isLineBreak c) (by simp [Unbroken])

instance (cs : List Char) : Decidable (OneLine cs) :=
  decidable_of_iff (Unbroken cs ∧ cs.getLast?.map isBlank = some false)
    ⟨fun h => ⟨h.1, h.2⟩, fun h => ⟨h.unbroken, h.ending⟩⟩

instance (cs : List Char) : Decidable (Stripped cs) :=
  decidable_of_iff (OneLine cs ∧ cs.head?.map isBlank = some false)
    ⟨fun h => ⟨h.1, h.2⟩, fun h => ⟨h.toOneLine, h.start⟩⟩

/-! ### Putting texts together -/

/-- A character that is not blank is no line break. -/
theorem isLineBreak_of_not_isBlank {c : Char} (h : isBlank c = false) : isLineBreak c = false := by
  by_contra hbreak
  have hblank : isBlank c = true := isBlank_of_isLineBreak c (by simpa using hbreak)
  rw [h] at hblank
  exact Bool.false_ne_true hblank

/-- Nothing is broken by putting unbroken characters together. -/
theorem Unbroken.append {cs ds : List Char} (hcs : Unbroken cs) (hds : Unbroken ds) :
    Unbroken (cs ++ ds) := by
  intro c hc
  rcases List.mem_append.1 hc with hc | hc
  · exact hcs c hc
  · exact hds c hc

/-- Characters of which none is blank are on one line. -/
theorem OneLine.of_not_isBlank {cs : List Char} (hne : cs ≠ [])
    (h : ∀ c ∈ cs, isBlank c = false) : OneLine cs where
  unbroken := fun c hc => isLineBreak_of_not_isBlank (h c hc)
  ending := by
    rw [List.getLast?_eq_some_getLast hne, Option.map_some, h _ (List.getLast_mem hne)]

/-- A text on one line is not empty. -/
theorem OneLine.ne_nil {cs : List Char} (h : OneLine cs) : cs ≠ [] := by
  rintro rfl
  exact absurd h.ending (by simp)

/-- Unbroken characters before a text leave it on one line. -/
theorem OneLine.append {cs ds : List Char} (hds : OneLine ds) (hcs : Unbroken cs) :
    OneLine (cs ++ ds) where
  unbroken := hcs.append hds.unbroken
  ending := by
    have hend : ds.getLast?.map isBlank = some false := hds.ending
    cases hlast : ds.getLast? with
    | none => rw [hlast] at hend; exact absurd hend (by simp)
    | some c =>
      rw [hlast] at hend
      rw [List.getLast?_append, hlast]
      exact hend

/-- A stripped text and another one on the same line are stripped together. -/
theorem Stripped.append {cs ds : List Char} (hcs : Stripped cs) (hds : OneLine ds) :
    Stripped (cs ++ ds) where
  toOneLine := hds.append hcs.unbroken
  start := by
    have hstart : cs.head?.map isBlank = some false := hcs.start
    cases cs with
    | nil => exact absurd hstart (by simp)
    | cons c cs => exact hstart

/-! ### Lines -/

/-- A character that ends no line belongs to the first one of what follows it. -/
theorem splitLines_cons {c : Char} (h : isLineBreak c = false) (rest : List Char) :
    splitLines (c :: rest) = match splitLines rest with
      | [] => [[c]]
      | line :: lines => (c :: line) :: lines := by
  rw [splitLines]
  · exact if_neg (by rw [h]; exact Bool.false_ne_true)
  · rintro after rfl _
    exact absurd h (by decide)

/-- Unbroken characters go to the first line of what follows them.  By induction on them, since the
    breaks are looked for from the front. -/
theorem splitLines_append {line rest first : List Char} {more : List (List Char)}
    (h : Unbroken line) (hrest : splitLines rest = first :: more) :
    splitLines (line ++ rest) = (line ++ first) :: more := by
  induction line with
  | nil => exact hrest
  | cons c line ih =>
    have hline : Unbroken line := fun d hd => h d (List.mem_cons_of_mem c hd)
    rw [List.cons_append, splitLines_cons (h c List.mem_cons_self), ih hline, List.cons_append]

/-- Unbroken characters are one line, if there are any. -/
theorem splitLines_of_unbroken {line : List Char} (h : Unbroken line) (hne : line ≠ []) :
    splitLines line = [line] := by
  obtain ⟨first, last, rfl⟩ := List.eq_nil_or_concat line |>.resolve_left hne
  rw [List.concat_eq_append] at h ⊢
  have hlast : splitLines [last] = [[last]] := by
    rw [splitLines_cons (h last (by simp)), splitLines]
  exact splitLines_append (fun c hc => h c (List.mem_append_left [last] hc)) hlast

/-- A break in front ends an empty line, if it is not the carriage return before a line feed. -/
theorem splitLines_of_isLineBreak {c : Char} {rest : List Char} (h : isLineBreak c = true)
    (hpair : ∀ behind, c = '\r' → rest = '\n' :: behind → False) :
    splitLines (c :: rest) = [] :: splitLines rest := by
  rw [splitLines, if_pos h]
  exact hpair

/-- A break in front ends an empty line.  The line feed behind a carriage return goes with it. -/
theorem splitLines_break {c : Char} (h : isLineBreak c = true) (rest : List Char) :
    ∃ behind, splitLines (c :: rest) = [] :: splitLines behind ∧
      (behind = rest ∨ c = '\r' ∧ rest = '\n' :: behind) := by
  by_cases hpair : ∃ behind, c = '\r' ∧ rest = '\n' :: behind
  · obtain ⟨behind, rfl, rfl⟩ := hpair
    exact ⟨behind, by rw [splitLines], .inr ⟨rfl, rfl⟩⟩
  · have hsingle : splitLines (c :: rest) = [] :: splitLines rest :=
      splitLines_of_isLineBreak h fun behind hc hrest => hpair ⟨behind, hc, hrest⟩
    exact ⟨rest, hsingle, .inl rfl⟩

/-- **A line feed cuts off a line.** -/
theorem splitLines_append_lineFeed {line : List Char} (h : Unbroken line)
    (rest : List Char) : splitLines (line ++ '\n' :: rest) = line :: splitLines rest := by
  obtain ⟨behind, hsplit, rfl | ⟨hreturn, -⟩⟩ := @splitLines_break '\n' (by decide) rest
  · rw [splitLines_append h hsplit, List.append_nil]
  · exact absurd hreturn (by decide)

/-- What is broken has a first line and a break behind it. -/
theorem exists_line {cs : List Char} (h : ¬ Unbroken cs) :
    ∃ line c rest, cs = line ++ c :: rest ∧ Unbroken line ∧ isLineBreak c = true := by
  cases hfind : cs.find? isLineBreak with
  | none => exact absurd (fun c hc => by simpa using List.find?_eq_none.1 hfind c hc) h
  | some c =>
    obtain ⟨hc, line, rest, hcs, hline⟩ := List.find?_eq_some_iff_append.1 hfind
    exact ⟨line, c, rest, hcs, fun d hd => by simpa using hline d hd, hc⟩

/-- There is a line, unless there is nothing. -/
theorem splitLines_ne_nil {cs : List Char} (h : cs ≠ []) : splitLines cs ≠ [] := by
  fun_induction splitLines cs with
  | case1 => exact absurd rfl h
  | case2 => simp
  | case3 => simp
  | case4 => simp
  | case5 => simp

/-- The last character ends no line, so what follows starts a line only behind a break. -/
def Ended (cs : List Char) : Prop := cs.getLast?.map isLineBreak = some false

/-- What is ended is not empty. -/
theorem Ended.ne_nil {cs : List Char} (h : Ended cs) : cs ≠ [] := by
  rintro rfl
  exact absurd h (by simp [Ended])

/-- The end of a text is that of what stands last in it. -/
theorem Ended.of_append (before : List Char) {cs : List Char} (hne : cs ≠ [])
    (h : Ended (before ++ cs)) : Ended cs := by
  unfold Ended at h ⊢
  rwa [List.getLast?_append_of_ne_nil before hne] at h

/-- Something follows every break. -/
theorem Ended.ne_nil_of_isLineBreak (before : List Char) {c : Char} {rest : List Char}
    (hc : isLineBreak c = true) (h : Ended (before ++ c :: rest)) : rest ≠ [] := by
  rintro rfl
  unfold Ended at h
  rw [List.getLast?_concat, Option.map_some, hc] at h
  cases h

/-- A text on one line is ended, whatever is before it. -/
theorem OneLine.ended_append {cs : List Char} (h : OneLine cs) (before : List Char) :
    Ended (before ++ cs) := by
  unfold Ended
  rw [List.getLast?_append_of_ne_nil before h.ne_nil, List.getLast?_eq_some_getLast h.ne_nil,
    Option.map_some, h.unbroken _ (List.getLast_mem h.ne_nil)]

/-- **A line feed cuts off what is ended,** with all its lines. -/
theorem splitLines_append_of_ended {cs : List Char} (h : Ended cs) (rest : List Char) :
    splitLines (cs ++ '\n' :: rest) = splitLines cs ++ splitLines rest := by
  fun_induction splitLines cs with
  | case1 => exact absurd rfl h.ne_nil
  | case2 behind ih =>
    have hne : behind ≠ [] := h.ne_nil_of_isLineBreak ['\r'] (by decide)
    rw [List.cons_append, List.cons_append, splitLines, ih (h.of_append ['\r', '\n'] hne),
      List.cons_append]
  | case3 c behind hpair hc ih =>
    have hne : behind ≠ [] := h.ne_nil_of_isLineBreak [] hc
    rw [List.cons_append, splitLines_of_isLineBreak hc, ih (h.of_append [c] hne), List.cons_append]
    -- The line feed behind all of it is not the next character.
    obtain ⟨d, more, rfl⟩ := List.exists_cons_of_ne_nil hne
    rintro after rfl hafter
    rw [List.cons_append, List.cons.injEq] at hafter
    exact hpair more rfl (by rw [hafter.1])
  | case4 c behind _ hc hbehind ih =>
    obtain rfl : behind = [] := by_contra fun hne => splitLines_ne_nil hne hbehind
    exact splitLines_append_lineFeed (fun d hd => by simpa [List.mem_singleton.1 hd] using hc) rest
  | case5 c behind _ hc first lines hbehind ih =>
    have hne : behind ≠ [] := by
      rintro rfl
      cases hbehind
    rw [List.cons_append, splitLines_cons (by simpa using hc), ih (h.of_append [c] hne), hbehind,
      List.cons_append, List.cons_append]

/-- What is ended is one line if and only if it is not broken. -/
theorem length_splitLines_eq_one_iff {cs : List Char} (h : Ended cs) :
    (splitLines cs).length = 1 ↔ Unbroken cs := by
  constructor
  · intro hone
    by_contra hbroken
    obtain ⟨line, c, rest, rfl, hline, hc⟩ := exists_line hbroken
    obtain ⟨behind, hsplit, hbehind⟩ := splitLines_break hc rest
    -- Something follows the first break, and so a second line does.
    have hne : behind ≠ [] := by
      have hrest : rest ≠ [] := h.ne_nil_of_isLineBreak line hc
      rcases hbehind with rfl | ⟨-, rfl⟩
      · exact hrest
      · rw [List.append_cons] at h
        exact h.ne_nil_of_isLineBreak (line ++ [c]) (by decide)
    rw [splitLines_append hline hsplit, List.length_cons] at hone
    exact splitLines_ne_nil hne (List.length_eq_zero_iff.1 (by omega))
  · intro hunbroken
    rw [splitLines_of_unbroken hunbroken h.ne_nil, List.length_singleton]

/-- No line holds a break. -/
theorem unbroken_of_mem_splitLines {cs line : List Char} (h : line ∈ splitLines cs) :
    Unbroken line := by
  fun_induction splitLines cs generalizing line with
  | case1 => simp at h
  | case2 rest ih =>
    rcases List.mem_cons.1 h with rfl | h
    · decide
    · exact ih h
  | case3 c rest _ _ ih =>
    rcases List.mem_cons.1 h with rfl | h
    · decide
    · exact ih h
  | case4 c rest _ hc hrest ih =>
    rw [List.mem_singleton] at h
    subst h
    intro d hd
    obtain rfl := List.mem_singleton.1 hd
    simpa using hc
  | case5 c rest _ hc first lines hrest ih =>
    rw [hrest] at ih
    rcases List.mem_cons.1 h with rfl | h
    · intro d hd
      rcases List.mem_cons.1 hd with rfl | hd
      · simpa using hc
      · exact ih List.mem_cons_self d hd
    · exact ih (List.mem_cons_of_mem first h)

/-! ### Stripping -/

/-- Stripping drops the blanks at the start and then those at the end. -/
theorem trim_eq (cs : List Char) : trim cs = (cs.dropWhile isBlank).rdropWhile isBlank := rfl

/-- What stripping leaves is part of the text. -/
theorem mem_of_mem_trim {cs : List Char} {c : Char} (h : c ∈ trim cs) : c ∈ cs := by
  rw [trim_eq] at h
  have hdrop : c ∈ cs.dropWhile isBlank := (List.rdropWhile_prefix isBlank _).subset h
  exact (List.dropWhile_suffix isBlank).subset hdrop

/-- Nothing is left of blanks, and of nothing else. -/
theorem trim_eq_nil_iff {cs : List Char} : trim cs = [] ↔ ∀ c ∈ cs, isBlank c = true := by
  rw [trim_eq, List.rdropWhile_eq_nil_iff]
  constructor
  · intro h
    -- The first character that is dropped last would not be blank.
    rw [← List.dropWhile_eq_nil_iff]
    by_contra hne
    have hhead := List.head_dropWhile_not isBlank hne
    rw [h _ (List.head_mem hne)] at hhead
    cases hhead
  · exact fun h c hc => h c ((List.dropWhile_suffix isBlank).subset hc)

/-- What is stripped from a text are blanks at its ends. -/
theorem exists_eq_append_trim (cs : List Char) :
    ∃ before after, cs = before ++ trim cs ++ after ∧ (∀ c ∈ before, isBlank c = true) ∧
      ∀ c ∈ after, isBlank c = true := by
  refine ⟨cs.takeWhile isBlank, (cs.dropWhile isBlank).rtakeWhile isBlank, ?_,
    fun c hc => List.mem_takeWhile_imp hc, fun c hc => List.mem_rtakeWhile_imp hc⟩
  rw [trim_eq, List.append_assoc, List.rdropWhile_append_rtakeWhile,
    List.takeWhile_append_dropWhile]

/-- **Blanks around a stripped text are stripped,** and nothing else is. -/
theorem trim_append_append {before cs after : List Char} (hbefore : ∀ c ∈ before, isBlank c = true)
    (h : Stripped cs) (hafter : ∀ c ∈ after, isBlank c = true) :
    trim (before ++ cs ++ after) = cs := by
  have hfront : (before ++ cs ++ after).dropWhile isBlank = cs ++ after := by
    rw [List.append_assoc, List.dropWhile_append_of_pos hbefore]
    have hstart := h.start
    cases cs with
    | nil => exact absurd hstart (by simp)
    | cons c cs =>
      have hc : isBlank c = false := by simpa using hstart
      rw [List.cons_append, List.dropWhile_cons_of_neg (by simp [hc])]
  have hback : (cs ++ after).rdropWhile isBlank = cs.rdropWhile isBlank := by
    unfold List.rdropWhile
    rw [List.reverse_append, List.dropWhile_append_of_pos fun c hc => hafter c (by simpa using hc)]
  rw [trim_eq, hfront, hback, List.rdropWhile_eq_self_iff]
  intro hne
  have hlast := h.ending
  rw [List.getLast?_eq_some_getLast hne] at hlast
  simpa using hlast

/-- **Nothing is stripped from a stripped text.** -/
theorem trim_eq_self {cs : List Char} (h : Stripped cs) : trim cs = cs := by
  have htrim := @trim_append_append [] cs [] (by simp) h (by simp)
  rwa [List.nil_append, List.append_nil] at htrim

/-- **What is left of a line is stripped,** unless nothing is left. -/
theorem stripped_trim {cs : List Char} (h : Unbroken cs) (hne : trim cs ≠ []) :
    Stripped (trim cs) where
  unbroken := fun c hc => h c (mem_of_mem_trim hc)
  ending := by
    rw [List.getLast?_eq_some_getLast hne]
    have hlast := List.rdropWhile_last_not isBlank (cs.dropWhile isBlank) hne
    simpa [trim_eq] using hlast
  start := by
    -- The first character is the first one behind the blanks at the start.
    have hpre : trim cs <+: cs.dropWhile isBlank := List.rdropWhile_prefix isBlank _
    have hhead := List.head?_dropWhile_not isBlank cs
    rw [List.head?_eq_some_head hne, hpre.head hne, Option.map_some, Option.some.injEq]
    rw [List.head?_eq_some_head (hpre.ne_nil hne)] at hhead
    exact hhead

end Reckoner.Text
