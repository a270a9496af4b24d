import Reckoner.Proofs.Files.Statements
import Reckoner.Proofs.Text.Encoding.Written

namespace Reckoner.Statements

open Text

/-!
# Statements are read from every layout

A text lays statements out if it has them in order on lines of their own.  Whatever ends the lines,
whatever blanks are around the statements and whatever lines are vacant, these statements are read
from it; and every text lays some statements out, so nothing else is ever read.

* `Padding`, `LineOf`, `Terminator`: the blanks on a line, a line, and what ends it.
* `LaidOut statements cs`: the characters lay the statements out.
* `statementsOn line`: what is read from one line.
* `statementsIn_line`: a line at the front of a text is read on its own.
* `laidOut_iff`: the statements that a text lays out are those that are read from it.
* `read_layout`: what is read from a text file, in whatever encoding.
-/

/-! ### Layouts -/

/-- Blanks that end no line. -/
def Padding (cs : List Char) : Prop := ∀ c ∈ cs, isBlank c = true ∧ isLineBreak c = false

instance (cs : List Char) : Decidable (Padding cs) :=
  List.decidableBAll (fun c => isBlank c = true ∧ isLineBreak c = false) cs

/-- A line is vacant, or it has one statement between paddings. -/
inductive LineOf : List String → List Char → Prop
  | vacant {line : List Char} (h : Padding line) : LineOf [] line
  | statement {before after : List Char} {s : String} (hbefore : Padding before)
      (hs : Stripped s.toList) (hafter : Padding after) : LineOf [s] (before ++ s.toList ++ after)

/-- What ends a line: a break, or a carriage return with a line feed. -/
inductive Terminator : List Char → Prop
  | single {c : Char} (h : isLineBreak c = true) : Terminator [c]
  | pair : Terminator ['\r', '\n']

/-- Statements in order on lines of their own; what ends the last line may be missing. -/
inductive LaidOut : List String → List Char → Prop
  | last {statements : List String} {line : List Char} (h : LineOf statements line) :
      LaidOut statements line
  | line {statements more : List String} {line terminator rest : List Char}
      (hline : LineOf statements line) (hend : Terminator terminator) (hrest : LaidOut more rest) :
      LaidOut (statements ++ more) (line ++ terminator ++ rest)

/-! ### One line -/

/-- What is read from a line: the text between the blanks at its ends, if it is not empty. -/
def statementsOn (line : List Char) : List String :=
  if trim line = [] then [] else [String.ofList (trim line)]

/-- Statements are read line by line. -/
theorem ofText_eq_flatMap (text : String) :
    ofText text = (splitLines text.toList).flatMap statementsOn := by
  unfold ofText
  induction splitLines text.toList with
  | nil => rfl
  | cons line lines ih =>
    rw [List.flatMap_cons, ← ih, List.map_cons]
    by_cases hvacant : trim line = []
    · rw [List.filter_cons_of_neg (by simp [hvacant]), statementsOn, if_pos hvacant,
        List.nil_append]
    · rw [List.filter_cons_of_pos (by simp [hvacant]), statementsOn, if_neg hvacant, List.map_cons,
        List.singleton_append]

/-- A line with its statement is not broken. -/
theorem LineOf.unbroken {statements : List String} {line : List Char}
    (h : LineOf statements line) : Unbroken line := by
  cases h with
  | vacant h => exact fun c hc => (h c hc).2
  | statement hbefore hs hafter =>
    have hfront : Unbroken _ := fun c hc => (hbefore c hc).2
    exact (hfront.append hs.unbroken).append fun c hc => (hafter c hc).2

/-- The statement on a line is what is read from it. -/
theorem LineOf.statementsOn_eq {statements : List String} {line : List Char}
    (h : LineOf statements line) : statementsOn line = statements := by
  cases h with
  | vacant h => exact if_pos (trim_eq_nil_iff.2 fun c hc => (h c hc).1)
  | @statement before after s hbefore hs hafter =>
    have htrim : trim (before ++ s.toList ++ after) = s.toList :=
      trim_append_append (fun c hc => (hbefore c hc).1) hs fun c hc => (hafter c hc).1
    rw [statementsOn, htrim, if_neg hs.ne_nil, String.ofList_toList]

/-- What is read from a line is its statement. -/
theorem lineOf_statementsOn {line : List Char} (h : Unbroken line) :
    LineOf (statementsOn line) line := by
  unfold statementsOn
  by_cases hvacant : trim line = []
  · rw [if_pos hvacant]
    exact .vacant fun c hc => ⟨trim_eq_nil_iff.1 hvacant c hc, h c hc⟩
  · rw [if_neg hvacant]
    obtain ⟨before, after, hline, hbefore, hafter⟩ := exists_eq_append_trim line
    have hs : Stripped (String.ofList (trim line)).toList := by
      rw [String.toList_ofList]
      exact stripped_trim h hvacant
    have hpadding {cs : List Char} (hsub : cs ⊆ line) (hblank : ∀ c ∈ cs, isBlank c = true) :
        Padding cs := fun c hc => ⟨hblank c hc, h c (hsub hc)⟩
    have hlaid := LineOf.statement
      (hpadding (fun c hc => by rw [hline]; simp [hc]) hbefore) hs
      (hpadding (fun c hc => by rw [hline]; simp [hc]) hafter)
    rw [String.toList_ofList, ← hline] at hlaid
    exact hlaid

/-! ### Whole texts -/

/-- What is read from characters, line by line. -/
def statementsIn (cs : List Char) : List String := (splitLines cs).flatMap statementsOn

/-- What is read from a line that nothing ends. -/
theorem statementsIn_of_unbroken {line : List Char} (h : Unbroken line) :
    statementsIn line = statementsOn line := by
  unfold statementsIn
  by_cases hnil : line = []
  · subst hnil
    rfl
  · rw [splitLines_of_unbroken h hnil, List.flatMap_cons, List.flatMap_nil, List.append_nil]

/-- A break in front ends a vacant line.  That a line feed may go with it makes no difference, since
    by itself it would end a vacant line too. -/
theorem statementsIn_break {c : Char} (h : isLineBreak c = true) (rest : List Char) :
    ∃ behind, splitLines (c :: rest) = [] :: splitLines behind ∧
      statementsIn behind = statementsIn rest := by
  obtain ⟨behind, hsplit, rfl | ⟨-, rfl⟩⟩ := splitLines_break h rest
  · exact ⟨behind, hsplit, rfl⟩
  · have hfeed : splitLines ('\n' :: behind) = [] :: splitLines behind :=
      @splitLines_append_lineFeed [] (by decide) behind
    refine ⟨behind, hsplit, ?_⟩
    unfold statementsIn
    rw [hfeed, List.flatMap_cons]
    rfl

/-- **A line at the front of a text** is read on its own, whatever ends it. -/
theorem statementsIn_line {line terminator : List Char} (h : Unbroken line)
    (hend : Terminator terminator) (rest : List Char) :
    statementsIn (line ++ terminator ++ rest) = statementsOn line ++ statementsIn rest := by
  have hcut : ∃ behind, splitLines (terminator ++ rest) = [] :: splitLines behind ∧
      statementsIn behind = statementsIn rest := by
    cases hend with
    | single hc => exact statementsIn_break hc rest
    | pair => exact ⟨rest, by rw [List.cons_append, List.singleton_append, splitLines], rfl⟩
  obtain ⟨behind, hsplit, hbehind⟩ := hcut
  rw [← hbehind, List.append_assoc]
  unfold statementsIn
  rw [splitLines_append h hsplit, List.append_nil, List.flatMap_cons]

/-- What is laid out is read.  By induction on the layout, line by line. -/
theorem LaidOut.statementsIn_eq {statements : List String} {cs : List Char}
    (h : LaidOut statements cs) : statementsIn cs = statements := by
  induction h with
  | last h => rw [statementsIn_of_unbroken h.unbroken, h.statementsOn_eq]
  | line hline hend _ ih => rw [statementsIn_line hline.unbroken hend, hline.statementsOn_eq, ih]

/-- What is read is laid out.  By induction on the length, since the first line is cut off. -/
theorem laidOut_statementsIn (cs : List Char) : LaidOut (statementsIn cs) cs := by
  by_cases hbroken : Unbroken cs
  · rw [statementsIn_of_unbroken hbroken]
    exact .last (lineOf_statementsOn hbroken)
  · obtain ⟨line, c, rest, hcs, hline, hc⟩ := exists_line hbroken
    have hshorter : rest.length < cs.length := by
      rw [hcs, List.length_append, List.length_cons]
      omega
    have hlaid := LaidOut.line (lineOf_statementsOn hline) (.single hc) (laidOut_statementsIn rest)
    rw [← statementsIn_line hline (.single hc), List.append_assoc, List.singleton_append,
      ← hcs] at hlaid
    exact hlaid
termination_by cs.length

/-- **The statements that a text lays out** are those that are read from it. -/
theorem laidOut_iff {statements : List String} {text : String} :
    LaidOut statements text.toList ↔ ofText text = statements := by
  rw [ofText_eq_flatMap]
  constructor
  · exact fun h => h.statementsIn_eq
  · rintro rfl
    exact laidOut_statementsIn text.toList

/-! ### Files -/

/-- What is written in a named encoding is read as the same text. -/
theorem decodeNamed_of_encodeNamed? {name text : String} {bytes : List UInt8}
    (h : Encoding.encodeNamed? name text = some bytes) : decodeNamed name bytes = .ok text := by
  unfold Encoding.encodeNamed? at h
  by_cases hnull : name.toList.contains '\x00' = true
  · rw [if_pos hnull] at h
    cases h
  rw [if_neg hnull] at h
  obtain ⟨e, he, hbytes⟩ := Option.bind_eq_some_iff.1 h
  have hdecode : e.decode bytes = .ok text := Encoding.decode_of_encode? hbytes
  unfold decodeNamed
  rw [if_neg hnull, he]
  by_cases hnil : bytes = []
  · rw [hnil, Encoding.decode_nil] at hdecode
    rw [if_pos hnil]
    exact congrArg Except.ok (Except.ok.inj hdecode)
  · rw [if_neg hnil]
    simp only [hdecode]

/-- What is read from whatever file are stripped texts. -/
theorem stripped_of_read {encoding : String} {openFile : PathName → Except Store.Error Content}
    {path : PathName} {statements : List String}
    (h : read encoding openFile path = .ok statements) : ∀ s ∈ statements, Stripped s.toList := by
  unfold read at h
  cases hbytes : fileBytes openFile path with
  | error e => simp [hbytes] at h
  | ok bytes =>
    cases htext : decodeNamed encoding bytes with
    | error e => simp [hbytes, htext] at h
    | ok text =>
      simp only [hbytes, htext, Except.ok.injEq] at h
      subst h
      exact fun s hs => stripped_of_mem_ofText hs

/-- **Statements are read from every layout.**  If a text file holds, in the encoding it is read in,
    a text that lays statements out, then these are what is read.  Whatever its bytes are, if they
    stand for a text, then statements are read that this text lays out, and it lays no others out.
    And what is read from any file, archives included, has no line break and no blank at its
    ends. -/
theorem read_layout {encoding : String} {openFile : PathName → Except Store.Error Content}
    {path : PathName} {bytes : List UInt8} (hsuffix : path.suffix = ".txt")
    (hopen : openFile path = .ok (.bytes bytes)) :
    (∀ text statements, Encoding.encodeNamed? encoding text = some bytes →
      LaidOut statements text.toList → read encoding openFile path = .ok statements) ∧
    (∀ text, decodeNamed encoding bytes = .ok text →
      ∃ statements, read encoding openFile path = .ok statements ∧
        ∀ others, LaidOut others text.toList ↔ others = statements) ∧
    ∀ other statements, read encoding openFile other = .ok statements →
      ∀ s ∈ statements, Stripped s.toList := by
  have hread {text : String} (htext : decodeNamed encoding bytes = .ok text) :
      read encoding openFile path = .ok (ofText text) := by
    rw [read_plain hsuffix hopen, htext]
    rfl
  refine ⟨fun text statements hbytes hlaid => ?_, fun text htext => ?_,
    fun other statements h => stripped_of_read h⟩
  · rw [hread (decodeNamed_of_encodeNamed? hbytes), laidOut_iff.1 hlaid]
  · exact ⟨ofText text, hread htext, fun others => laidOut_iff.trans eq_comm⟩

/-- A vacant line, a statement between blanks, another vacant line and a statement that nothing
    ends, with three kinds of line ends in UTF-16. -/
theorem read_layout_mixed :
    let text := "\n 1+1\t\r\n\u2028)"
    ∃ bytes, Encoding.encodeNamed? "UTF-16" text = some bytes ∧
      LaidOut ["1+1", ")"] text.toList ∧
      read "UTF-16" (fun _ => .ok (.bytes bytes)) ⟨"", ["in.txt"]⟩ = .ok ["1+1", ")"] := by
  intro text
  have hend : LaidOut [")"] [')'] :=
    .last (@LineOf.statement [] [] ")" (by decide) (by decide) (by decide))
  have hvacant : LaidOut [")"] ['\u2028', ')'] :=
    @LaidOut.line [] _ [] ['\u2028'] _ (.vacant (by decide)) (.single (by decide)) hend
  have hfirst : LaidOut ["1+1", ")"] " 1+1\t\r\n\u2028)".toList :=
    @LaidOut.line ["1+1"] _ " 1+1\t".toList _ _
      (@LineOf.statement [' '] ['\t'] "1+1" (by decide) (by decide) (by decide)) .pair hvacant
  have hlaid : LaidOut ["1+1", ")"] ('\n' :: " 1+1\t\r\n\u2028)".toList) :=
    @LaidOut.line [] _ [] ['\n'] _ (.vacant (by decide)) (.single (by decide)) hfirst
  have htext : text.toList = '\n' :: " 1+1\t\r\n\u2028)".toList := by decide
  rw [← htext] at hlaid
  obtain ⟨bytes, hbytes⟩ : ∃ bytes, Encoding.encodeNamed? "UTF-16" text = some bytes :=
    Option.isSome_iff_exists.1 (by decide +kernel)
  exact ⟨bytes, hbytes, hlaid, (read_layout (by decide +kernel) rfl).1 text _ hbytes hlaid⟩

end Reckoner.Statements
