import Reckoner.Batch.Run
import Reckoner.Proofs.Calculator.Display
import Reckoner.Proofs.Calculator.Outcome
import Reckoner.Proofs.Text.Quoted

namespace Reckoner

open Text

/-!
# Result lines stay lines

What is written about a statement has no line break and nothing at its ends that would be stripped,
if the statement itself has not: a result has numeral characters only, and a reason is a fixed text
with at most a quoted text or a number in it.

* `Failure.oneLine_message`: every reason is on one line.
* `Batch.resultLine`: what is written about a statement.
* `Batch.exists_ending_resultLine`: what stands behind the statement is on one line.
* `Batch.stripped_resultLine`: it is stripped if the statement is.
* `Batch.resultsText`, `Batch.text_run`: the text of the results file.
-/

/-! ### Reasons -/

/-- What is wrong with a statement is said on one line. -/
theorem Statement.Error.oneLine_message (e : Statement.Error) : OneLine e.message.toList := by
  cases e with
  | missing => decide +kernel
  | invalidSymbols statement =>
    show OneLine ("Statement contains invalid symbols: " ++ quoted statement).toList
    rw [String.toList_append]
    exact (oneLine_quoted statement).append (by decide +kernel)
  | noOperatorBeforeOpening => decide +kernel
  | operatorAtEdge => decide +kernel
  | consecutiveOperators => decide +kernel
  | operatorBeforeClosing => decide +kernel
  | unmatchedClosing => decide +kernel
  | unmatchedOpening => decide +kernel

/-- The characters of a number are no line breaks. -/
theorem unbroken_toString (n : Nat) : Unbroken (toString n).toList := by
  intro c hc
  rw [Nat.toString_eq_ofList_toDigits, String.toList_ofList] at hc
  have hdigit : c.isDigit = true := Nat.isDigit_of_mem_toDigits (by decide) (by decide) hc
  have hnumeral : Display.isNumeral c = true := by simp [Display.isNumeral, hdigit]
  exact isLineBreak_of_not_isBlank (Display.isBlank_of_isNumeral hnumeral)

/-- Why a postfix sequence has no value is said on one line. -/
theorem Postfix.Error.oneLine_message (e : Postfix.Error) : OneLine e.message.toList := by
  cases e with
  | invalidLiteral text =>
    show OneLine ("Invalid number literal: " ++ quoted text).toList
    rw [String.toList_append]
    exact (oneLine_quoted text).append (by decide)
  | missingOperands o =>
    show OneLine ("Not enough operands for operator " ++
      quoted (String.singleton o.symbol)).toList
    rw [String.toList_append]
    exact (oneLine_quoted _).append (by decide)
  | noOperand => decide
  | remainingOperands count =>
    show OneLine ("Invalid expression (" ++ toString count ++ " remaining operands)").toList
    rw [String.toList_append, String.toList_append, List.append_assoc]
    -- The number stands in the middle, so only its characters count.
    have hend : OneLine (" remaining operands)" : String).toList := by decide
    exact (hend.append (unbroken_toString count)).append (by decide)

/-- **Every reason is on one line.** -/
theorem Failure.oneLine_message (failure : Failure) : OneLine failure.message.toList := by
  cases failure with
  | malformed e => exact e.oneLine_message
  | unevaluable e => exact e.oneLine_message
  | notFinite value =>
    cases value with
    | nan => decide
    | infinity negative =>
      cases negative with
      | false => decide
      | true => decide
  | notShown value =>
    cases value with
    | nan => decide
    | infinity => exact (by decide : OneLine "cannot convert float infinity to integer".toList)

namespace Batch

/-! ### Lines -/

/-- What is written about a statement: its result behind an equals sign, or the reason why it has
    none. -/
def resultLine (p : Precision) (statement : String) : String :=
  match (calculate p (some statement)).outcome with
  | .ok answer => statement ++ " = " ++ answer.formatted
  | .error failure => statement ++ " -> ERROR: " ++ failure.message

/-- A line of a batch is written like that, whatever its number. -/
theorem render_ofOutcome (p : Precision) (number : Nat) (statement : String) :
    (ResultLine.ofOutcome number statement (calculate p (some statement)).outcome).render =
      resultLine p statement := by
  unfold resultLine
  cases (calculate p (some statement)).outcome with
  | ok answer => rfl
  | error failure => rfl

/-- The result of a calculation is on one line. -/
theorem oneLine_formatted {p : Precision} {statement : Option String} {answer : Answer}
    (h : (calculate p statement).outcome = .ok answer) : OneLine answer.formatted.toList := by
  obtain ⟨_, _, _, hformat⟩ := calculate_eq_ok h
  obtain ⟨hne, hnumeral⟩ := Display.numeral_of_format hformat
  exact OneLine.of_not_isBlank hne fun c hc => Display.isBlank_of_isNumeral (hnumeral c hc)

/-- What stands behind a statement on its line is on one line: the result or the reason ends it. -/
theorem exists_ending_resultLine (p : Precision) (statement : String) :
    ∃ ending, (resultLine p statement).toList = statement.toList ++ ending ∧ OneLine ending := by
  unfold resultLine
  cases houtcome : (calculate p (some statement)).outcome with
  | ok answer =>
    refine ⟨" = ".toList ++ answer.formatted.toList, ?_,
      (oneLine_formatted houtcome).append (by decide)⟩
    show (statement ++ " = " ++ answer.formatted).toList = _
    rw [String.toList_append, String.toList_append, List.append_assoc]
  | error failure =>
    refine ⟨" -> ERROR: ".toList ++ failure.message.toList, ?_,
      failure.oneLine_message.append (by decide)⟩
    show (statement ++ " -> ERROR: " ++ failure.message).toList = _
    rw [String.toList_append, String.toList_append, List.append_assoc]

/-- **A line about a stripped statement is stripped.**  It starts as the statement does, and it ends
    as the result or the reason does. -/
theorem stripped_resultLine (p : Precision) {statement : String} (h : Stripped statement.toList) :
    Stripped (resultLine p statement).toList := by
  obtain ⟨ending, hline, hending⟩ := exists_ending_resultLine p statement
  rw [hline]
  exact h.append hending

/-- The lines of a batch are written in the order of its statements. -/
theorem render_lines (p : Precision) (statements : List String) :
    (lines p statements).map ResultLine.render = statements.map (resultLine p) := by
  apply List.ext_getElem?
  intro i
  unfold lines outcomes
  rw [List.getElem?_map, List.getElem?_map, List.getElem?_mapIdx, List.getElem?_map]
  cases statements[i]? with
  | none => rfl
  | some statement => exact congrArg some (render_ofOutcome p (i + 1) statement)

/-- The lines about all statements, each ended by a line feed. -/
def resultsText (p : Precision) (statements : List String) : String :=
  String.join ((statements.map (resultLine p)).map fun line => line ++ "\n")

/-- **The text of the results file** is made of the lines of the statements, whatever the machine
    and the number of workers. -/
theorem text_run (m : Machine) (p : Precision) (allowed : Option Nat) (statements : List String)
    (destination : String) :
    (run m p allowed statements destination).text = resultsText p statements := by
  unfold Report.text resultsText
  rw [← render_lines, List.map_map]
  rfl

end Batch

end Reckoner
