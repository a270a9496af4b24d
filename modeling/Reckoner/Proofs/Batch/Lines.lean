import Reckoner.Proofs.Batch.Recovery

namespace Reckoner.Batch

open Text

/-!
# A batch has a line for each statement

A batch comes to an end whatever its statements are: each has a line with its own outcome, and one
that is rejected does not touch the others.  In the results file every line is ended by a line feed,
and nothing that is written behind a statement breaks the line.  But the statement itself is written
as it is given, and a line break counts as a blank inside a statement.  So the file has as many
lines as the batch has statements just if no statement holds a line break.

* `ended_resultLine`: what is written about a statement does not end in a break.
* `unbroken_resultLine_iff`: it is broken if and only if the statement is.
* `splitLines_resultsText`: the lines of the results file.
* `length_splitLines_resultsText_iff`: how many they are.
* `lines_of_run`: the lines of a batch and of its results file.
-/

/-! ### One statement -/

/-- What is written about a statement does not end in a break. -/
theorem ended_resultLine (p : Precision) (statement : String) :
    Ended (resultLine p statement).toList := by
  obtain ⟨ending, hline, hending⟩ := exists_ending_resultLine p statement
  rw [hline]
  exact hending.ended_append statement.toList

/-- Only the statement can break what is written about it. -/
theorem unbroken_resultLine_iff (p : Precision) (statement : String) :
    Unbroken (resultLine p statement).toList ↔ Unbroken statement.toList := by
  obtain ⟨ending, hline, hending⟩ := exists_ending_resultLine p statement
  rw [hline]
  exact ⟨fun h c hc => h c (List.mem_append_left ending hc), fun h => h.append hending.unbroken⟩

/-! ### The results file -/

/-- The lines of the results file are the lines of what is written about each statement. -/
theorem splitLines_resultsText (p : Precision) (statements : List String) :
    splitLines (resultsText p statements).toList =
      statements.flatMap fun s => splitLines (resultLine p s).toList := by
  unfold resultsText
  rw [String.toList_join]
  induction statements with
  | nil => rfl
  | cons s statements ih =>
    have hfeed : ("\n" : String).toList = ['\n'] := rfl
    rw [List.map_cons, List.map_cons, List.flatMap_cons, List.flatMap_cons, String.toList_append,
      hfeed, List.append_assoc, List.singleton_append,
      splitLines_append_of_ended (ended_resultLine p s), ih]

/-- There is at least one line for each statement, and just one for each if none is broken. -/
theorem length_splitLines_resultsText_iff (p : Precision) (statements : List String) :
    statements.length ≤ (splitLines (resultsText p statements).toList).length ∧
      ((splitLines (resultsText p statements).toList).length = statements.length ↔
        ∀ s ∈ statements, Unbroken s.toList) := by
  rw [splitLines_resultsText]
  induction statements with
  | nil => simp
  | cons s statements ih =>
    obtain ⟨hle, hiff⟩ := ih
    have hended := ended_resultLine p s
    have hone : 0 < (splitLines (resultLine p s).toList).length :=
      List.length_pos_iff.2 (splitLines_ne_nil hended.ne_nil)
    have hbroken := (length_splitLines_eq_one_iff hended).trans (unbroken_resultLine_iff p s)
    rw [List.flatMap_cons, List.length_append, List.length_cons, List.forall_mem_cons, ← hiff,
      ← hbroken]
    omega

/-- Without line breaks in the statements, the lines of the results file are what is written about
    them. -/
theorem splitLines_resultsText_of_unbroken (p : Precision) {statements : List String}
    (h : ∀ s ∈ statements, Unbroken s.toList) :
    splitLines (resultsText p statements).toList =
      statements.map fun s => (resultLine p s).toList := by
  rw [splitLines_resultsText, List.map_eq_flatMap]
  refine List.flatMap_congr fun s hs => ?_
  have hunbroken : Unbroken (resultLine p s).toList := (unbroken_resultLine_iff p s).2 (h s hs)
  exact splitLines_of_unbroken hunbroken (ended_resultLine p s).ne_nil

/-- Without line breaks in the statements, the lines of the results file are the renderings. -/
theorem splitLines_resultsText_eq_render (p : Precision) {statements : List String}
    (h : ∀ s ∈ statements, Unbroken s.toList) :
    splitLines (resultsText p statements).toList =
      (lines p statements).map fun line => line.render.toList := by
  have hchars := congrArg (List.map String.toList) (render_lines p statements)
  rw [List.map_map, List.map_map] at hchars
  rw [splitLines_resultsText_of_unbroken p h]
  exact hchars.symm

/-! ### The batch -/

/-- The line of a statement has its number, the statement as it was given, and either the text of
    its result or the reason why there is none. -/
theorem lineOf_eq (p : Precision) (number : Nat) (statement : String) :
    let calculation := calculate p (some statement)
    lineOf p number statement = ⟨number, statement, calculation.formatted?,
      calculation.failure?.map Failure.message⟩ := by
  intro calculation
  show ResultLine.ofOutcome number statement calculation.outcome = _
  unfold Calculation.formatted? Calculation.failure?
  cases calculation.outcome with
  | ok answer => rfl
  | error failure => rfl

/-- **The lines of a batch.**  Whatever the machine, the statements and the number of workers that
    are allowed, there is a line for each statement, in their order and numbered from one, with its
    own outcome.  The lines of the results file are those of the renderings, one after the other;
    there are as many as statements if and only if no statement holds a line break, and then each
    line is a rendering. -/
theorem lines_of_run (m : Machine) (p : Precision) (allowed : Option Nat)
    (statements : List String) (destination : String) :
    let report := run m p allowed statements destination
    let file := splitLines report.text.toList
    report.lines.length = statements.length ∧
    (∀ (i : Nat) (s : String), statements[i]? = some s →
      let calculation := calculate p (some s)
      report.lines[i]? = some (ResultLine.mk (i + 1) s calculation.formatted?
        (calculation.failure?.map Failure.message))) ∧
    file = report.lines.flatMap (fun line => splitLines line.render.toList) ∧
    (file.length = statements.length ↔ ∀ s ∈ statements, Unbroken s.toList) ∧
    ((∀ s ∈ statements, Unbroken s.toList) →
      file = report.lines.map fun line => line.render.toList) := by
  intro report file
  have hfile : file = splitLines (resultsText p statements).toList := by
    rw [← text_run m p allowed statements destination]
  have hlines : report.lines = statements.mapIdx fun i s => lineOf p (i + 1) s :=
    lines_eq_mapIdx p statements
  have hrender : report.lines.map ResultLine.render = statements.map (resultLine p) :=
    render_lines p statements
  refine ⟨by rw [hlines, List.length_mapIdx], fun i s hs => ?_, ?_, ?_, fun h =>
    hfile.trans (splitLines_resultsText_eq_render p h)⟩
  · rw [hlines, List.getElem?_mapIdx, hs, Option.map_some, lineOf_eq]
  · have hflat : (statements.map (resultLine p)).flatMap (fun line => splitLines line.toList) =
        statements.flatMap fun s => splitLines (resultLine p s).toList :=
      List.flatMap_map _ _ statements
    rw [hfile, splitLines_resultsText, ← hflat, ← hrender, List.flatMap_map]
  · rw [hfile]
    exact (length_splitLines_resultsText_iff p statements).2

/-- A statement over two lines has a result, and the file has a line too many. -/
theorem lines_of_run_broken :
    let report := run (.inOrder none) 4 none ["1\n+1"] "results.txt"
    report.lines = [⟨1, "1\n+1", some "2", none⟩] ∧
      (splitLines report.text.toList).length ≠ 1 := by
  obtain ⟨-, -, -, hcount, -⟩ := lines_of_run (.inOrder none) 4 none ["1\n+1"] "results.txt"
  refine ⟨by decide +kernel, fun hone => ?_⟩
  exact absurd (hcount.1 hone) (by decide)

end Reckoner.Batch
