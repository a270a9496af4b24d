import Reckoner.Proofs.Command.Frame

namespace Reckoner.Command

/-!
# The results of two files in one directory

Results go beside the statement file, under a name that is derived from that of the file.  Dots
become underscores in it, so `a.b.txt` and `a_b.txt` share a results file, and what it holds are the
results of the one that was calculated last.  Names that differ in anything else have results files
of their own, and the command on the one leaves the results of the other as they were.

* `resultsPath?_eq_iff`: which files share a results file.
* `Succeeds m store words input p`: the command calculates a file and writes beside it.
* `results_apart`: what is left of the results of two files.
* `results_shared`: two files with one results file.
-/

open Statements

variable {root : String} {directory : List String} {name other : String}

/-- The results path of a statement file. -/
theorem resultsPath?_of_ofPath? (h : Source.ofPath? ⟨root, directory ++ [name]⟩ ≠ none) :
    name.toList.getLast? ≠ some '.' ∧ PathName.resultsPath? ⟨root, directory ++ [name]⟩ =
      some ⟨root, directory ++ [String.ofList (PathName.resultsName name.toList)]⟩ := by
  obtain ⟨c, hlast, hdot⟩ := Source.exists_getLast h
  rw [PathName.name_concat] at hlast
  refine ⟨fun hend => hdot (Option.some.inj (hlast.symm.trans hend)), ?_⟩
  refine PathName.resultsPath?_concat root directory ?_
  rintro rfl
  cases hlast

/-- **Which files share a results file.** -/
theorem resultsPath?_eq_iff (hname : Source.ofPath? ⟨root, directory ++ [name]⟩ ≠ none)
    (hother : Source.ofPath? ⟨root, directory ++ [other]⟩ ≠ none) :
    PathName.resultsPath? ⟨root, directory ++ [name]⟩ =
        PathName.resultsPath? ⟨root, directory ++ [other]⟩ ↔
      PathName.Alike name.toList other.toList := by
  obtain ⟨hlast, hpath⟩ := resultsPath?_of_ofPath? hname
  obtain ⟨hlast', hpath'⟩ := resultsPath?_of_ofPath? hother
  rw [hpath, hpath', ← PathName.resultsName_eq_iff hlast hlast', Option.some.injEq,
    PathName.mk.injEq, List.append_cancel_left_eq, List.cons.injEq, String.ofList_inj]
  simp

/-! ### Two commands -/

/-- The words ask for a file and a precision, but for no path of the results, and the command
    succeeds. -/
structure Succeeds (m : Batch.Machine) (store : Store) (words : List String) (input : PathName)
    (p : Precision) : Prop where
  settings : ∃ workers, settings store.read words = .ok ⟨input, none, p, workers⟩
  records : (run m store words).records.isOk = true

/-- What the results file of statements holds. -/
def resultsContent (p : Precision) (statements : List String) : Content :=
  .bytes (Encoding.encodeUtf8 (Batch.resultsText p statements))

/-- A successful command has written the results of its input beside it. -/
theorem Succeeds.written {m : Batch.Machine} {store : Store} {words : List String}
    {input path : PathName} {p : Precision} (h : Succeeds m store words input p)
    (hpath : input.resultsPath? = some path) :
    ∃ statements, read standardEncoding store.read input = .ok statements ∧
      store.write path (Encoding.encodeUtf8 (Batch.resultsText p statements)) =
        .ok (run m store words).store := by
  obtain ⟨⟨workers, hsettings⟩, hok⟩ := h
  cases hrun : (run m store words).records with
  | error e => simp [hrun, Except.isOk, Except.toBool] at hok
  | ok records =>
    obtain ⟨path', statements, hpath', hread, hwrite⟩ := run_eq_ok hrun hsettings
    obtain rfl : path = path' := Option.some.inj (hpath.symm.trans hpath')
    exact ⟨statements, hread, hwrite⟩

/-- **Different names have different results,** unless they are alike.  The results paths of two
    statement files in one directory are the same if and only if the names have the same leading
    dots and differ only in that the one has a dot where the other has an underscore.  When one file
    is calculated after the other, the results of the second are at their path in any case, and if
    the names are not alike then those of the first still are at theirs. -/
theorem results_apart (hname : Source.ofPath? ⟨root, directory ++ [name]⟩ ≠ none)
    (hother : Source.ofPath? ⟨root, directory ++ [other]⟩ ≠ none) :
    ∃ path path', PathName.resultsPath? ⟨root, directory ++ [name]⟩ = some path ∧
      PathName.resultsPath? ⟨root, directory ++ [other]⟩ = some path' ∧
      (path = path' ↔ PathName.Alike name.toList other.toList) ∧
      ∀ m m' store words words' p p', Succeeds m store words ⟨root, directory ++ [name]⟩ p →
        let first := (run m store words).store
        Succeeds m' first words' ⟨root, directory ++ [other]⟩ p' →
        let second := (run m' first words').store
        ∃ statements statements',
          read standardEncoding store.read ⟨root, directory ++ [name]⟩ = .ok statements ∧
          read standardEncoding first.read ⟨root, directory ++ [other]⟩ = .ok statements' ∧
          second.read path' = .ok (resultsContent p' statements') ∧
          (¬ PathName.Alike name.toList other.toList →
            second.read path = .ok (resultsContent p statements)) := by
  obtain ⟨hlast, hpath⟩ := resultsPath?_of_ofPath? hname
  obtain ⟨hlast', hpath'⟩ := resultsPath?_of_ofPath? hother
  have hiff := resultsPath?_eq_iff hname hother
  rw [hpath, hpath', Option.some.injEq] at hiff
  refine ⟨_, _, hpath, hpath', hiff, ?_⟩
  intro m m' store words words' p p' hfirst first hsecond second
  obtain ⟨statements, hread, hwrite⟩ := hfirst.written hpath
  obtain ⟨statements', hread', hwrite'⟩ := hsecond.written hpath'
  refine ⟨statements, statements', hread, hread', Store.read_of_write hwrite', fun halike => ?_⟩
  -- The second results are written under another name.
  have hne : String.ofList (PathName.resultsName other.toList) ≠
      String.ofList (PathName.resultsName name.toList) := by
    intro heq
    exact halike ((PathName.resultsName_eq_iff hlast hlast').1 (String.ofList_inj.1 heq.symm))
  exact Store.read_of_write_of_ne hwrite' (Store.read_of_write hwrite)
    fun _ => Store.resolve_ne_of_name_ne (PathName.ofList_resultsName_ne_back _) hne

/-- A working directory with two statement files of one line each. -/
def twoFiles (name other : String) : Store :=
  ((Store.within ["work"]).add [name] (.file (.bytes (Encoding.encodeUtf8 "1\n")))).add [other]
    (.file (.bytes (Encoding.encodeUtf8 "2\n")))

/-- Two files share their results path, and the results of the first one are lost. -/
theorem results_shared :
    let m := Batch.Machine.inOrder none
    let first := (run m (twoFiles "a.b.txt" "a_b.txt") ["a.b.txt"]).store
    let second := (run m first ["a_b.txt"]).store
    let path : PathName := ⟨"", ["a_b_txt_results.txt"]⟩
    "a.b.txt" ≠ "a_b.txt" ∧ Source.ofPath? ⟨"", ["a.b.txt"]⟩ = some .plain ∧
      Source.ofPath? ⟨"", ["a_b.txt"]⟩ = some .plain ∧
      PathName.resultsPath? ⟨"", ["a.b.txt"]⟩ = some path ∧
      PathName.resultsPath? ⟨"", ["a_b.txt"]⟩ = some path ∧
      first.read path = .ok (resultsContent 4 ["1"]) ∧
      second.read path = .ok (resultsContent 4 ["2"]) ∧
      resultsContent 4 ["1"] ≠ resultsContent 4 ["2"] := by
  decide +kernel

/-- A leading dot is kept, so two names that differ in one have different results. -/
theorem results_apart_leading :
    let m := Batch.Machine.inOrder none
    let first := (run m (twoFiles ".a.txt" "_a.txt") [".a.txt"]).store
    let second := (run m first ["_a.txt"]).store
    second.read ⟨"", ["_a_txt_results.txt"]⟩ = .ok (resultsContent 4 ["2"]) ∧
      second.read ⟨"", [".a_txt_results.txt"]⟩ = .ok (resultsContent 4 ["1"]) := by
  intro m first second
  have hfirst : Succeeds m (twoFiles ".a.txt" "_a.txt") [".a.txt"] ⟨"", [".a.txt"]⟩ 4 :=
    ⟨⟨none, by decide +kernel⟩, by decide +kernel⟩
  have hsecond : Succeeds m first ["_a.txt"] ⟨"", ["_a.txt"]⟩ 4 :=
    ⟨⟨none, by decide +kernel⟩, by decide +kernel⟩
  obtain ⟨path, path', hpath, hpath', -, hboth⟩ :=
    @results_apart "" [] ".a.txt" "_a.txt" (by decide +kernel) (by decide +kernel)
  obtain ⟨statements, statements', hread, hread', hlatter, hformer⟩ :=
    hboth _ _ _ _ _ _ _ hfirst hsecond
  -- The paths and the statements are known.
  obtain rfl : ⟨"", [".a_txt_results.txt"]⟩ = path :=
    Option.some.inj (Eq.trans (by decide +kernel) hpath)
  obtain rfl : ⟨"", ["_a_txt_results.txt"]⟩ = path' :=
    Option.some.inj (Eq.trans (by decide +kernel) hpath')
  obtain rfl : ["1"] = statements := Except.ok.inj (Eq.trans (by decide +kernel) hread)
  obtain rfl : ["2"] = statements' := Except.ok.inj (Eq.trans (by decide +kernel) hread')
  exact ⟨hlatter, hformer (by decide)⟩

end Reckoner.Command
