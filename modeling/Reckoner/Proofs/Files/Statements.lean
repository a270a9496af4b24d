import Reckoner.Files.Statements
import Reckoner.Proofs.Text.Encoding.Utf8
import Reckoner.Proofs.Text.Lines
import Reckoner.Proofs.Text.PathName

namespace Reckoner.Statements

open Text

/-!
# Statements and the texts they are read from

Every statement that is read is a stripped text on one line, and such texts are read back from a
file that holds one of them on each line.

* `stripped_of_mem_ofText`: what is read is stripped.
* `ofText_join`: stripped texts, each ended by a line feed, are read back.
* `Source.exists_getLast`: the name of a statement file does not end in a dot.
* `read_plain`: what is read from a text file.
* `read_eq_ok`: what statements that were read have been read from.
-/

/-- **What is read is stripped.** -/
theorem stripped_of_mem_ofText {text s : String} (h : s ∈ ofText text) : Stripped s.toList := by
  unfold ofText at h
  obtain ⟨cs, hcs, rfl⟩ := List.mem_map.1 h
  obtain ⟨htrim, hne⟩ := List.mem_filter.1 hcs
  obtain ⟨line, hline, rfl⟩ := List.mem_map.1 htrim
  rw [String.toList_ofList]
  exact stripped_trim (unbroken_of_mem_splitLines hline) (by simpa using hne)

/-- **Stripped texts on lines of their own are read back,** in their order. -/
theorem ofText_join {lines : List String} (h : ∀ line ∈ lines, Stripped line.toList) :
    ofText (String.join (lines.map fun line => line ++ "\n")) = lines := by
  have hsplit : splitLines (String.join (lines.map fun line => line ++ "\n")).toList =
      lines.map String.toList := by
    rw [String.toList_join]
    induction lines with
    | nil => rfl
    | cons line lines ih =>
      have hline : Stripped line.toList := h line List.mem_cons_self
      have hfeed : ("\n" : String).toList = ['\n'] := rfl
      rw [List.map_cons, List.flatMap_cons, String.toList_append, hfeed, List.append_assoc,
        List.singleton_append, splitLines_append_lineFeed hline.unbroken,
        ih fun other hother => h other (List.mem_cons_of_mem line hother), List.map_cons]
  -- Neither stripping nor the filter changes a line.
  have hstrip : lines.map (trim ∘ String.toList) = lines.map String.toList :=
    List.map_congr_left fun line hline => trim_eq_self (h line hline)
  unfold ofText
  rw [hsplit, List.map_map, hstrip, List.filter_eq_self.2, List.map_map]
  · have hback : String.ofList ∘ String.toList = id := funext fun _ => String.ofList_toList
    rw [hback, List.map_id]
  · intro cs hcs
    obtain ⟨line, hline, rfl⟩ := List.mem_map.1 hcs
    simpa using (h line hline).ne_nil

/-! ### Files -/

/-- The name of a statement file does not end in a dot. -/
theorem Source.exists_getLast {path : PathName} (h : Source.ofPath? path ≠ none) :
    ∃ c, path.name.toList.getLast? = some c ∧ c ≠ '.' := by
  by_cases hsuffix : PathName.suffixOf path.name.toList = []
  · by_cases hsuffixes : PathName.suffixesOf path.name.toList = []
    · have hempty : path.suffix = "" ∧ path.suffixes = [] := by
        simp [PathName.suffix, PathName.suffixes, hsuffix, hsuffixes]
      exact absurd (by simp [Source.ofPath?, hempty]) h
    · exact PathName.exists_getLast_of_suffixesOf hsuffixes
  · exact PathName.exists_getLast_of_suffixOf hsuffix

/-- Bytes in the standard encoding. -/
theorem decodeNamed_standard (bytes : List UInt8) :
    decodeNamed standardEncoding bytes =
      match Encoding.decode .utf8 bytes with
      | .ok text => .ok text
      | .error e => .error (.undecodable e) := by
  have hnull : standardEncoding.toList.contains '\x00' = false := by decide
  have hname : Encoding.named? standardEncoding = some .utf8 := by decide +kernel
  unfold decodeNamed
  rw [if_neg (by rw [hnull]; exact Bool.false_ne_true), hname]
  by_cases hbytes : bytes = []
  · have hempty : Encoding.decode .utf8 [] = .ok "" := Encoding.decode_encodeUtf8 ""
    rw [if_pos hbytes, hbytes, hempty]
  · exact if_neg hbytes

/-- What is read from a text file. -/
theorem read_plain {encoding : String} {openFile : PathName → Except Store.Error Content}
    {path : PathName} {bytes : List UInt8} (hsuffix : path.suffix = ".txt")
    (hopen : openFile path = .ok (.bytes bytes)) :
    read encoding openFile path = (decodeNamed encoding bytes).map ofText := by
  have hbytes : fileBytes openFile path = .ok bytes := by
    unfold fileBytes Source.ofPath?
    rw [if_pos hsuffix, hopen]
  unfold read
  simp only [hbytes]
  cases decodeNamed encoding bytes <;> rfl

/-- Statements of a text file are those of its text. -/
theorem read_eq_ok {openFile : PathName → Except Store.Error Content} {path : PathName}
    {bytes : List UInt8} {statements : List String} (hsuffix : path.suffix = ".txt")
    (hopen : openFile path = .ok (.bytes bytes))
    (h : read standardEncoding openFile path = .ok statements) :
    ∃ text, Encoding.decode .utf8 bytes = .ok text ∧ statements = ofText text := by
  rw [read_plain hsuffix hopen, decodeNamed_standard] at h
  cases hdecode : Encoding.decode .utf8 bytes with
  | error e =>
    rw [hdecode] at h
    cases h
  | ok text =>
    rw [hdecode] at h
    exact ⟨text, rfl, (Except.ok.inj h).symm⟩

/-- Statements are read from a file that can be opened. -/
theorem exists_content_of_read {encoding : String}
    {openFile : PathName → Except Store.Error Content} {path : PathName} {statements : List String}
    (h : read encoding openFile path = .ok statements) :
    ∃ content, openFile path = .ok content := by
  unfold read fileBytes at h
  cases hsource : Source.ofPath? path with
  | none => simp [hsource] at h
  | some source =>
    cases hopen : openFile path with
    | error e => simp [hsource, hopen] at h
    | ok content => exact ⟨content, rfl⟩

end Reckoner.Statements
