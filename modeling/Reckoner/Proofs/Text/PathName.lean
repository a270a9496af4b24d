import Mathlib.Data.List.Forall2
import Mathlib.Data.List.TakeWhile
import Reckoner.Text.PathName

namespace Reckoner.PathName

open Text

/-!
# The results path lies beside the input

Whatever dots a name has, the name of its results file is longer by an ending of its own.  So the
two are different files of one directory, and the results file is never the parent directory.

In front of the ending stands the name with its dots as underscores, except for the leading ones.
So two names share a results file if they differ only in that the one has a dot where the other has
an underscore, but not in their leading dots.

* `length_resultsName`: the name of the results file is longer.
* `resultsPath?_eq_some`: where the results path differs from the input path.
* `resultsName_eq`: what stands in front of the ending.
* `Alike m n`: the names differ in dots and underscores only, and not in their leading dots.
* `resultsName_eq_iff`: which names share a results file.
-/

/-- The name of the results file is longer than that of the input file. -/
theorem length_resultsName (name : List Char) : name.length + 12 ≤ (resultsName name).length := by
  have hending : ("_results.txt".toList : List Char).length = 12 := by decide
  simp only [resultsName, List.length_append, List.length_take, List.length_map, hending]
  omega

/-- It is not the name that leads back. -/
theorem ofList_resultsName_ne_back (name : List Char) :
    String.ofList (resultsName name) ≠ ".." := by
  intro heq
  have hlength := length_resultsName name
  have hback : resultsName name = ['.', '.'] := by
    have hchars := congrArg String.toList heq
    rwa [String.toList_ofList] at hchars
  rw [hback] at hlength
  simp at hlength

/-- The name of a file in a directory. -/
@[simp] theorem name_concat (root : String) (directory : List String) (name : String) :
    PathName.name ⟨root, directory ++ [name]⟩ = name := by
  unfold PathName.name
  rw [List.getLast?_concat, Option.getD_some]

/-- A path with a name ends in it. -/
theorem parts_eq_append_name {p : PathName} (h : p.name ≠ "") :
    ∃ directory, p.parts = directory ++ [p.name] := by
  rcases List.eq_nil_or_concat p.parts with hnil | ⟨directory, last, hparts⟩
  · exact absurd (by simp [name, hnil]) h
  · have hname : p.name = last := by simp [name, hparts]
    exact ⟨directory, by rw [hname, hparts, List.concat_eq_append]⟩

/-- **The results path** lies in the directory of the input path and has a longer name. -/
theorem resultsPath?_eq_some {p path : PathName} (h : p.resultsPath? = some path) :
    ∃ directory name, p.parts = directory ++ [p.name] ∧ path = ⟨p.root, directory ++ [name]⟩ ∧
      p.name.length + 12 ≤ name.length := by
  unfold resultsPath? at h
  by_cases hname : p.name = ""
  · rw [if_pos hname] at h
    cases h
  · rw [if_neg hname] at h
    obtain ⟨directory, hparts⟩ := parts_eq_append_name hname
    refine ⟨directory, String.ofList (resultsName p.name.toList), hparts, ?_, ?_⟩
    · rw [← Option.some.inj h, withName, hparts, List.dropLast_concat]
    · have hlength := length_resultsName p.name.toList
      rwa [String.length_toList, ← String.length_ofList] at hlength

/-! ### The pieces of a name -/

/-- The pieces of a text, each with a separator in front, are the text with one in front. -/
theorem flatten_fields (separator : Char) (cs : List Char) :
    ((fields separator cs).map (separator :: ·)).flatten = separator :: cs := by
  induction cs with
  | nil => rfl
  | cons c rest ih =>
    rw [fields]
    by_cases hc : c = separator
    · rw [if_pos hc, List.map_cons, List.flatten_cons, ih, hc]
      rfl
    · rw [if_neg hc]
      cases hfields : fields separator rest with
      | nil => exact absurd hfields (fields_ne_nil separator rest)
      | cons field more =>
        rw [hfields] at ih
        simpa using ih

/-- All pieces but the first, each with a separator in front, are the text from its first separator
    on. -/
theorem flatten_drop_fields (separator : Char) (cs : List Char) :
    (((fields separator cs).drop 1).map (separator :: ·)).flatten =
      cs.dropWhile (· ≠ separator) := by
  induction cs with
  | nil => rfl
  | cons c rest ih =>
    rw [fields]
    by_cases hc : c = separator
    · rw [if_pos hc, List.dropWhile_cons_of_neg (by simp [hc]), List.drop_one, List.tail_cons,
        flatten_fields, hc]
    · rw [if_neg hc, List.dropWhile_cons_of_pos (by simp [hc]), ← ih]
      cases hfields : fields separator rest with
      | nil => exact absurd hfields (fields_ne_nil separator rest)
      | cons field more => rfl

/-- The suffixes of a name are what it has from the first dot on behind its leading dots. -/
theorem flatten_suffixesOf {name : List Char} (h : name.getLast? ≠ some '.') :
    (suffixesOf name).flatten = (name.dropWhile (· = '.')).dropWhile (· ≠ '.') := by
  rw [suffixesOf, if_neg h, flatten_drop_fields]

/-- A name with a last suffix does not end in a dot. -/
theorem exists_getLast_of_suffixOf {name : List Char} (h : suffixOf name ≠ []) :
    ∃ c, name.getLast? = some c ∧ c ≠ '.' := by
  unfold suffixOf at h
  rw [ite_ne_right_iff] at h
  obtain ⟨⟨hextension, -⟩, -⟩ := h
  rw [← List.head?_reverse]
  cases hreverse : name.reverse with
  | nil => simp [hreverse] at hextension
  | cons c rest =>
    refine ⟨c, rfl, ?_⟩
    rintro rfl
    simp [hreverse] at hextension

/-- Nor does a name with any suffixes; the two are not found in the same way. -/
theorem exists_getLast_of_suffixesOf {name : List Char} (h : suffixesOf name ≠ []) :
    ∃ c, name.getLast? = some c ∧ c ≠ '.' := by
  unfold suffixesOf at h
  rw [ite_ne_left_iff] at h
  obtain ⟨hdot, hfields⟩ := h
  cases hlast : name.getLast? with
  | none =>
    rw [List.getLast?_eq_none_iff.1 hlast] at hfields
    exact absurd rfl hfields
  | some c =>
    refine ⟨c, rfl, ?_⟩
    rintro rfl
    exact hdot hlast

/-! ### Names that share a results file -/

/-- A dot becomes an underscore. -/
def flatten (c : Char) : Char := if c = '.' then '_' else c

/-- A name with its leading dots as they are and all other dots as underscores. -/
def flattened (name : List Char) : List Char :=
  name.takeWhile (· = '.') ++ (name.dropWhile (· = '.')).map flatten

/-- Nothing changes in front of the first dot. -/
theorem map_flatten (cs : List Char) :
    cs.map flatten = cs.takeWhile (· ≠ '.') ++ (cs.dropWhile (· ≠ '.')).map flatten := by
  induction cs with
  | nil => rfl
  | cons c rest ih =>
    by_cases hc : c = '.'
    · simp [hc]
    · have hflatten : flatten c = c := if_neg hc
      rw [List.map_cons, List.takeWhile_cons_of_pos (by simp [hc]),
        List.dropWhile_cons_of_pos (by simp [hc]), ih, hflatten, List.cons_append]

/-- **The name of the results file** is the flattened name and the ending. -/
theorem resultsName_eq {name : List Char} (h : name.getLast? ≠ some '.') :
    resultsName name = flattened name ++ "_results.txt".toList := by
  have htake (front ending : List Char) :
      (front ++ ending).take ((front ++ ending).length - ending.length) = front := by simp
  have hname : (name.takeWhile (· = '.') ++ (name.dropWhile (· = '.')).takeWhile (· ≠ '.')) ++
      (name.dropWhile (· = '.')).dropWhile (· ≠ '.') = name := by
    rw [List.append_assoc, List.takeWhile_append_dropWhile, List.takeWhile_append_dropWhile]
  have hfront := htake
    (name.takeWhile (· = '.') ++ (name.dropWhile (· = '.')).takeWhile (· ≠ '.'))
    ((name.dropWhile (· = '.')).dropWhile (· ≠ '.'))
  rw [hname] at hfront
  unfold resultsName flattened
  simp only [flatten_suffixesOf h, hfront, map_flatten (name.dropWhile (· = '.')),
    List.append_assoc]
  rfl

/-- Two characters that are the same, or that are dots and underscores both. -/
def SameMark (c d : Char) : Prop := c = d ∨ c ∈ ['.', '_'] ∧ d ∈ ['.', '_']

instance (c d : Char) : Decidable (SameMark c d) :=
  inferInstanceAs (Decidable (c = d ∨ c ∈ ['.', '_'] ∧ d ∈ ['.', '_']))

/-- Two names that differ in dots and underscores only, and not in their leading dots. -/
structure Alike (m n : List Char) : Prop where
  leading : m.takeWhile (· = '.') = n.takeWhile (· = '.')
  marks : List.Forall₂ SameMark m n

instance (m n : List Char) : Decidable (Alike m n) :=
  decidable_of_iff (m.takeWhile (· = '.') = n.takeWhile (· = '.') ∧ List.Forall₂ SameMark m n)
    ⟨fun h => ⟨h.1, h.2⟩, fun h => ⟨h.leading, h.marks⟩⟩

/-- A dot and an underscore become the same, and no other two characters do. -/
theorem flatten_eq_iff {c d : Char} : flatten c = flatten d ↔ SameMark c d := by
  unfold flatten SameMark
  by_cases hc : c = '.' <;> by_cases hd : d = '.' <;> simp [hc, hd] <;> grind

/-- The leading dots of a flattened name are those of the name: there are no others. -/
theorem takeWhile_flattened (name : List Char) :
    (flattened name).takeWhile (· = '.') = name.takeWhile (· = '.') := by
  unfold flattened
  induction name with
  | nil => rfl
  | cons c rest ih =>
    by_cases hc : c = '.'
    · rw [List.takeWhile_cons_of_pos (by simp [hc]), List.dropWhile_cons_of_pos (by simp [hc]),
        List.cons_append, List.takeWhile_cons_of_pos (by simp [hc]), ih]
    · have hflatten : flatten c ≠ '.' := by rwa [show flatten c = c from if_neg hc]
      rw [List.takeWhile_cons_of_neg (by simp [hc]), List.dropWhile_cons_of_neg (by simp [hc]),
        List.nil_append, List.map_cons, List.takeWhile_cons_of_neg (by simp [hflatten])]

/-- With dots as underscores, leading ones too, two texts are the same if they differ in dots and
    underscores only. -/
theorem map_flatten_eq_iff {m n : List Char} :
    m.map flatten = n.map flatten ↔ List.Forall₂ SameMark m n := by
  rw [← List.forall₂_eq_eq_eq, List.forall₂_map_left_iff, List.forall₂_map_right_iff]
  simp only [flatten_eq_iff]

/-- Flattened names are the same if the names are alike. -/
theorem flattened_eq_iff {m n : List Char} : flattened m = flattened n ↔ Alike m n := by
  have hsplit (name : List Char) : name.map flatten =
      (name.takeWhile (· = '.')).map flatten ++ (name.dropWhile (· = '.')).map flatten := by
    rw [← List.map_append, List.takeWhile_append_dropWhile]
  -- With the same dots in front it is the rest that counts, and they may be flattened too.
  have hrest (h : m.takeWhile (· = '.') = n.takeWhile (· = '.')) :
      flattened m = flattened n ↔ m.map flatten = n.map flatten := by
    rw [flattened, flattened, hsplit m, hsplit n, h, List.append_cancel_left_eq,
      List.append_cancel_left_eq]
  constructor
  · intro h
    have hleading : m.takeWhile (· = '.') = n.takeWhile (· = '.') := by
      rw [← takeWhile_flattened m, h, takeWhile_flattened n]
    exact ⟨hleading, map_flatten_eq_iff.1 ((hrest hleading).1 h)⟩
  · rintro ⟨hleading, hmarks⟩
    exact (hrest hleading).2 (map_flatten_eq_iff.2 hmarks)

/-- **Which names share a results file.** -/
theorem resultsName_eq_iff {m n : List Char} (hm : m.getLast? ≠ some '.')
    (hn : n.getLast? ≠ some '.') : resultsName m = resultsName n ↔ Alike m n := by
  rw [resultsName_eq hm, resultsName_eq hn, List.append_cancel_right_eq, flattened_eq_iff]

example : Alike "a.b.txt".toList "a_b.txt".toList ∧ ¬ Alike ".a.txt".toList "_a.txt".toList := by
  decide

/-- The results path of a file in a directory. -/
theorem resultsPath?_concat (root : String) (directory : List String) {name : String}
    (h : name ≠ "") : resultsPath? ⟨root, directory ++ [name]⟩ =
      some ⟨root, directory ++ [String.ofList (resultsName name.toList)]⟩ := by
  unfold resultsPath? withName
  rw [name_concat, if_neg h, List.dropLast_concat]

end Reckoner.PathName
