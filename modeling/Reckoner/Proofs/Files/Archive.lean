import Mathlib.Data.List.Nodup
import Reckoner.Proofs.Files.Statements

namespace Reckoner

open Statements

/-!
# Archives of the same members are read alike

The formats of archives list their members differently, but the text file that is found among the
listed names is the same one: a directory is not listed, or under a name that is no text file's.
One format makes an exception.  It lists directories like files, so a directory with the name of a
text file is taken for one if it comes first, and a directory cannot be read.

* `Archive.firstText?`: the bytes of the first text file among members.
* `Archive.Obstructed`: the first name of a text file among members is that of a directory.
* `Archive.Format.fetch?_of_listedName?`: among members of different names each is handed out for
  the name it is listed under.
* `Statements.memberBytes_eq`: the bytes that are found in an archive.
* `Statements.read_archive`: what is read from an archive, compared with what is read from a text
  file of the same bytes.
-/

namespace Archive

/-- The bytes of the first regular file that has the name of a text file. -/
def firstText? (members : List Member) : Option (List UInt8) :=
  members.findSome? fun m => if isTextName m.name then m.bytes else none

/-- The first member that has the name of a text file is a directory. -/
def Obstructed (members : List Member) : Prop :=
  ∃ m, members.find? (fun m => isTextName m.name) = some m ∧ m.isFile = false

namespace Format

/-! ### What is listed -/

/-- The members that a format lists as text files: the files with such names, and in one format the
    directories too. -/
def listsAsText (format : Format) (m : Member) : Bool :=
  isTextName m.name && (m.isFile || format = .sevenZip)

/-- A name with a slash at its end is not that of a text file. -/
theorem isTextName_append_slash (name : String) : isTextName (name ++ "/") = false := by
  have hslash : (name ++ "/").toList = name.toList ++ ['/'] := by
    rw [String.toList_append]
    rfl
  have htext : ".txt".toList = ['.', 't', 'x'] ++ ['t'] := rfl
  rw [isTextName, hslash, htext, Bool.eq_false_iff, Ne, List.isSuffixOf_iff_suffix]
  rintro ⟨before, hbefore⟩
  rw [← List.append_assoc] at hbefore
  have hlast := (List.append_inj' hbefore rfl).2
  exact absurd hlast (by decide)

/-- These are the members under whose listed names text files are looked for. -/
theorem any_listedName? (format : Format) (m : Member) :
    (format.listedName? m).any isTextName = format.listsAsText m := by
  unfold listsAsText
  cases format with
  | zip =>
    cases hfile : m.isFile with
    | true => simp [listedName?, hfile]
    | false => simp [listedName?, hfile, isTextName_append_slash]
  | tarXz => cases hfile : m.isFile <;> simp [listedName?, hfile]
  | sevenZip => simp [listedName?]

/-- What is listed as a text file is listed under its own name. -/
theorem eq_name_of_listedName? {format : Format} {m : Member} {name : String}
    (h : format.listedName? m = some name) (htext : isTextName name = true) : name = m.name := by
  cases format with
  | zip =>
    simp only [listedName?, Option.some.injEq] at h
    split at h
    · exact h.symm
    · -- A directory is listed with a slash.
      rw [← h, isTextName_append_slash] at htext
      cases htext
  | tarXz =>
    simp only [listedName?] at h
    split at h
    · exact (Option.some.inj h).symm
    · cases h
  | sevenZip => exact (Option.some.inj h).symm

/-- **Members of different names are handed out** for the names under which they are listed as text
    files. -/
theorem fetch?_of_listedName? {format : Format} {members : List Member}
    (hnames : (members.map Member.name).Nodup) {m : Member} {name : String} (hm : m ∈ members)
    (hname : format.listedName? m = some name) (htext : isTextName name = true) :
    format.fetch? members name = some m := by
  have hown : name = m.name := eq_name_of_listedName? hname htext
  -- No other member is listed under this name.
  have honly : ∀ n ∈ members, decide (format.listedName? n = some name) = decide (n = m) := by
    intro n hn
    rw [decide_eq_decide]
    constructor
    · intro hlisted
      have hsame : n.name = m.name := (eq_name_of_listedName? hlisted htext).symm.trans hown
      exact List.inj_on_of_nodup_map hnames hn hm hsame
    · rintro rfl
      exact hname
  have hnamed : members.filter (fun n => format.listedName? n = some name) = [m] := by
    rw [List.filter_congr honly, List.filter_eq, List.count_eq_one_of_mem hnames.of_map hm]
    rfl
  unfold fetch?
  rw [hnamed]
  cases format <;> rfl

/-- No text file is overlooked, so the first member that is listed as one is the first one, if it is
    a file at all. -/
theorem firstText?_eq {format : Format} {members : List Member}
    (hfirst : ∀ m, members.find? format.listsAsText = some m → m.isFile = true) :
    firstText? members = (members.find? format.listsAsText).bind Member.bytes := by
  unfold firstText?
  induction members with
  | nil => rfl
  | cons m members ih =>
    rw [List.find?_cons] at hfirst ⊢
    rw [List.findSome?_cons]
    cases hlists : format.listsAsText m with
    | true =>
      -- The member is found both ways, since it is a file.
      rw [hlists] at hfirst
      obtain ⟨bytes, hbytes⟩ := Option.isSome_iff_exists.1 (hfirst m rfl)
      rw [if_pos (Bool.and_eq_true_iff.1 hlists).1, hbytes]
      exact hbytes.symm
    | false =>
      rw [hlists] at hfirst
      have hnone : (if isTextName m.name then m.bytes else none) = none := by
        by_cases htext : isTextName m.name = true
        · rw [if_pos htext]
          have hdirectory : m.isFile = false := by
            simp only [listsAsText, htext, Bool.true_and, Bool.or_eq_false_iff] at hlists
            exact hlists.1
          simpa [Member.isFile] using hdirectory
        · exact if_neg htext
      rw [hnone]
      exact ih hfirst

end Format

end Archive

namespace Statements

open Archive

/-! ### What is found -/

/-- The bytes of the first member that is listed as a text file, if it is a file. -/
theorem memberBytes_eq_find? (archive : String) {format : Format} {members : List Member}
    (hnames : (members.map Member.name).Nodup) :
    memberBytes archive format members =
      match members.find? format.listsAsText with
      | none => .error (.noTextFile archive)
      | some m =>
        match m.bytes with
        | some bytes => .ok bytes
        | none => .error (.file .isDirectory) := by
  have hfind : (format.listing members).find? isTextName =
      (members.find? format.listsAsText).bind format.listedName? := by
    rw [Format.listing, List.find?_filterMap]
    simp only [Format.any_listedName?]
  unfold memberBytes
  rw [hfind]
  cases hm : members.find? format.listsAsText with
  | none => rfl
  | some m =>
    have hlisted : (format.listedName? m).any isTextName = true := by
      rw [Format.any_listedName?]
      exact List.find?_some hm
    obtain ⟨name, hname, htext⟩ := (Option.any_eq_true _ _).1 hlisted
    have hfetch := Format.fetch?_of_listedName? hnames (List.mem_of_find?_eq_some hm) hname htext
    rw [Option.bind_some, hname]
    simp only [hfetch]
    cases m with
    | mk name bytes => cases bytes <;> rfl

/-- **The bytes that are found in an archive** of members with different names: those of the first
    text file, unless directories are listed like files and one with such a name comes first. -/
theorem memberBytes_eq (archive : String) {format : Format} {members : List Member}
    (hnames : (members.map Member.name).Nodup) :
    (format = .sevenZip ∧ Obstructed members →
      memberBytes archive format members = .error (.file .isDirectory)) ∧
    (¬ (format = .sevenZip ∧ Obstructed members) →
      memberBytes archive format members =
        match firstText? members with
        | none => .error (.noTextFile archive)
        | some bytes => .ok bytes) := by
  have hseven : Format.listsAsText .sevenZip = fun m => isTextName m.name := by
    funext m
    simp [Format.listsAsText]
  rw [memberBytes_eq_find? archive hnames]
  constructor
  · rintro ⟨rfl, m, hm, hdirectory⟩
    have hbytes : m.bytes = none := by simpa [Member.isFile] using hdirectory
    simp only [hseven, hm, hbytes]
  · intro hnot
    have hfirst : ∀ m, members.find? format.listsAsText = some m → m.isFile = true := by
      intro m hm
      by_cases hformat : format = .sevenZip
      · by_contra hdirectory
        rw [hformat, hseven] at hm
        exact hnot ⟨hformat, m, hm, by simpa using hdirectory⟩
      · -- The other formats list nothing but files as text files.
        have hfound : format.listsAsText m = true := List.find?_some hm
        simp only [Format.listsAsText, hformat, decide_false, Bool.or_false,
          Bool.and_eq_true] at hfound
        exact hfound.2
    rw [Format.firstText?_eq hfirst]
    cases hm : members.find? format.listsAsText with
    | none => rfl
    | some m =>
      obtain ⟨bytes, hbytes⟩ := Option.isSome_iff_exists.1 (hfirst m hm)
      simp only [Option.bind_some, hbytes]

/-! ### What is read -/

/-- What is read from an archive. -/
theorem read_eq_memberBytes {encoding : String} {openFile : PathName → Except Store.Error Content}
    {path : PathName} {format : Format} {members : List Member}
    (hsource : Source.ofPath? path = some (.archive format))
    (hopen : openFile path = .ok (.archive format members)) :
    read encoding openFile path =
      (memberBytes path.name format members).bind
        fun bytes => (decodeNamed encoding bytes).map ofText := by
  have hbytes : fileBytes openFile path = memberBytes path.name format members := by
    unfold fileBytes
    rw [hsource, hopen]
    exact if_pos rfl
  unfold read
  rw [hbytes]
  cases memberBytes path.name format members with
  | error e => rfl
  | ok bytes =>
    simp only [Except.bind]
    cases decodeNamed encoding bytes <;> rfl

/-- **Archives of the same members are read alike,** with one exception.  Whatever the format and
    the encoding, what is read from an archive of members with different names is what is read from
    a text file that holds the bytes of the first text file among them, be it statements or an
    error; and if there is none, just this is said.  But where directories are listed like files and
    one with the name of a text file comes before all text files, nothing is read. -/
theorem read_archive {members : List Member} (hnames : (members.map Member.name).Nodup)
    (encoding : String) {format : Format} {openFile : PathName → Except Store.Error Content}
    {path : PathName} (hsource : Source.ofPath? path = some (.archive format))
    (hopen : openFile path = .ok (.archive format members)) :
    (format = .sevenZip ∧ Obstructed members →
      read encoding openFile path = .error (.file .isDirectory)) ∧
    (¬ (format = .sevenZip ∧ Obstructed members) →
      (firstText? members = none →
        read encoding openFile path = .error (.noTextFile path.name)) ∧
      ∀ bytes, firstText? members = some bytes →
        ∀ (openPlain : PathName → Except Store.Error Content) (plain : PathName),
          plain.suffix = ".txt" → openPlain plain = .ok (.bytes bytes) →
          read encoding openFile path = read encoding openPlain plain) := by
  obtain ⟨hobstructed, hfree⟩ := @memberBytes_eq path.name format members hnames
  rw [read_eq_memberBytes hsource hopen]
  constructor
  · intro h
    rw [hobstructed h]
    rfl
  · intro h
    rw [hfree h]
    constructor
    · intro hnone
      rw [hnone]
      rfl
    · intro bytes hbytes openPlain plain hsuffix hplain
      rw [hbytes, read_plain hsuffix hplain]
      rfl

/-- A directory with the name of a text file before a text file: one format fails at the directory,
    another one reads the file behind it. -/
theorem read_archive_obstructed :
    let members : List Member := [⟨"d.txt", none⟩, ⟨"b.txt", some (Encoding.encodeUtf8 "1+1\n")⟩]
    (members.map Member.name).Nodup ∧ Obstructed members ∧
      read standardEncoding (fun _ => .ok (.archive .sevenZip members)) ⟨"", ["a.7z"]⟩ =
        .error (.file .isDirectory) ∧
      read standardEncoding (fun _ => .ok (.archive .zip members)) ⟨"", ["a.zip"]⟩ =
        .ok ["1+1"] := by
  intro members
  have hnames : (members.map Member.name).Nodup := by decide
  have hobstructed : Obstructed members := ⟨⟨"d.txt", none⟩, by decide, rfl⟩
  have hseven : Source.ofPath? ⟨"", ["a.7z"]⟩ = some (.archive .sevenZip) := by decide +kernel
  have hzip : Source.ofPath? ⟨"", ["a.zip"]⟩ = some (.archive .zip) := by decide +kernel
  have hplain : read standardEncoding
      (fun _ => .ok (.bytes (Encoding.encodeUtf8 "1+1\n"))) ⟨"", ["b.txt"]⟩ = .ok ["1+1"] := by
    decide +kernel
  refine ⟨hnames, hobstructed,
    (read_archive hnames standardEncoding hseven rfl).1 ⟨rfl, hobstructed⟩, ?_⟩
  rw [← hplain]
  exact ((read_archive hnames standardEncoding hzip rfl).2 (by simp)).2 _ (by decide) _ _
    (by decide +kernel) rfl

end Statements

end Reckoner
