namespace Reckoner

/-!
# Archives

An archive is the ordered list of its members.  How the members are packed is no concern here, but
the formats differ in what they list and in what they hand out for a name.

Main definitions:
* `Archive.Format`: the archive formats
* `Archive.Member`: a file or directory in an archive
* `Archive.Format.listing`: the names that a format lists
* `Archive.Format.fetch?`: the member that a format hands out for a listed name
-/

namespace Archive

/-- The format of an archive. -/
inductive Format where
  | zip
  | tarXz
  | sevenZip
  deriving DecidableEq, Repr

/-- A member of an archive: its name, and its bytes unless it is a directory. -/
structure Member where
  name : String
  bytes : Option (List UInt8)
  deriving DecidableEq, Repr

/-- A regular file, not a directory. -/
def Member.isFile (m : Member) : Bool := m.bytes.isSome

namespace Format

/-- The name under which a format lists a member: a zip archive marks directories by a slash, a
    compressed tape lists regular files only, and the third format makes no difference. -/
def listedName? (format : Format) (m : Member) : Option String :=
  match format with
  | .zip => some (if m.isFile then m.name else m.name ++ "/")
  | .tarXz => if m.isFile then some m.name else none
  | .sevenZip => some m.name

/-- The names that a format lists, in order. -/
def listing (format : Format) (members : List Member) : List String :=
  members.filterMap format.listedName?

/-- The member that is handed out for a listed name.  Of several members of one name the last
    counts, in the third format the first. -/
def fetch? (format : Format) (members : List Member) (name : String) : Option Member :=
  let named := members.filter fun m => format.listedName? m = some name
  match format with
  | .zip | .tarXz => named.getLast?
  | .sevenZip => named.head?

end Format

end Archive

end Reckoner
