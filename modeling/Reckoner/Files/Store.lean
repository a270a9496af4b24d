import Reckoner.Files.Archive
import Reckoner.Text.PathName

namespace Reckoner

/-!
# The file store

Files and directories by their locations, which are counted from the root, and a working directory
from which relative paths are followed component by component.

Main definitions:
* `Content`: what a file holds
* `Store`: the files and directories by their location
* `Store.within`, `Store.add`: an empty working directory, and files put into it
* `Store.resolve`: the location that a path leads to
* `Store.read`, `Store.write`: the content at a path
* `Store.changes`: the files in which two stores differ
-/

/-- What a file holds: bytes, or an archive, of which only the members are known. -/
inductive Content where
  | bytes (b : List UInt8)
  | archive (format : Archive.Format) (members : List Archive.Member)
  deriving DecidableEq, Repr

/-- What stands at a location. -/
inductive Node where
  | directory
  | file (content : Content)
  deriving DecidableEq, Repr

/-- A location: the names on the way from the root. -/
abbrev Location := List String

/-- The files and directories with the working directory.  The root is always there. -/
structure Store where
  working : Location
  nodes : List (Location × Node)
  deriving DecidableEq, Repr

namespace Store

/-- Why a file cannot be opened. -/
inductive Error where
  | notFound
  | isDirectory
  | notDirectory
  | nameTooLong
  | nullInPath
  deriving DecidableEq, Repr

/-- The text of an error. -/
def Error.message : Error → String
  | .notFound => "No such file or directory"
  | .isDirectory => "Is a directory"
  | .notDirectory => "Not a directory"
  | .nameTooLong => "File name too long"
  | .nullInPath => "embedded null byte"

/-- What stands at a location. -/
def node? (store : Store) (location : Location) : Option Node :=
  if location = [] then some .directory else store.nodes.lookup location

/-- The store with a node at a location, in place of what was there. -/
def set (store : Store) (location : Location) (node : Node) : Store :=
  if store.nodes.any (·.1 = location) then
    { store with nodes := store.nodes.map fun entry =>
        if entry.1 = location then (location, node) else entry }
  else { store with nodes := store.nodes ++ [(location, node)] }

/-- The store with all directories on the way to a location. -/
def withParents (store : Store) (location : Location) : Store :=
  ((List.range location.length).map fun n => location.take n).foldl
    (fun store parent =>
      if (store.node? parent).isSome then store else store.set parent .directory) store

/-- The store that holds nothing but a working directory. -/
def within (working : Location) : Store :=
  (withParents ⟨working, []⟩ working).set working .directory

/-- The store with a node below the working directory and with all directories on the way to it. -/
def add (store : Store) (names : List String) (node : Node) : Store :=
  let location := store.working ++ names
  (store.withParents location).set location node

/-! ### Following paths -/

/-- The longest name of a file or directory, in bytes. -/
def longestName : Nat := 255

/-- The longest path, in bytes. -/
def longestPath : Nat := 4095

/-- The location that components lead to from a directory.  Every component but the last has to name
    a directory; two dots lead back, and stay at the root. -/
def follow (store : Store) (location : Location) : List String → Except Error Location
  | [] => .ok location
  | part :: rest =>
    match store.node? location with
    | none => .error .notFound
    | some (.file _) => .error .notDirectory
    | some .directory =>
      if longestName < part.utf8ByteSize then .error .nameTooLong
      else follow store (if part = ".." then location.dropLast else location ++ [part]) rest

/-- The location that a path leads to. -/
def resolve (store : Store) (path : PathName) : Except Error Location :=
  if path.text.toList.contains '\x00' then .error .nullInPath
  else if longestPath < path.text.utf8ByteSize then .error .nameTooLong
  else store.follow (if path.root = "" then store.working else []) path.parts

/-- The content of the file at a path. -/
def read (store : Store) (path : PathName) : Except Error Content :=
  match store.resolve path with
  | .error e => .error e
  | .ok location =>
    match store.node? location with
    | none => .error .notFound
    | some .directory => .error .isDirectory
    | some (.file content) => .ok content

/-- The store with bytes written to the file at a path, which need not be there before. -/
def write (store : Store) (path : PathName) (bytes : List UInt8) : Except Error Store :=
  match store.resolve path with
  | .error e => .error e
  | .ok location =>
    match store.node? location with
    | some .directory => .error .isDirectory
    | _ => .ok (store.set location (.file (.bytes bytes)))

/-! ### Comparing stores -/

/-- A location as it is seen from a directory, if it is below it. -/
def below? (directory location : Location) : Option Location :=
  if directory.isPrefixOf location then some (location.drop directory.length) else none

/-- The files below the working directory that are new or have other content than in an earlier
    store. -/
def changes (before after : Store) : List (String × Content) :=
  after.nodes.filterMap fun (location, node) =>
    match node, below? after.working location with
    | .file content, some names =>
      if before.node? location = some node then none else some ("/".intercalate names, content)
    | _, _ => none

end Store

end Reckoner
