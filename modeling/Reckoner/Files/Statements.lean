import Reckoner.Files.Store
import Reckoner.Text.Encoding.Decode
import Reckoner.Text.Lines

namespace Reckoner.Statements

/-!
# Statement files

Statements are read from a text file, one on a line, or from the first text file in an archive.
The suffix of the name says which of the two it is.

Main definitions:
* `Source`: how a file is to be read
* `Source.ofPath?`: the kind of file that a name announces
* `memberBytes`: the bytes of the first text file in an archive
* `fileBytes`: the bytes that a path provides
* `ofText`: the statements in a text
* `read`: the statements that a path provides
-/

/-- How a file is to be read. -/
inductive Source where
  | plain
  | archive (format : Archive.Format)
  deriving DecidableEq, Repr

/-- The kind of file that a name announces. -/
def Source.ofPath? (path : PathName) : Option Source :=
  if path.suffix = ".txt" then some .plain
  else if path.suffix = ".zip" then some (.archive .zip)
  else if path.suffixes.drop (path.suffixes.length - 2) = [".tar", ".xz"] then
    some (.archive .tarXz)
  else if path.suffix = ".7z" then some (.archive .sevenZip)
  else none

/-- Why no statements can be read. -/
inductive Error where
  | unsupported (suffixes : String)
  | file (e : Store.Error)
  | notArchive (format : Archive.Format)
  | noTextFile (archive : String)
  | unknownEncoding (name : String)
  | nullInEncoding
  | undecodable (e : Encoding.DecodeError)
  deriving DecidableEq, Repr

/-- The text of an error. -/
def Error.message : Error → String
  | .unsupported suffixes => "📄❌ Unsupported archive format: " ++ suffixes
  | .file e => e.message
  | .notArchive .zip => "File is not a zip file"
  | .notArchive .tarXz => "not an lzma file"
  | .notArchive .sevenZip => "not a 7z file"
  | .noTextFile archive => "📄❌ No statement file (.txt) in " ++ archive
  | .unknownEncoding name => "unknown encoding: " ++ name
  | .nullInEncoding => "embedded null character"
  | .undecodable e => e.message

/-! ### Bytes -/

/-- The name of a text file. -/
def isTextName (name : String) : Bool := ".txt".toList.isSuffixOf name.toList

/-- The bytes of the first member that is listed as a text file. -/
def memberBytes (archive : String) (format : Archive.Format) (members : List Archive.Member) :
    Except Error (List UInt8) :=
  match (format.listing members).find? isTextName with
  | none => .error (.noTextFile archive)
  | some name =>
    match format.fetch? members name with
    | some ⟨_, some bytes⟩ => .ok bytes
    | _ => .error (.file .isDirectory)

/-- The bytes of the statement file that a path provides, when files are opened by the given
    function.  A name that announces no statement file is refused before anything is opened. -/
def fileBytes (openFile : PathName → Except Store.Error Content) (path : PathName) :
    Except Error (List UInt8) :=
  match Source.ofPath? path with
  | none => .error (.unsupported (String.join path.suffixes))
  | some source =>
    match openFile path, source with
    | .error e, _ => .error (.file e)
    | .ok (.bytes bytes), .plain => .ok bytes
    | .ok (.archive _ _), .plain => .ok []
    | .ok (.bytes _), .archive format => .error (.notArchive format)
    | .ok (.archive actual members), .archive format =>
      if actual = format then memberBytes path.name format members
      else .error (.notArchive format)

/-! ### Text -/

/-- The text of bytes in a named encoding.  No bytes are no text in whatever encoding. -/
def decodeNamed (encoding : String) (bytes : List UInt8) : Except Error String :=
  if encoding.toList.contains '\x00' then .error .nullInEncoding
  else if bytes = [] then .ok ""
  else match Encoding.named? encoding with
    | none => .error (.unknownEncoding encoding)
    | some encoding =>
      match encoding.decode bytes with
      | .ok text => .ok text
      | .error e => .error (.undecodable e)

/-- The statements in a text: its lines without the blanks around them, except for blank lines. -/
def ofText (text : String) : List String :=
  (((Text.splitLines text.toList).map Text.trim).filter (· ≠ [])).map String.ofList

/-- The encoding of statement files if nothing else is asked for. -/
def standardEncoding : String := "utf-8"

/-- The statements that a path provides. -/
def read (encoding : String) (openFile : PathName → Except Store.Error Content)
    (path : PathName) : Except Error (List String) :=
  match fileBytes openFile path with
  | .error e => .error e
  | .ok bytes =>
    match decodeNamed encoding bytes with
    | .error e => .error e
    | .ok text => .ok (ofText text)

end Reckoner.Statements
