import Reckoner.Text.Fields
import Reckoner.Text.Quoted

namespace Reckoner

/-!
# Text encodings

The encodings a statement file may be written in, the names they go by, and what can be wrong
with bytes that should be in one of them.  There are seven of them; any other encoding, known
elsewhere or not, counts as unknown here.

Main definitions:
* `Encoding`: the supported encodings
* `Encoding.named?`: the encoding a name stands for
* `Encoding.Defect`: what is wrong with a stretch of bytes
* `Encoding.DecodeError`: a defect with its place
* `Encoding.DecodeError.message`: its text
-/

/-- An encoding of text by bytes.  `utf16` looks for a byte-order mark and is little-endian without
    one; `utf8Marked` drops a mark at the start. -/
inductive Encoding where
  | ascii
  | latin1
  | utf8
  | utf8Marked
  | utf16
  | utf16Little
  | utf16Big
  deriving DecidableEq, Repr

namespace Encoding

/-! ### Names -/

/-- The names of an encoding in normal form: its proper one, and others it goes by. -/
structure Names where
  encoding : Encoding
  proper : String
  others : List String

/-- The names of the encodings. -/
def names : List Names :=
  [⟨.ascii, "ascii", ["us_ascii", "us", "646", "ansi_x3.4_1968", "ansi_x3_4_1968",
      "ansi_x3.4_1986", "cp367", "csascii", "ibm367", "iso646_us", "iso_646.irv_1991",
      "iso_ir_6"]⟩,
    ⟨.latin1, "latin_1", ["latin1", "latin", "l1", "iso_8859_1", "iso8859_1", "iso8859", "8859",
      "iso_8859_1_1987", "iso_ir_100", "cp819", "ibm819", "csisolatin1"]⟩,
    ⟨.utf8, "utf_8", ["utf8", "u8", "utf", "utf8_ucs2", "utf8_ucs4", "cp65001"]⟩,
    ⟨.utf8Marked, "utf_8_sig", []⟩,
    ⟨.utf16, "utf_16", ["utf16", "u16"]⟩,
    ⟨.utf16Little, "utf_16_le", ["utf_16le", "unicodelittleunmarked"]⟩,
    ⟨.utf16Big, "utf_16_be", ["utf_16be", "unicodebigunmarked"]⟩]

/-- The normal form of a name: its stretches of ASCII letters, digits and points, in lower case
    and joined by underscores. -/
def normalize (name : String) : String :=
  let marked := name.toList.map fun c => if c.isAlphanum || c = '.' then c.toLower else '_'
  let words := (Text.fields '_' marked).filter (· ≠ [])
  "_".intercalate (words.map String.ofList)

/-- The name with underscores for its points. -/
def withoutPoints (name : String) : String := name.map fun c => if c = '.' then '_' else c

/-- Whether an encoding goes by a name in normal form.  A point may stand for an underscore, but
    not in the proper name. -/
def Names.include (n : Names) (name : String) : Bool :=
  name == n.proper || n.others.contains name || n.others.contains (withoutPoints name)

/-- The encoding a name stands for, whatever its case and separators, if it is one of the seven. -/
def named? (name : String) : Option Encoding :=
  (names.find? (·.include (normalize name))).map (·.encoding)

/-! ### Defects -/

/-- What is wrong with a stretch of bytes. -/
inductive Defect where
  | notAscii
  | invalidStart
  | invalidContinuation
  | unexpectedEnd
  | truncated
  | illegalSurrogate
  | illegalEncoding
  deriving DecidableEq, Repr

/-- The words for a defect. -/
def Defect.message : Defect → String
  | .notAscii => "ordinal not in range(128)"
  | .invalidStart => "invalid start byte"
  | .invalidContinuation => "invalid continuation byte"
  | .unexpectedEnd => "unexpected end of data"
  | .truncated => "truncated data"
  | .illegalSurrogate => "illegal UTF-16 surrogate"
  | .illegalEncoding => "illegal encoding"

/-- A defect of some bytes of an input: the codec that found it, the position of the first bad
    byte, its value, and how many bytes are bad. -/
structure DecodeError where
  codec : String
  defect : Defect
  position : Nat
  first : UInt8
  length : Nat
  deriving DecidableEq, Repr

/-- The text of a decoding error.  A single byte is shown, several are located only. -/
def DecodeError.message (e : DecodeError) : String :=
  let place :=
    if e.length = 1 then
      "byte 0x" ++ String.ofList (Text.hexDigits 2 e.first.toNat) ++ " in position " ++
        toString e.position
    else
      "bytes in position " ++ toString e.position ++ "-" ++ toString (e.position + e.length - 1)
  "'" ++ e.codec ++ "' codec can't decode " ++ place ++ ": " ++ e.defect.message

end Encoding

end Reckoner
