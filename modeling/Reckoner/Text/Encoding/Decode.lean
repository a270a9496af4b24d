import Reckoner.Text.Encoding.Basic

namespace Reckoner.Encoding

/-!
# Decoding bytes

A decoder looks at the bytes ahead and either takes a character or names the defect of the bytes
at the front; `decodeWith` repeats it to the end of the input.

Main definitions:
* `Ahead`: what stands at the front of the bytes
* `asciiAhead`, `latin1Ahead`, `utf8Ahead`, `utf16Ahead`: the decoders
* `decodeWith`: a decoder repeated to the end
* `decode`: the text that bytes stand for in an encoding
-/

/-- What stands at the front of the bytes: a character that takes the first byte and `more` others,
    or a defect of the first byte and `more` others. -/
inductive Ahead where
  | character (c : Char) (more : Nat)
  | defect (d : Defect) (more : Nat)

/-- Each byte below 128 is a character. -/
def asciiAhead (b : UInt8) (_ : List UInt8) : Ahead :=
  if b.toNat < 0x80 then .character (Char.ofNat b.toNat) 0 else .defect .notAscii 0

/-- Each byte is the character of its value. -/
def latin1Ahead (b : UInt8) (_ : List UInt8) : Ahead := .character (Char.ofNat b.toNat) 0

/-! ### UTF-8 -/

/-- How many bytes follow a first byte; none for bytes that start nothing. -/
def followers? (lead : Nat) : Option Nat :=
  if lead < 0x80 then some 0
  else if lead < 0xC2 then none
  else if lead < 0xE0 then some 1
  else if lead < 0xF0 then some 2
  else if lead < 0xF5 then some 3
  else none

/-- The least and the greatest second byte after a first one: a narrower range keeps out overlong
    forms, surrogates and code points beyond the last. -/
def secondRange (lead : Nat) : Nat × Nat :=
  if lead = 0xE0 then (0xA0, 0xBF)
  else if lead = 0xED then (0x80, 0x9F)
  else if lead = 0xF0 then (0x90, 0xBF)
  else if lead = 0xF4 then (0x80, 0x8F)
  else (0x80, 0xBF)

/-- The longest start of `bytes` that can continue a sequence; only its first byte has a range of
    its own. -/
def continuation (range : Nat × Nat) : List UInt8 → List Nat
  | [] => []
  | b :: rest =>
    if range.1 ≤ b.toNat ∧ b.toNat ≤ range.2 then
      b.toNat :: continuation (0x80, 0xBF) rest
    else []

/-- The payload bits of a first byte with the given number of followers. -/
def leadBits (lead : Nat) : (followers : Nat) → Nat
  | 0 => lead
  | 1 => lead % 0x20
  | 2 => lead % 0x10
  | _ => lead % 0x08

/-- The code point of a whole sequence. -/
def codePoint (lead : Nat) (continuation : List Nat) : Nat :=
  continuation.foldl (fun n b => n * 0x40 + b % 0x40) (leadBits lead continuation.length)

/-- The sequence at the front.  A broken sequence is bad as far as it could have been good. -/
def utf8Ahead (b : UInt8) (rest : List UInt8) : Ahead :=
  match followers? b.toNat with
  | none => .defect .invalidStart 0
  | some n =>
    let wanted := rest.take n
    let good := continuation (secondRange b.toNat) wanted
    if good.length = n then .character (Char.ofNat (codePoint b.toNat good)) n
    else if good.length = wanted.length then .defect .unexpectedEnd good.length
    else .defect .invalidContinuation good.length

/-! ### UTF-16 -/

/-- The order of the two bytes of a unit. -/
inductive ByteOrder where
  | little
  | big
  deriving DecidableEq, Repr

/-- The unit of two bytes. -/
def ByteOrder.unit : ByteOrder → UInt8 → UInt8 → Nat
  | .little, a, b => a.toNat + 0x100 * b.toNat
  | .big, a, b => 0x100 * a.toNat + b.toNat

/-- The unit or pair of units at the front. -/
def utf16Ahead (order : ByteOrder) (a : UInt8) : List UInt8 → Ahead
  | [] => .defect .truncated 0
  | b :: rest =>
    let high := order.unit a b
    if high < 0xD800 ∨ 0xE000 ≤ high then .character (Char.ofNat high) 1
    else if 0xDC00 ≤ high then .defect .illegalEncoding 1
    else match rest with
      | c :: d :: _ =>
        let low := order.unit c d
        if 0xDC00 ≤ low ∧ low < 0xE000 then
          .character (Char.ofNat (0x10000 + (high - 0xD800) * 0x400 + (low - 0xDC00))) 3
        else .defect .illegalSurrogate 1
      | _ => .defect .unexpectedEnd (1 + rest.length)

/-! ### Whole inputs -/

/-- The text of the bytes from a position on: characters are taken until the bytes end or show a
    defect.  The characters so far are in reverse order. -/
def decodeWith (codec : String) (ahead : UInt8 → List UInt8 → Ahead) (position : Nat)
    (soFar : List Char) : List UInt8 → Except DecodeError String
  | [] => .ok (String.ofList soFar.reverse)
  | b :: rest =>
    match ahead b rest with
    | .character c more =>
      decodeWith codec ahead (position + 1 + more) (c :: soFar) (rest.drop more)
    | .defect d more => .error ⟨codec, d, position, b, 1 + more⟩
  termination_by bytes => bytes.length
  decreasing_by simp only [List.length_drop, List.length_cons]; omega

/-- The bytes in UTF-8. -/
def decodeUtf8 (bytes : List UInt8) : Except DecodeError String :=
  decodeWith "utf-8" utf8Ahead 0 [] bytes

/-- The bytes in UTF-16 from a position on. -/
def decodeUtf16 (order : ByteOrder) (position : Nat) (bytes : List UInt8) :
    Except DecodeError String :=
  let codec := match order with
    | .little => "utf-16-le"
    | .big => "utf-16-be"
  decodeWith codec (utf16Ahead order) position [] bytes

/-- The text that bytes stand for. -/
def decode : Encoding → List UInt8 → Except DecodeError String
  | .ascii, bytes => decodeWith "ascii" asciiAhead 0 [] bytes
  | .latin1, bytes => decodeWith "latin-1" latin1Ahead 0 [] bytes
  | .utf8, bytes => decodeUtf8 bytes
  -- Positions count from behind the mark.
  | .utf8Marked, 0xEF :: 0xBB :: 0xBF :: bytes => decodeUtf8 bytes
  | .utf8Marked, bytes => decodeUtf8 bytes
  | .utf16, 0xFF :: 0xFE :: bytes => decodeUtf16 .little 2 bytes
  | .utf16, 0xFE :: 0xFF :: bytes => decodeUtf16 .big 2 bytes
  | .utf16, bytes => decodeUtf16 .little 0 bytes
  | .utf16Little, bytes => decodeUtf16 .little 0 bytes
  | .utf16Big, bytes => decodeUtf16 .big 0 bytes

/-- The bytes of a text in UTF-8. -/
def encodeUtf8 (s : String) : List UInt8 := s.toList.flatMap String.utf8EncodeChar

end Reckoner.Encoding
