import Reckoner.Proofs.Text.Encoding.Utf8

namespace Reckoner.Encoding

/-!
# Encodings there and back

What an encoding writes for a text is read as the same text.  Not every encoding can write every
text, and two of them put a byte-order mark in front.

* `ByteOrder.bytes`, `utf16Bytes`: the bytes of a unit, and those of a character in UTF-16.
* `encode?`: the bytes of a text in an encoding, if there are any.
* `encodeNamed?`: the same for the name of an encoding.
* `utf16Ahead_takes`: the bytes of a character stand for it, whatever follows them.
* `decode_of_encode?`: the bytes of a text stand for it.
-/

/-! ### Writing -/

/-- The two bytes of a unit. -/
def ByteOrder.bytes : ByteOrder → Nat → List UInt8
  | .little, unit => [UInt8.ofNat (unit % 0x100), UInt8.ofNat (unit / 0x100)]
  | .big, unit => [UInt8.ofNat (unit / 0x100), UInt8.ofNat (unit % 0x100)]

/-- The bytes of a character in UTF-16: one unit, or a pair of surrogates. -/
def utf16Bytes (order : ByteOrder) (c : Char) : List UInt8 :=
  if c.toNat < 0x10000 then order.bytes c.toNat
  else order.bytes (0xD800 + (c.toNat - 0x10000) / 0x400) ++
    order.bytes (0xDC00 + (c.toNat - 0x10000) % 0x400)

/-- The bytes of a text whose characters are all below a bound, one byte for each. -/
def encodeBelow? (bound : Nat) (s : String) : Option (List UInt8) :=
  if s.toList.all fun c => c.toNat < bound then
    some (s.toList.flatMap fun c => [UInt8.ofNat c.toNat])
  else none

/-- The bytes of a text, if the encoding has its characters. -/
def encode? : Encoding → String → Option (List UInt8)
  | .ascii, s => encodeBelow? 0x80 s
  | .latin1, s => encodeBelow? 0x100 s
  | .utf8, s => some (encodeUtf8 s)
  | .utf8Marked, s => some (0xEF :: 0xBB :: 0xBF :: encodeUtf8 s)
  | .utf16, s => some (0xFF :: 0xFE :: s.toList.flatMap (utf16Bytes .little))
  | .utf16Little, s => some (s.toList.flatMap (utf16Bytes .little))
  | .utf16Big, s => some (s.toList.flatMap (utf16Bytes .big))

/-- The bytes of a text in a named encoding. -/
def encodeNamed? (name : String) (s : String) : Option (List UInt8) :=
  if name.toList.contains '\x00' then none else (named? name).bind fun e => e.encode? s

/-! ### One character -/

/-- A character below U+0080 is taken from its byte. -/
theorem asciiAhead_takes {c : Char} (h : c.toNat < 0x80) :
    Takes asciiAhead c [UInt8.ofNat c.toNat] := by
  refine ⟨_, [], rfl, fun rest => ?_⟩
  rw [asciiAhead, toNat_byte (by omega), if_pos h, Char.ofNat_toNat]
  rfl

/-- A character below U+0100 is taken from its byte. -/
theorem latin1Ahead_takes {c : Char} (h : c.toNat < 0x100) :
    Takes latin1Ahead c [UInt8.ofNat c.toNat] := by
  refine ⟨_, [], rfl, fun rest => ?_⟩
  rw [latin1Ahead, toNat_byte h, Char.ofNat_toNat]
  rfl

/-- The bytes of a unit make up the unit. -/
theorem ByteOrder.exists_bytes (order : ByteOrder) {unit : Nat} (h : unit < 0x10000) :
    ∃ a b, order.bytes unit = [a, b] ∧ order.unit a b = unit := by
  have hlow : (UInt8.ofNat (unit % 0x100)).toNat = unit % 0x100 := toNat_byte (by omega)
  have hhigh : (UInt8.ofNat (unit / 0x100)).toNat = unit / 0x100 := toNat_byte (by omega)
  cases order with
  | little =>
    refine ⟨_, _, rfl, ?_⟩
    rw [ByteOrder.unit, hlow, hhigh]
    omega
  | big =>
    refine ⟨_, _, rfl, ?_⟩
    rw [ByteOrder.unit, hlow, hhigh]
    omega

/-- **The bytes of a character in UTF-16 stand for it.**  A unit of its own is no surrogate, and
    the two surrogates of a pair carry ten bits each. -/
theorem utf16Ahead_takes (order : ByteOrder) (c : Char) :
    Takes (utf16Ahead order) c (utf16Bytes order c) := by
  have hvalid := toNat_valid c
  unfold utf16Bytes
  by_cases hunit : c.toNat < 0x10000
  · obtain ⟨a, b, hbytes, hab⟩ := order.exists_bytes hunit
    rw [if_pos hunit, hbytes]
    refine ⟨a, [b], rfl, fun rest => ?_⟩
    rw [List.singleton_append]
    unfold utf16Ahead
    simp only [hab]
    rw [if_pos (by omega), Char.ofNat_toNat]
    rfl
  · have hupper : 0xD800 + (c.toNat - 0x10000) / 0x400 < 0xDC00 := by omega
    have hlower : 0xDC00 + (c.toNat - 0x10000) % 0x400 < 0x10000 := by omega
    obtain ⟨a, b, hhigh, hab⟩ := order.exists_bytes (Nat.lt_trans hupper (by omega))
    obtain ⟨a', b', hlow, hab'⟩ := order.exists_bytes hlower
    rw [if_neg hunit, hhigh, hlow]
    refine ⟨a, [b, a', b'], rfl, fun rest => ?_⟩
    have hcode : 0x10000 + (0xD800 + (c.toNat - 0x10000) / 0x400 - 0xD800) * 0x400 +
        (0xDC00 + (c.toNat - 0x10000) % 0x400 - 0xDC00) = c.toNat := by omega
    simp only [List.cons_append, List.nil_append, utf16Ahead, hab, hab']
    rw [if_neg (by omega), if_neg (by omega), if_pos (by omega), hcode, Char.ofNat_toNat]
    rfl

/-! ### Whole texts -/

/-- A text that is written byte by byte is read as the same text. -/
theorem decodeWith_of_encodeBelow? {codec : String} {ahead : UInt8 → List UInt8 → Ahead}
    {bound : Nat} (htakes : ∀ c : Char, c.toNat < bound → Takes ahead c [UInt8.ofNat c.toNat])
    {s : String} {bytes : List UInt8} (h : encodeBelow? bound s = some bytes) :
    decodeWith codec ahead 0 [] bytes = .ok s := by
  unfold encodeBelow? at h
  by_cases hbelow : (s.toList.all fun c => c.toNat < bound) = true
  · rw [if_pos hbelow] at h
    have htaken : ∀ c ∈ s.toList, Takes ahead c [UInt8.ofNat c.toNat] := by
      intro c hc
      exact htakes c (of_decide_eq_true (List.all_eq_true.1 hbelow c hc))
    rw [← Option.some.inj h, decodeWith_flatMap htaken]
    exact congrArg Except.ok String.ofList_toList
  · rw [if_neg hbelow] at h
    cases h

/-- A text in UTF-16 is read as the same text, wherever its bytes start. -/
theorem decodeUtf16_flatMap (order : ByteOrder) (position : Nat) (s : String) :
    decodeUtf16 order position (s.toList.flatMap (utf16Bytes order)) = .ok s := by
  unfold decodeUtf16
  rw [decodeWith_flatMap fun c _ => utf16Ahead_takes order c]
  exact congrArg Except.ok String.ofList_toList

/-- No bytes are no text in whatever encoding. -/
theorem decode_nil (e : Encoding) : e.decode [] = .ok "" := by
  cases e with
  | ascii => rw [decode, decodeWith]; rfl
  | latin1 => rw [decode, decodeWith]; rfl
  | utf8 => exact decode_encodeUtf8 ""
  | utf8Marked => exact decode_encodeUtf8 ""
  | utf16 => exact decodeUtf16_flatMap .little 0 ""
  | utf16Little => exact decodeUtf16_flatMap .little 0 ""
  | utf16Big => exact decodeUtf16_flatMap .big 0 ""

/-- **What an encoding writes for a text is read as the same text.** -/
theorem decode_of_encode? {e : Encoding} {s : String} {bytes : List UInt8}
    (h : e.encode? s = some bytes) : e.decode bytes = .ok s := by
  cases e with
  | ascii => exact decodeWith_of_encodeBelow? (fun c => asciiAhead_takes) h
  | latin1 => exact decodeWith_of_encodeBelow? (fun c => latin1Ahead_takes) h
  | utf8 =>
    rw [← Option.some.inj h]
    exact decode_encodeUtf8 s
  | utf8Marked =>
    rw [← Option.some.inj h]
    exact decode_encodeUtf8 s
  | utf16 =>
    rw [← Option.some.inj h]
    exact decodeUtf16_flatMap .little 2 s
  | utf16Little =>
    rw [← Option.some.inj h]
    exact decodeUtf16_flatMap .little 0 s
  | utf16Big =>
    rw [← Option.some.inj h]
    exact decodeUtf16_flatMap .big 0 s

end Reckoner.Encoding
