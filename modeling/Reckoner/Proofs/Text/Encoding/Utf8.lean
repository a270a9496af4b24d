import Reckoner.Text.Encoding.Decode

namespace Reckoner.Encoding

/-!
# UTF-8 there and back

What is written in UTF-8 is read as the same text, whatever characters it holds.

* `Takes ahead c bytes`: a decoder takes a character from bytes.
* `utf8Ahead_of_bytes`: when the bytes at the front stand for a character.
* `utf8Ahead_utf8EncodeChar`: the bytes of a character stand for it, whatever follows them.
* `decodeWith_flatMap`: characters are taken one by one to the end.
* `decode_encodeUtf8`: the bytes of a text stand for it.
-/

/-- A decoder takes a character from bytes, whatever follows them. -/
def Takes (ahead : UInt8 → List UInt8 → Ahead) (c : Char) (bytes : List UInt8) : Prop :=
  ∃ lead bs, bytes = lead :: bs ∧ ∀ rest, ahead lead (bs ++ rest) = .character c bs.length

/-! ### The bytes of one character -/

/-- Bytes of which the first one is in its range and the others in theirs are all good. -/
theorem continuation_eq_map {range : Nat × Nat} {b : UInt8} {bs : List UInt8}
    (hb : range.1 ≤ b.toNat ∧ b.toNat ≤ range.2)
    (hbs : ∀ x ∈ bs, 0x80 ≤ x.toNat ∧ x.toNat ≤ 0xBF) :
    continuation range (b :: bs) = (b :: bs).map UInt8.toNat := by
  induction bs generalizing range b with
  | nil => simp [continuation, hb]
  | cons x bs ih =>
    rw [continuation, if_pos hb, List.map_cons]
    rw [ih (hbs x List.mem_cons_self) fun y hy => hbs y (List.mem_cons_of_mem x hy)]

/-- **A whole sequence is one character.**  The first byte says how many follow, they are all good,
    and the bits of all make up the code point. -/
theorem utf8Ahead_of_bytes {c : Char} {lead : UInt8} {bs : List UInt8}
    (hfollowers : followers? lead.toNat = some bs.length)
    (hgood : continuation (secondRange lead.toNat) bs = bs.map UInt8.toNat)
    (hcode : codePoint lead.toNat (bs.map UInt8.toNat) = c.toNat) (rest : List UInt8) :
    utf8Ahead lead (bs ++ rest) = .character c bs.length := by
  unfold utf8Ahead
  rw [hfollowers]
  show (if (continuation _ ((bs ++ rest).take bs.length)).length = bs.length then _ else _) = _
  rw [List.take_left, hgood, if_pos (List.length_map _), hcode, Char.ofNat_toNat]

/-- The code points of characters leave out the surrogates and end somewhere. -/
theorem toNat_valid (c : Char) :
    c.toNat < 0xD800 ∨ 0xDFFF < c.toNat ∧ c.toNat < 0x110000 := c.valid

/-- The number of a byte that is small enough for one. -/
theorem toNat_byte {n : Nat} (h : n < 0x100) : (UInt8.ofNat n).toNat = n :=
  UInt8.toNat_ofNat_of_lt' h

/-- Six bits behind the mark of a following byte. -/
theorem follower_range (n : Nat) :
    0x80 ≤ (UInt8.ofNat (n % 0x40 + 0x80)).toNat ∧
      (UInt8.ofNat (n % 0x40 + 0x80)).toNat ≤ 0xBF := by
  rw [toNat_byte (by omega)]
  omega

/-- A character below U+0080 is its own byte. -/
theorem utf8Ahead_one {c : Char} (h : c.toNat ≤ 0x7F) (rest : List UInt8) :
    utf8Ahead (UInt8.ofNat c.toNat) rest = .character c 0 := by
  have hlead : (UInt8.ofNat c.toNat).toNat = c.toNat := toNat_byte (by omega)
  refine @utf8Ahead_of_bytes c _ [] ?_ rfl ?_ rest
  · rw [hlead, followers?, if_pos (by omega)]
    rfl
  · rw [hlead]
    rfl

/-- A character from U+0080 to U+07FF, in two bytes. -/
theorem utf8Ahead_two {c : Char} (hlow : ¬ c.toNat ≤ 0x7F) (hhigh : c.toNat ≤ 0x7FF)
    (rest : List UInt8) :
    utf8Ahead (UInt8.ofNat (c.toNat / 64 % 0x20 + 0xC0))
      ([UInt8.ofNat (c.toNat % 0x40 + 0x80)] ++ rest) = .character c 1 := by
  generalize hv : c.toNat = v at hlow hhigh ⊢
  have hlead : (UInt8.ofNat (v / 64 % 0x20 + 0xC0)).toNat = v / 64 % 0x20 + 0xC0 :=
    toNat_byte (by omega)
  refine utf8Ahead_of_bytes ?_ (continuation_eq_map ?_ (by simp)) ?_ rest
  · rw [hlead, followers?, if_neg (by omega), if_neg (by omega), if_pos (by omega)]
    rfl
  · rw [hlead, secondRange, if_neg (by omega), if_neg (by omega), if_neg (by omega),
      if_neg (by omega)]
    exact follower_range v
  · rw [hlead, hv]
    show ((v / 64 % 0x20 + 0xC0) % 0x20) * 0x40 + (UInt8.ofNat (v % 0x40 + 0x80)).toNat % 0x40 = v
    rw [toNat_byte (by omega)]
    omega

/-- A character from U+0800 to U+FFFF, in three bytes.  Overlong forms and surrogates are what the
    narrower ranges of the second byte keep out. -/
theorem utf8Ahead_three {c : Char} (hlow : ¬ c.toNat ≤ 0x7FF) (hhigh : c.toNat ≤ 0xFFFF)
    (rest : List UInt8) :
    utf8Ahead (UInt8.ofNat (c.toNat / 4096 % 0x10 + 0xE0))
      ([UInt8.ofNat (c.toNat / 64 % 0x40 + 0x80), UInt8.ofNat (c.toNat % 0x40 + 0x80)] ++ rest) =
      .character c 2 := by
  have hvalid := toNat_valid c
  generalize hv : c.toNat = v at hlow hhigh hvalid ⊢
  have hlead : (UInt8.ofNat (v / 4096 % 0x10 + 0xE0)).toNat = v / 4096 % 0x10 + 0xE0 :=
    toNat_byte (by omega)
  have hsecond : (UInt8.ofNat (v / 64 % 0x40 + 0x80)).toNat = v / 64 % 0x40 + 0x80 :=
    toNat_byte (by omega)
  refine utf8Ahead_of_bytes ?_ (continuation_eq_map ?_ ?_) ?_ rest
  · rw [hlead, followers?, if_neg (by omega), if_neg (by omega), if_neg (by omega),
      if_pos (by omega)]
    rfl
  · rw [hlead, hsecond, secondRange]
    by_cases hoverlong : v / 4096 % 0x10 + 0xE0 = 0xE0
    · rw [if_pos hoverlong]
      show 0xA0 ≤ _ ∧ _ ≤ 0xBF
      omega
    rw [if_neg hoverlong]
    by_cases hsurrogate : v / 4096 % 0x10 + 0xE0 = 0xED
    · rw [if_pos hsurrogate]
      show 0x80 ≤ _ ∧ _ ≤ 0x9F
      omega
    · rw [if_neg hsurrogate, if_neg (by omega), if_neg (by omega)]
      show 0x80 ≤ _ ∧ _ ≤ 0xBF
      omega
  · intro x hx
    obtain rfl := List.mem_singleton.1 hx
    exact follower_range v
  · rw [hlead, hv]
    show (((v / 4096 % 0x10 + 0xE0) % 0x10) * 0x40 +
      (UInt8.ofNat (v / 64 % 0x40 + 0x80)).toNat % 0x40) * 0x40 +
      (UInt8.ofNat (v % 0x40 + 0x80)).toNat % 0x40 = v
    rw [hsecond, toNat_byte (by omega)]
    omega

/-- A character from U+10000 on, in four bytes.  Overlong forms and numbers beyond the last
    character are what the narrower ranges of the second byte keep out. -/
theorem utf8Ahead_four {c : Char} (hlow : ¬ c.toNat ≤ 0xFFFF) (rest : List UInt8) :
    utf8Ahead (UInt8.ofNat (c.toNat / 262144 % 0x08 + 0xF0))
      ([UInt8.ofNat (c.toNat / 4096 % 0x40 + 0x80), UInt8.ofNat (c.toNat / 64 % 0x40 + 0x80),
        UInt8.ofNat (c.toNat % 0x40 + 0x80)] ++ rest) = .character c 3 := by
  have hvalid := toNat_valid c
  generalize hv : c.toNat = v at hlow hvalid ⊢
  have hlead : (UInt8.ofNat (v / 262144 % 0x08 + 0xF0)).toNat = v / 262144 % 0x08 + 0xF0 :=
    toNat_byte (by omega)
  have hsecond : (UInt8.ofNat (v / 4096 % 0x40 + 0x80)).toNat = v / 4096 % 0x40 + 0x80 :=
    toNat_byte (by omega)
  refine utf8Ahead_of_bytes ?_ (continuation_eq_map ?_ ?_) ?_ rest
  · rw [hlead, followers?, if_neg (by omega), if_neg (by omega), if_neg (by omega),
      if_neg (by omega), if_pos (by omega)]
    rfl
  · rw [hlead, hsecond, secondRange, if_neg (by omega), if_neg (by omega)]
    by_cases hoverlong : v / 262144 % 0x08 + 0xF0 = 0xF0
    · rw [if_pos hoverlong]
      show 0x90 ≤ _ ∧ _ ≤ 0xBF
      omega
    rw [if_neg hoverlong]
    by_cases hlast : v / 262144 % 0x08 + 0xF0 = 0xF4
    · rw [if_pos hlast]
      show 0x80 ≤ _ ∧ _ ≤ 0x8F
      omega
    · rw [if_neg hlast]
      show 0x80 ≤ _ ∧ _ ≤ 0xBF
      omega
  · intro x hx
    rcases List.mem_cons.1 hx with rfl | hx
    · exact follower_range (v / 64)
    · obtain rfl := List.mem_singleton.1 hx
      exact follower_range v
  · rw [hlead, hv]
    show ((((v / 262144 % 0x08 + 0xF0) % 0x08) * 0x40 +
      (UInt8.ofNat (v / 4096 % 0x40 + 0x80)).toNat % 0x40) * 0x40 +
      (UInt8.ofNat (v / 64 % 0x40 + 0x80)).toNat % 0x40) * 0x40 +
      (UInt8.ofNat (v % 0x40 + 0x80)).toNat % 0x40 = v
    rw [hsecond, toNat_byte (by omega), toNat_byte (by omega)]
    omega

/-- **The bytes of a character stand for it,** whatever follows them. -/
theorem utf8Ahead_utf8EncodeChar (c : Char) : Takes utf8Ahead c (String.utf8EncodeChar c) := by
  unfold String.utf8EncodeChar
  show ∃ lead bs, (if c.toNat ≤ 0x7F then _ else if c.toNat ≤ 0x7FF then _ else
    if c.toNat ≤ 0xFFFF then _ else _) = lead :: bs ∧ _
  by_cases hone : c.toNat ≤ 0x7F
  · rw [if_pos hone]
    exact ⟨_, _, rfl, utf8Ahead_one hone⟩
  rw [if_neg hone]
  by_cases htwo : c.toNat ≤ 0x7FF
  · rw [if_pos htwo]
    exact ⟨_, _, rfl, utf8Ahead_two hone htwo⟩
  rw [if_neg htwo]
  by_cases hthree : c.toNat ≤ 0xFFFF
  · rw [if_pos hthree]
    exact ⟨_, _, rfl, utf8Ahead_three htwo hthree⟩
  · rw [if_neg hthree]
    exact ⟨_, _, rfl, utf8Ahead_four hthree⟩

/-! ### Whole texts -/

/-- Characters that a decoder takes are taken one by one.  By induction on the characters, whatever
    has been taken before. -/
theorem decodeWith_flatMap {codec : String} {ahead : UInt8 → List UInt8 → Ahead}
    {write : Char → List UInt8} {cs : List Char} (h : ∀ c ∈ cs, Takes ahead c (write c))
    (position : Nat) (soFar : List Char) :
    decodeWith codec ahead position soFar (cs.flatMap write) =
      .ok (String.ofList (soFar.reverse ++ cs)) := by
  induction cs generalizing position soFar with
  | nil => rw [List.flatMap_nil, decodeWith, List.append_nil]
  | cons c cs ih =>
    obtain ⟨lead, bs, hbytes, hahead⟩ := h c List.mem_cons_self
    have hrest : ∀ d ∈ cs, Takes ahead d (write d) := fun d hd => h d (List.mem_cons_of_mem c hd)
    rw [List.flatMap_cons, hbytes, List.cons_append, decodeWith, hahead]
    show decodeWith codec ahead (position + 1 + bs.length) (c :: soFar)
      ((bs ++ cs.flatMap write).drop bs.length) = _
    rw [List.drop_left, ih hrest, List.reverse_cons, List.append_assoc, List.singleton_append]

/-- **What is written in UTF-8 is read as the same text.** -/
theorem decode_encodeUtf8 (s : String) : decode .utf8 (encodeUtf8 s) = .ok s := by
  show decodeWith "utf-8" utf8Ahead 0 [] (s.toList.flatMap String.utf8EncodeChar) = .ok s
  rw [decodeWith_flatMap fun c _ => utf8Ahead_utf8EncodeChar c, List.reverse_nil, List.nil_append,
    String.ofList_toList]

end Reckoner.Encoding
