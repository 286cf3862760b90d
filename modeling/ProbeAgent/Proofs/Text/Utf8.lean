import ProbeAgent.Text.Utf8

/-!
# Reading what was written in UTF-8

The form of a character in UTF-8 is read back as that character, whatever follows it.  So no text is
changed by being written and read, and no replacement character comes in.
-/

namespace ProbeAgent.Text

theorem toNat_ofNat {n : Nat} (h : n < 256) : (UInt8.ofNat n).toNat = n := by
  rw [UInt8.toNat_ofNat']
  exact Nat.mod_eq_of_lt h

/-! ## Bytes after the first one -/

theorem isTail_ofNat {n : Nat} (h : n < 64) : isTail (.ofNat (n + 128)) = true := by
  unfold isTail
  rw [toNat_ofNat (by omega), Bool.and_eq_true, decide_eq_true_eq, decide_eq_true_eq]
  omega

theorem tailBits_ofNat {n : Nat} (h : n < 64) : tailBits (.ofNat (n + 128)) = n := by
  unfold tailBits
  rw [toNat_ofNat (by omega)]
  omega

-- The numbers up to 0x7ff have shorter forms, and those from 0xd800 to 0xdfff are no characters.
theorem isSecondOfThree_ofNat {v : Nat} (hlow : 0x800 ≤ v) (hvalid : v.isValidChar)
    (hhigh : v < 0x10000) :
    isSecondOfThree (.ofNat (v / 4096 % 16 + 224)) (.ofNat (v / 64 % 64 + 128)) = true := by
  have hfirst := toNat_ofNat (show v / 4096 % 16 + 224 < 256 by omega)
  unfold Nat.isValidChar at hvalid
  unfold isSecondOfThree
  rw [toNat_ofNat (show v / 64 % 64 + 128 < 256 by omega)]
  split
  · rename_i heq
    have hlead : v / 4096 % 16 + 224 = 0xe0 := hfirst.symm.trans (congrArg UInt8.toNat heq)
    rw [Bool.and_eq_true, decide_eq_true_eq, decide_eq_true_eq]
    omega
  · split
    · rename_i heq
      have hlead : v / 4096 % 16 + 224 = 0xed := hfirst.symm.trans (congrArg UInt8.toNat heq)
      rw [Bool.and_eq_true, decide_eq_true_eq, decide_eq_true_eq]
      omega
    · exact isTail_ofNat (by omega)

-- The numbers up to 0xffff have shorter forms, and those from 0x110000 on are no characters.
theorem isSecondOfFour_ofNat {v : Nat} (hlow : 0x10000 ≤ v) (hvalid : v.isValidChar) :
    isSecondOfFour (.ofNat (v / 262144 % 8 + 240)) (.ofNat (v / 4096 % 64 + 128)) = true := by
  have hfirst := toNat_ofNat (show v / 262144 % 8 + 240 < 256 by omega)
  unfold Nat.isValidChar at hvalid
  unfold isSecondOfFour
  rw [toNat_ofNat (show v / 4096 % 64 + 128 < 256 by omega)]
  split
  · rename_i heq
    have hlead : v / 262144 % 8 + 240 = 0xf0 := hfirst.symm.trans (congrArg UInt8.toNat heq)
    rw [Bool.and_eq_true, decide_eq_true_eq, decide_eq_true_eq]
    omega
  · split
    · rename_i heq
      have hlead : v / 262144 % 8 + 240 = 0xf4 := hfirst.symm.trans (congrArg UInt8.toNat heq)
      rw [Bool.and_eq_true, decide_eq_true_eq, decide_eq_true_eq]
      omega
    · exact isTail_ofNat (by omega)

/-! ## Characters -/

theorem readChar_one {n : Nat} (h : n < 0x80) (rest : Bytes) :
    readChar (.ofNat n) rest = (Char.ofNat n, rest) := by
  unfold readChar
  simp only [toNat_ofNat (show n < 256 by omega)]
  rw [if_pos h]

theorem readChar_two {n b : Nat} (hn : n < 32) (hlow : 2 ≤ n) (hb : b < 64) (rest : Bytes) :
    readChar (.ofNat (n + 192)) (.ofNat (b + 128) :: rest) = (Char.ofNat (n * 64 + b), rest) := by
  unfold readChar
  simp only [toNat_ofNat (show n + 192 < 256 by omega), isTail_ofNat hb, tailBits_ofNat hb]
  rw [if_neg (by omega), if_pos (by omega), if_pos trivial, show (n + 192) % 32 = n by omega]

theorem readChar_three {n b c : Nat} (hn : n < 16) (hb : b < 64) (hc : c < 64)
    (hsecond : isSecondOfThree (.ofNat (n + 224)) (.ofNat (b + 128)) = true) (rest : Bytes) :
    readChar (.ofNat (n + 224)) (.ofNat (b + 128) :: .ofNat (c + 128) :: rest) =
      (Char.ofNat ((n * 64 + b) * 64 + c), rest) := by
  unfold readChar
  simp only [toNat_ofNat (show n + 224 < 256 by omega), hsecond, isTail_ofNat hc, tailBits_ofNat hb,
    tailBits_ofNat hc]
  rw [if_neg (by omega), if_neg (by omega), if_pos (by omega), if_pos trivial, if_pos trivial,
    show (n + 224) % 16 = n by omega]

theorem readChar_four {n b c d : Nat} (hn : n < 5) (hb : b < 64) (hc : c < 64) (hd : d < 64)
    (hsecond : isSecondOfFour (.ofNat (n + 240)) (.ofNat (b + 128)) = true) (rest : Bytes) :
    readChar (.ofNat (n + 240)) (.ofNat (b + 128) :: .ofNat (c + 128) :: .ofNat (d + 128) :: rest) =
      (Char.ofNat (((n * 64 + b) * 64 + c) * 64 + d), rest) := by
  unfold readChar
  simp only [toNat_ofNat (show n + 240 < 256 by omega), hsecond, isTail_ofNat hc, isTail_ofNat hd,
    tailBits_ofNat hb, tailBits_ofNat hc, tailBits_ofNat hd]
  rw [if_neg (by omega), if_neg (by omega), if_neg (by omega), if_pos (by omega), if_pos trivial,
    if_pos trivial, if_pos trivial, show (n + 240) % 8 = n by omega]

theorem utf8EncodeChar_eq (c : Char) :
    String.utf8EncodeChar c =
      if c.toNat ≤ 0x7f then [.ofNat c.toNat]
      else if c.toNat ≤ 0x7ff then
        [.ofNat (c.toNat / 64 % 32 + 192), .ofNat (c.toNat % 64 + 128)]
      else if c.toNat ≤ 0xffff then
        [.ofNat (c.toNat / 4096 % 16 + 224), .ofNat (c.toNat / 64 % 64 + 128),
          .ofNat (c.toNat % 64 + 128)]
      else
        [.ofNat (c.toNat / 262144 % 8 + 240), .ofNat (c.toNat / 4096 % 64 + 128),
          .ofNat (c.toNat / 64 % 64 + 128), .ofNat (c.toNat % 64 + 128)] :=
  rfl

theorem readChar_utf8EncodeChar (c : Char) (rest : Bytes) :
    ∃ first tail, String.utf8EncodeChar c = first :: tail ∧
      readChar first (tail ++ rest) = (c, rest) := by
  have hvalid : c.toNat.isValidChar := c.valid
  have hrange := hvalid
  unfold Nat.isValidChar at hrange
  have hchar {n : Nat} (h : n = c.toNat) : (Char.ofNat n, rest) = (c, rest) := by
    rw [h, Char.ofNat_toNat]
  rw [utf8EncodeChar_eq]
  split
  · exact ⟨_, _, rfl, (readChar_one (by omega) rest).trans (hchar rfl)⟩
  split
  · refine ⟨_, _, rfl, (readChar_two ?_ ?_ ?_ rest).trans (hchar ?_)⟩ <;> omega
  split
  · have hsecond := isSecondOfThree_ofNat (by omega) hvalid (by omega)
    refine ⟨_, _, rfl, (readChar_three ?_ ?_ ?_ hsecond rest).trans (hchar ?_)⟩ <;> omega
  · have hsecond := isSecondOfFour_ofNat (by omega) hvalid
    refine ⟨_, _, rfl, (readChar_four ?_ ?_ ?_ ?_ hsecond rest).trans (hchar ?_)⟩ <;> omega

/-! ## Texts -/

theorem decodeChars_utf8EncodeChar (c : Char) (rest : Bytes) :
    decodeChars (String.utf8EncodeChar c ++ rest) = c :: decodeChars rest := by
  obtain ⟨first, tail, hencode, hread⟩ := readChar_utf8EncodeChar c rest
  rw [hencode, List.cons_append, decodeChars, hread]

theorem decodeChars_flatMap (cs : List Char) :
    decodeChars (cs.flatMap String.utf8EncodeChar) = cs := by
  induction cs with
  | nil => rw [List.flatMap_nil, decodeChars]
  | cons c cs ih => rw [List.flatMap_cons, decodeChars_utf8EncodeChar, ih]

theorem decodeLossy_encode (text : String) : decodeLossy (encode text) = text := by
  rw [decodeLossy, encode, decodeChars_flatMap, String.ofList_toList]

/-! ## How long a text is that was read -/

theorem readChar_of_lt {a : UInt8} (h : a.toNat < 0x80) (rest : Bytes) :
    readChar a rest = (Char.ofNat a.toNat, rest) := by
  unfold readChar
  exact if_pos h

/-- A character of more than one byte that is no replacement takes bytes from the rest. -/
theorem readChar_eq_replacement_or_lt {a : UInt8} (h : ¬a.toNat < 0x80) (rest : Bytes) :
    (readChar a rest).1 = replacement ∨ (readChar a rest).2.length < rest.length := by
  unfold readChar
  simp only [if_neg h]
  repeat' split
  all_goals first | exact .inl rfl | exact .inr (by simp only [List.length_cons]; omega)

theorem length_utf8EncodeChar_ofNat :
    ∀ n < 0x80, (String.utf8EncodeChar (Char.ofNat n)).length = 1 := by
  decide

-- A replacement takes three bytes, and may stand for a single one.
theorem length_utf8EncodeChar_readChar_le (a : UInt8) (rest : Bytes) :
    (String.utf8EncodeChar (readChar a rest).1).length + 3 * (readChar a rest).2.length ≤
      3 * (rest.length + 1) := by
  by_cases hone : a.toNat < 0x80
  · have hread := readChar_of_lt hone rest
    have hsize := length_utf8EncodeChar_ofNat _ hone
    rw [hread]
    show (String.utf8EncodeChar (Char.ofNat a.toNat)).length + 3 * rest.length ≤ _
    omega
  · have hrest := readChar_length_le a rest
    rcases readChar_eq_replacement_or_lt hone rest with hchar | hshorter
    · have hsize : (String.utf8EncodeChar replacement).length = 3 := by decide
      rw [hchar, hsize]
      omega
    · have hsize := (readChar a rest).1.utf8Size_le_four
      rw [← String.length_utf8EncodeChar] at hsize
      omega

/-- Reading bytes that are not UTF-8 makes them at most three times as long. -/
theorem length_encode_decodeLossy_le (bytes : Bytes) :
    (encode (decodeLossy bytes)).length ≤ 3 * bytes.length := by
  rw [encode, decodeLossy, String.toList_ofList]
  induction bytes using decodeChars.induct with
  | case1 =>
    rw [decodeChars]
    exact Nat.le_refl 0
  | case2 a rest ih =>
    have hchar := length_utf8EncodeChar_readChar_le a rest
    rw [decodeChars, List.flatMap_cons, List.length_append, List.length_cons]
    omega

end ProbeAgent.Text
