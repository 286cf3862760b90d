import ProbeAgent.Ber.Element
import ProbeAgent.Proofs.Text.Utf8

/-!
# Reading elements

An element whose content is not too long for its length is read back from the front of any bytes.
More bytes after it do not change what is read, so no part of an element short of its end is read as
an element.
-/

namespace ProbeAgent.Ber.Element

open ProbeAgent.Text (Bytes toNat_ofNat)

/-- The longest content whose length can be written. -/
def maxLength : Nat := 0xffff

/-! ## Lengths -/

theorem readLength?_encodeLength {n : Nat} (h : n ≤ maxLength) (rest : Bytes) :
    readLength? (encodeLength n ++ rest) = some (n, rest) := by
  unfold maxLength at h
  unfold encodeLength
  split
  · rename_i hshort
    have hbyte := toNat_ofNat (show n < 256 by omega)
    simp only [List.cons_append, List.nil_append, readLength?]
    rw [hbyte, if_pos hshort]
  split
  · have hbyte := toNat_ofNat (show n < 256 by omega)
    simp only [List.cons_append, List.nil_append, readLength?]
    rw [if_neg (by decide), if_pos trivial, hbyte]
  · have hhigh := toNat_ofNat (show n / 256 < 256 by omega)
    have hlow : (UInt8.ofNat n).toNat = n % 256 := UInt8.toNat_ofNat'
    simp only [List.cons_append, List.nil_append, readLength?]
    rw [if_neg (by decide), if_neg (by decide), if_pos trivial, hhigh, hlow,
      show n / 256 * 256 + n % 256 = n by omega]

theorem readLength?_append {bytes rest : Bytes} {n : Nat} (h : readLength? bytes = some (n, rest))
    (more : Bytes) : readLength? (bytes ++ more) = some (n, rest ++ more) := by
  cases bytes with
  | nil => contradiction
  | cons first tail =>
    simp only [List.cons_append, readLength?] at h ⊢
    -- Each form of the length has its bytes in front of what is appended.
    by_cases hshort : first.toNat < 0x80
    · rw [if_pos hshort] at h ⊢
      cases h
      rfl
    by_cases htwo : first = 0x81
    · rw [if_neg hshort, if_pos htwo] at h ⊢
      cases tail with
      | nil => contradiction
      | cons a tail =>
        cases h
        rfl
    by_cases hthree : first = 0x82
    · rw [if_neg hshort, if_neg htwo, if_pos hthree] at h ⊢
      cases tail with
      | nil => contradiction
      | cons a tail =>
        cases tail with
        | nil => contradiction
        | cons b tail =>
          cases h
          rfl
    · rw [if_neg hshort, if_neg htwo, if_neg hthree] at h
      contradiction

/-! ## Elements -/

theorem encode_eq (tag : UInt8) (content : Bytes) :
    encode tag content = tag :: (encodeLength content.length ++ content) :=
  rfl

theorem read?_cons (tag : UInt8) (bytes : Bytes) :
    read? (tag :: bytes) =
      (readLength? bytes).bind fun (length, rest) =>
        if rest.length < length then none
        else some ((tag, rest.take length), rest.drop length) :=
  rfl

theorem read?_encode {content : Bytes} (h : content.length ≤ maxLength) (tag : UInt8)
    (rest : Bytes) : read? (encode tag content ++ rest) = some ((tag, content), rest) := by
  rw [encode_eq, List.cons_append, List.append_assoc, read?_cons, readLength?_encodeLength h, Option.bind_some]
  show (if (content ++ rest).length < content.length then none else _) = _
  rw [if_neg (by rw [List.length_append]; omega), List.take_left, List.drop_left]

theorem read?_encode_self {content : Bytes} (h : content.length ≤ maxLength) (tag : UInt8) :
    read? (encode tag content) = some ((tag, content), []) := by
  have hread := read?_encode h tag []
  rw [List.append_nil] at hread
  exact hread

theorem read?_append {bytes rest : Bytes} {element : UInt8 × Bytes}
    (h : read? bytes = some (element, rest)) (more : Bytes) :
    read? (bytes ++ more) = some (element, rest ++ more) := by
  cases bytes with
  | nil => contradiction
  | cons tag tail =>
    rw [read?_cons, Option.bind_eq_some_iff] at h
    obtain ⟨⟨length, body⟩, hlength, hbody⟩ := h
    rw [List.cons_append, read?_cons, readLength?_append hlength, Option.bind_some]
    simp only at hbody ⊢
    split at hbody
    · contradiction
    · rename_i hlong
      cases hbody
      rw [if_neg (by rw [List.length_append]; omega), List.take_append_of_le_length (by omega),
        List.drop_append_of_le_length (by omega)]

/-- What is cut off from an element is missing from what is read. -/
theorem read?_eq_none_of_prefix {content part : Bytes} (h : content.length ≤ maxLength)
    {tag : UInt8} (hpart : part <+: encode tag content) (hne : part ≠ encode tag content) :
    read? part = none := by
  obtain ⟨more, hmore⟩ := hpart
  cases hread : read? part with
  | none => rfl
  | some result =>
    obtain ⟨element, rest⟩ := result
    have hwhole := read?_encode_self h tag
    rw [← hmore, read?_append hread more] at hwhole
    -- Nothing is left after the whole element, so nothing has been cut off.
    have hleft : rest ++ more = [] := congrArg Prod.snd (Option.some.inj hwhole)
    have hnone : more = [] := (List.append_eq_nil_iff.1 hleft).2
    rw [hnone, List.append_nil] at hmore
    exact absurd hmore hne

-- A content that holds an element bounds the content of that element.
theorem length_le_of_infix {tag : UInt8} {content whole : Bytes} (hwhole : whole.length ≤ maxLength)
    (hpart : encode tag content <:+: whole) : content.length ≤ maxLength := by
  have hle := hpart.length_le
  rw [encode_eq, List.length_cons, List.length_append] at hle
  omega

theorem readTagged?_eq_some_iff {tag : Tag} {bytes content rest : Bytes} :
    readTagged? tag bytes = some (content, rest) ↔
      read? bytes = some ((tag.byte, content), rest) := by
  unfold readTagged?
  rw [Option.bind_eq_bind, Option.bind_eq_some_iff]
  constructor
  · rintro ⟨⟨⟨found, content'⟩, rest'⟩, hread, htag⟩
    simp only at htag
    split at htag
    · rename_i heq
      cases htag
      rw [hread, heq]
    · contradiction
  · intro hread
    exact ⟨_, hread, if_pos rfl⟩

theorem readTagged?_encode {content : Bytes} (h : content.length ≤ maxLength) (tag : Tag)
    (rest : Bytes) : readTagged? tag (encode tag.byte content ++ rest) = some (content, rest) :=
  readTagged?_eq_some_iff.2 (read?_encode h tag.byte rest)

theorem readTagged?_encode_self {content : Bytes} (h : content.length ≤ maxLength) (tag : Tag) :
    readTagged? tag (encode tag.byte content) = some (content, []) :=
  readTagged?_eq_some_iff.2 (read?_encode_self h tag.byte)

/-! ## How long an element is that was read -/

theorem length_of_readLength? {bytes rest : Bytes} {n : Nat} (h : readLength? bytes = some (n, rest)) :
    rest.length + 1 ≤ bytes.length := by
  cases bytes with
  | nil => contradiction
  | cons first tail =>
    -- The second and the third byte, where the form of the length has them.
    rcases tail with _ | ⟨a, _ | ⟨b, tail⟩⟩
    all_goals
      unfold readLength? at h
      simp only at h
      repeat' split at h
      all_goals cases h
      all_goals simp only [List.length_cons, List.length_nil]; omega

/-- The tag and the length take two bytes at least. -/
theorem length_of_read? {bytes content rest : Bytes} {tag : UInt8}
    (h : read? bytes = some ((tag, content), rest)) :
    2 + content.length + rest.length ≤ bytes.length := by
  cases bytes with
  | nil => contradiction
  | cons found tail =>
    rw [read?_cons, Option.bind_eq_some_iff] at h
    obtain ⟨⟨length, body⟩, hlength, hbody⟩ := h
    have hle := length_of_readLength? hlength
    simp only at hbody
    split at hbody
    · contradiction
    · cases hbody
      rw [List.length_take, List.length_drop, List.length_cons]
      omega

theorem length_encode_le (tag : UInt8) (content : Bytes) :
    (encode tag content).length ≤ 4 + content.length := by
  have hlength : (encodeLength content.length).length ≤ 3 := by
    unfold encodeLength
    repeat' split
    all_goals simp only [List.length_cons, List.length_nil]; omega
  rw [encode_eq, List.length_cons, List.length_append]
  omega

/-- The bytes that an element takes may grow threefold if its content does. -/
theorem length_encode_add_le {bytes content rest next : Bytes} {tag : UInt8}
    (h : read? bytes = some ((tag, content), rest)) (hnext : next.length ≤ 3 * content.length)
    (nextTag : UInt8) :
    (encode nextTag next).length + 3 * rest.length ≤ 3 * bytes.length := by
  have hread := length_of_read? h
  have hwritten := length_encode_le nextTag next
  omega

end ProbeAgent.Ber.Element
