import ProbeAgent.Ber.ObjectId
import ProbeAgent.Proofs.Text.Utf8

/-!
# Reading object identifiers

The content that is written for an identifier is read back as the identifier, if its first byte has
room for the first two arcs (`FitsFirstByte`).  All further arcs fit.
-/

namespace ProbeAgent.Ber.ObjectId

open ProbeAgent.Text (Bytes toNat_ofNat)

/-! ## Arcs -/

-- The top bit says that the arc goes on, so it is not read as a part of the digit.
theorem decodeArcs?_leading {arc digit : Nat} (harc : arc * 128 < UInt32.size) (hdigit : digit < 128)
    (rest : Bytes) :
    decodeArcs? arc (.ofNat (digit + 128) :: rest) = decodeArcs? (arc * 128 + digit) rest := by
  have hbyte := toNat_ofNat (show digit + 128 < 256 by omega)
  rw [decodeArcs?, if_neg (Nat.not_le.2 harc)]
  simp only [hbyte]
  rw [if_neg (by omega), show (digit + 128) % 128 = digit by omega]

theorem decodeArcs?_last {arc digit : Nat} (harc : arc * 128 < UInt32.size) (hdigit : digit < 128)
    (rest : Bytes) :
    decodeArcs? arc (.ofNat digit :: rest) =
      (.ofNat (arc * 128 + digit) :: ·) <$> decodeArcs? 0 rest := by
  have hbyte := toNat_ofNat (show digit < 256 by omega)
  rw [decodeArcs?, if_neg (Nat.not_le.2 harc)]
  simp only [hbyte]
  rw [if_pos hdigit, Nat.mod_eq_of_lt hdigit]

theorem decodeArcs?_leadingDigits {n : Nat} (h : n < UInt32.size) (rest : Bytes) :
    decodeArcs? 0 (leadingDigits n ++ rest) = decodeArcs? n rest := by
  -- The last digit comes after those of the quotient, so the rest varies.
  induction n using leadingDigits.induct generalizing rest with
  | case1 => rw [leadingDigits, if_pos rfl, List.nil_append]
  | case2 n hn ih =>
    have hquotient : n / 128 * 128 < UInt32.size := by omega
    rw [leadingDigits, if_neg hn, List.append_assoc, ih (by omega), List.singleton_append,
      decodeArcs?_leading hquotient (by omega), show n / 128 * 128 + n % 128 = n by omega]

theorem decodeArcs?_encodeArc (arc : UInt32) (rest : Bytes) :
    decodeArcs? 0 (encodeArc arc ++ rest) = (arc :: ·) <$> decodeArcs? 0 rest := by
  have hlt : arc.toNat < UInt32.size := arc.toNat_lt_size
  unfold encodeArc
  rw [List.append_assoc, decodeArcs?_leadingDigits (by omega), List.singleton_append,
    decodeArcs?_last (by omega) (by omega),
    show arc.toNat / 128 * 128 + arc.toNat % 128 = arc.toNat by omega, UInt32.ofNat_toNat]

theorem decodeArcs?_flatMap (arcs : List UInt32) :
    decodeArcs? 0 (arcs.flatMap encodeArc) = some arcs := by
  induction arcs with
  | nil => rfl
  | cons arc arcs ih =>
    rw [List.flatMap_cons, decodeArcs?_encodeArc, ih]
    rfl

/-! ## Identifiers -/

/-- The first byte of the content holds the first two arcs, and tells them apart. -/
structure FitsFirstByte (first second : UInt32) : Prop where
  second_lt : second < 40
  le_byte : 40 * first.toNat + second.toNat ≤ 0xff

theorem decode?_encode {first second : UInt32} (h : FitsFirstByte first second) (arcs : List UInt32) :
    decode? (encode (first :: second :: arcs)) = some (first :: second :: arcs) := by
  have hsecond : second.toNat < 40 := h.second_lt
  have hle := h.le_byte
  have hbyte := toNat_ofNat (show first.toNat * 40 + second.toNat < 256 by omega)
  have hfirst : (first.toNat * 40 + second.toNat) / 40 = first.toNat := by omega
  have hrest : (first.toNat * 40 + second.toNat) % 40 = second.toNat := by omega
  rw [encode, decode?, hbyte, decodeArcs?_flatMap, hfirst, hrest, UInt32.ofNat_toNat,
    UInt32.ofNat_toNat]
  rfl

/-! ## Contents that were read -/

theorem length_leadingDigits_le {digit : Nat} (h : digit < 128) (n : Nat) :
    (leadingDigits (n * 128 + digit)).length ≤ (leadingDigits n).length + 1 := by
  by_cases hzero : n * 128 + digit = 0
  · rw [hzero, leadingDigits, if_pos rfl]
    exact Nat.zero_le _
  · rw [leadingDigits, if_neg hzero, show (n * 128 + digit) / 128 = n by omega, List.length_append]
    exact Nat.le_refl _

-- Leading digits of 0 and those after the last complete arc are not written again.
theorem length_flatMap_encodeArc_le {arc : Nat} {bytes : Bytes} {arcs : List UInt32}
    (h : decodeArcs? arc bytes = some arcs) :
    (arcs.flatMap encodeArc).length ≤ (leadingDigits arc).length + bytes.length := by
  induction bytes generalizing arc arcs with
  | nil =>
    cases h
    exact Nat.zero_le _
  | cons b rest ih =>
    rw [decodeArcs?] at h
    split at h
    · contradiction
    rename_i hfits
    have harc : arc * 128 < 2 ^ 32 := Nat.not_le.1 hfits
    have hdigit : b.toNat % 128 < 128 := by omega
    simp only at h
    rw [List.length_cons]
    split at h
    · obtain ⟨more, hmore, rfl⟩ := Option.map_eq_some_iff.1 h
      have hrest := ih hmore
      have hnone : (leadingDigits 0).length = 0 := by
        rw [leadingDigits, if_pos rfl]
        rfl
      have hlast : (UInt32.ofNat (arc * 128 + b.toNat % 128)).toNat = arc * 128 + b.toNat % 128 :=
        UInt32.toNat_ofNat_of_lt' (show _ < 2 ^ 32 by omega)
      rw [List.flatMap_cons, List.length_append, encodeArc, hlast,
        show (arc * 128 + b.toNat % 128) / 128 = arc by omega, List.length_append,
        List.length_singleton]
      omega
    · have hrest := ih h
      have hstep := length_leadingDigits_le hdigit arc
      omega

theorem toNat_ofNat_of_le_byte {b : UInt8} {n : Nat} (h : n ≤ b.toNat) :
    (UInt32.ofNat n).toNat = n :=
  UInt32.toNat_ofNat_of_lt' (Nat.lt_of_le_of_lt h (Nat.lt_trans b.toNat_lt (by decide)))

/-- An identifier that was read has two arcs that fit the first byte, and is written in no more bytes
than it was read from. -/
theorem exists_of_decode? {content : Bytes} {objectId : List UInt32}
    (h : decode? content = some objectId) :
    ∃ first second arcs, objectId = first :: second :: arcs ∧ FitsFirstByte first second ∧
      (encode objectId).length ≤ content.length := by
  cases content with
  | nil => contradiction
  | cons b rest =>
    obtain ⟨arcs, harcs, rfl⟩ := Option.map_eq_some_iff.1 h
    have hlength := length_flatMap_encodeArc_le harcs
    have hbyte : b.toNat < 256 := b.toNat_lt
    have hfirst := toNat_ofNat_of_le_byte (Nat.div_le_self b.toNat 40)
    have hsecond := toNat_ofNat_of_le_byte (Nat.mod_le b.toNat 40)
    rw [leadingDigits, if_pos rfl, List.length_nil, Nat.zero_add] at hlength
    refine ⟨_, _, arcs, rfl, ⟨?_, ?_⟩, ?_⟩
    · show (UInt32.ofNat (b.toNat % 40)).toNat < 40
      omega
    · omega
    · show (_ :: arcs.flatMap encodeArc).length ≤ _
      rw [List.length_cons, List.length_cons]
      omega

end ProbeAgent.Ber.ObjectId
