import Mathlib.Data.List.DropRight
import ProbeAgent.Proofs.Ber.ObjectId

/-!
# Identifiers that are cut off

An arc may be padded with digits 0 in front.  Where none is, no byte of a content gets lost when it is
read, unless its last arc is cut off: the digits of that arc are read, must not add up to more than
32 bits, and are then dropped instead of refused (`decode?_keeps_bytes`).
-/

namespace ProbeAgent.Ber.ObjectId

open ProbeAgent.Text (Bytes toNat_ofNat)

/-- None of the arcs in these bytes starts with the byte of a digit 0 that is not the last one;
`atStart` says whether the first byte starts an arc. -/
def UnpaddedFrom : (atStart : Bool) → Bytes → Prop
  | _, [] => True
  | atStart, b :: rest => (atStart = true → b ≠ 0x80) ∧ UnpaddedFrom (b.toNat < 128) rest

instance decidableUnpaddedFrom : (atStart : Bool) → (bytes : Bytes) →
    Decidable (UnpaddedFrom atStart bytes)
  | _, [] => inferInstanceAs (Decidable True)
  | _, b :: rest =>
    have := decidableUnpaddedFrom (b.toNat < 128) rest
    inferInstanceAs (Decidable (_ ∧ _))

/-- A content without padding.  Its first byte is no part of an arc of its own. -/
def Unpadded (content : Bytes) : Prop := UnpaddedFrom true content.tail

instance (content : Bytes) : Decidable (Unpadded content) :=
  inferInstanceAs (Decidable (UnpaddedFrom _ _))

/-- The digits after the last complete arc. -/
def cutOff (content : Bytes) : Bytes := content.tail.rtakeWhile (128 ≤ ·.toNat)

/-! ## Digits -/

theorem leadingDigits_zero : leadingDigits 0 = [] := by
  rw [leadingDigits, if_pos rfl]

theorem leadingDigits_push {arc digit : Nat} (hdigit : digit < 128) (hne : arc * 128 + digit ≠ 0) :
    leadingDigits (arc * 128 + digit) = leadingDigits arc ++ [.ofNat (digit + 128)] := by
  rw [leadingDigits, if_neg hne, show (arc * 128 + digit) / 128 = arc by omega,
    show (arc * 128 + digit) % 128 = digit by omega]

theorem le_toNat_of_mem_leadingDigits {n : Nat} {b : UInt8} (h : b ∈ leadingDigits n) :
    128 ≤ b.toNat := by
  induction n using leadingDigits.induct with
  | case1 =>
    rw [leadingDigits_zero] at h
    contradiction
  | case2 n hn ih =>
    rw [leadingDigits, if_neg hn, List.mem_append, List.mem_singleton] at h
    rcases h with hquotient | rfl
    · exact ih hquotient
    · rw [toNat_ofNat (by omega)]
      omega

-- Arcs are complete, so the digits behind them are all those behind the last complete arc.
theorem rtakeWhile_arcs_append (arcs : List UInt32) (n : Nat) :
    (arcs.flatMap encodeArc ++ leadingDigits n).rtakeWhile (128 ≤ ·.toNat) = leadingDigits n := by
  have hdigits : ∀ b ∈ (leadingDigits n).reverse, decide (128 ≤ b.toNat) = true := fun b hb =>
    decide_eq_true (le_toNat_of_mem_leadingDigits (List.mem_reverse.1 hb))
  have hcomplete : (arcs.flatMap encodeArc).rtakeWhile (128 ≤ ·.toNat) = [] := by
    rcases List.eq_nil_or_concat arcs with rfl | ⟨arcs, arc, rfl⟩
    · rfl
    · have hlast := toNat_ofNat (show arc.toNat % 128 < 256 by omega)
      rw [List.concat_eq_append, List.flatMap_append, List.flatMap_singleton, encodeArc,
        ← List.append_assoc, List.rtakeWhile_concat_neg]
      rw [hlast, decide_eq_true_eq]
      omega
  rw [List.rtakeWhile] at hcomplete ⊢
  rw [List.reverse_append, List.takeWhile_append_of_pos hdigits, List.reverse_append, hcomplete,
    List.reverse_reverse, List.nil_append]

/-! ## Arcs -/

/-- Bytes without padding are those of the arcs that are read from them, and the digits that are left
over.  `arc` is what the digits before them add up to. -/
theorem exists_of_decodeArcs? {atStart : Bool} {arc : Nat} {bytes : Bytes} {arcs : List UInt32}
    (harc : arc < UInt32.size) (hstart : atStart = true ↔ arc = 0)
    (hunpadded : UnpaddedFrom atStart bytes) (h : decodeArcs? arc bytes = some arcs) :
    ∃ n, n < UInt32.size ∧ leadingDigits arc ++ bytes = arcs.flatMap encodeArc ++ leadingDigits n := by
  induction bytes generalizing atStart arc arcs with
  | nil =>
    cases h
    exact ⟨arc, harc, List.append_nil _⟩
  | cons b rest ih =>
    obtain ⟨hdigit, hrest⟩ := hunpadded
    rw [decodeArcs?] at h
    split at h
    · contradiction
    rename_i hfits
    have hshift : arc * 128 < UInt32.size := Nat.not_le.1 hfits
    have hnext : arc * 128 + b.toNat % 128 < UInt32.size := by
      simp only [UInt32.size] at hshift ⊢
      omega
    simp only at h
    split at h
    · rename_i hlast
      obtain ⟨more, hmore, rfl⟩ := Option.map_eq_some_iff.1 h
      obtain ⟨n, hn, heq⟩ := ih (by decide) (by simpa using hlast) hrest hmore
      rw [leadingDigits_zero, List.nil_append] at heq
      have harcs : encodeArc (.ofNat (arc * 128 + b.toNat % 128)) = leadingDigits arc ++ [b] := by
        rw [encodeArc, UInt32.toNat_ofNat_of_lt' hnext,
          show (arc * 128 + b.toNat % 128) / 128 = arc by omega,
          show (arc * 128 + b.toNat % 128) % 128 = b.toNat by omega, UInt8.ofNat_toNat]
      refine ⟨n, hn, ?_⟩
      rw [List.flatMap_cons, harcs, heq]
      simp only [List.append_assoc, List.cons_append, List.nil_append]
    · rename_i hleading
      -- The first digit of an arc is not 0, so the arc has started.
      have hne : arc * 128 + b.toNat % 128 ≠ 0 := by
        intro hzero
        have hbyte : b ≠ 0x80 := hdigit (hstart.2 (by omega))
        have hlt := b.toNat_lt
        exact hbyte (UInt8.toNat_inj.1 (show b.toNat = 128 by omega))
      have hb : UInt8.ofNat (b.toNat % 128 + 128) = b := by
        have hlt := b.toNat_lt
        rw [show b.toNat % 128 + 128 = b.toNat by omega, UInt8.ofNat_toNat]
      have hgoesOn : decide (b.toNat < 128) = true ↔ arc * 128 + b.toNat % 128 = 0 := by
        rw [decide_eq_true_eq]
        exact iff_of_false hleading hne
      obtain ⟨n, hn, heq⟩ := ih hnext hgoesOn hrest h
      rw [leadingDigits_push (by omega) hne, hb, List.append_assoc, List.singleton_append] at heq
      exact ⟨n, hn, heq⟩

/-- Digits that add up to more than 32 bits are refused. -/
theorem decodeArcs?_leadingDigits_eq_none {n : Nat} (h : UInt32.size ≤ n) (rest : Bytes) :
    decodeArcs? 0 (leadingDigits n ++ rest) = none := by
  induction n using leadingDigits.induct generalizing rest with
  | case1 => contradiction
  | case2 n hn ih =>
    rw [leadingDigits, if_neg hn, List.append_assoc]
    by_cases hquotient : UInt32.size ≤ n / 128
    · exact ih hquotient _
    · have hshift : UInt32.size ≤ n / 128 * 128 := by
        simp only [UInt32.size] at h ⊢
        omega
      rw [decodeArcs?_leadingDigits (Nat.not_le.1 hquotient), List.singleton_append, decodeArcs?,
        if_pos hshift]

theorem decodeArcs?_arcs_append (arcs : List UInt32) (n : Nat) :
    decodeArcs? 0 (arcs.flatMap encodeArc ++ leadingDigits n) =
      if n < UInt32.size then some arcs else none := by
  induction arcs with
  | nil =>
    rw [List.flatMap_nil, List.nil_append, ← List.append_nil (leadingDigits n)]
    split
    · rename_i hn
      rw [decodeArcs?_leadingDigits hn]
      rfl
    · rename_i hn
      rw [decodeArcs?_leadingDigits_eq_none (Nat.not_lt.1 hn)]
  | cons arc arcs ih =>
    rw [List.flatMap_cons, List.append_assoc, decodeArcs?_encodeArc, ih]
    split <;> rfl

/-! ## Identifiers -/

variable {content : Bytes} {objectId : List UInt32}

theorem encode_append_cutOff (hunpadded : Unpadded content) (h : decode? content = some objectId) :
    encode objectId ++ cutOff content = content := by
  cases content with
  | nil => contradiction
  | cons b rest =>
    obtain ⟨arcs, harcs, rfl⟩ := Option.map_eq_some_iff.1 h
    obtain ⟨n, -, heq⟩ := exists_of_decodeArcs? (by decide) (by decide) hunpadded harcs
    have hrest : rest = arcs.flatMap encodeArc ++ leadingDigits n := by
      rwa [leadingDigits_zero, List.nil_append] at heq
    show .ofNat ((UInt32.ofNat (b.toNat / 40)).toNat * 40 + (UInt32.ofNat (b.toNat % 40)).toNat) ::
      (arcs.flatMap encodeArc ++ rest.rtakeWhile (128 ≤ ·.toNat)) = b :: rest
    rw [toNat_ofNat_of_le_byte (Nat.div_le_self _ _), toNat_ofNat_of_le_byte (Nat.mod_le _ _),
      show b.toNat / 40 * 40 + b.toNat % 40 = b.toNat by omega, UInt8.ofNat_toNat, hrest,
      rtakeWhile_arcs_append]

/-- An identifier that was read is read again from what is written for it and a further arc that is
cut off, unless the digits of that arc add up to too much. -/
theorem decode?_encode_leadingDigits (h : decode? content = some objectId) (n : Nat) :
    decode? (encode objectId ++ leadingDigits n) =
      if n < UInt32.size then some objectId else none := by
  obtain ⟨first, second, arcs, rfl, hfits, -⟩ := exists_of_decode? h
  have hsecond : second.toNat < 40 := hfits.second_lt
  have hle := hfits.le_byte
  have hbyte := toNat_ofNat (show first.toNat * 40 + second.toNat < 256 by omega)
  rw [encode, List.cons_append, decode?, hbyte, decodeArcs?_arcs_append,
    show (first.toNat * 40 + second.toNat) / 40 = first.toNat by omega,
    show (first.toNat * 40 + second.toNat) % 40 = second.toNat by omega, UInt32.ofNat_toNat,
    UInt32.ofNat_toNat]
  split <;> rfl

/-- A content without padding that is read as an identifier has the bytes that are written for it, and
behind them those of an arc that is cut off.  It has no other bytes iff nothing is cut off, and no
other content without padding with the same bytes cut off is read as that identifier.  Digits of an
arc that is cut off are dropped iff they do not add up to more than 32 bits. -/
theorem decode?_keeps_bytes (hunpadded : Unpadded content) (h : decode? content = some objectId) :
    encode objectId ++ cutOff content = content ∧
      (encode objectId = content ↔ cutOff content = []) ∧
      (∀ other, Unpadded other → decode? other = some objectId →
        (other = content ↔ cutOff other = cutOff content)) ∧
      ∀ n, decode? (encode objectId ++ leadingDigits n) = some objectId ↔ n < UInt32.size := by
  have hcontent := encode_append_cutOff hunpadded h
  refine ⟨hcontent, ?_, fun other hother hread => ?_, fun n => ?_⟩
  · constructor
    · intro heq
      rw [heq] at hcontent
      exact List.append_right_eq_self.1 hcontent
    · intro hnone
      rw [hnone, List.append_nil] at hcontent
      exact hcontent
  · constructor
    · rintro rfl
      rfl
    · intro hsame
      rw [← encode_append_cutOff hother hread, hsame, hcontent]
  · rw [decode?_encode_leadingDigits h]
    split
    · exact iff_of_true rfl ‹_›
    · exact iff_of_false nofun ‹_›

/-- Nothing is cut off from the content of an identifier with an arc of several digits. -/
theorem longArc_keeps_bytes :
    Unpadded [0x2b, 6, 1, 4, 1, 0x82, 0x37] ∧
      decode? [0x2b, 6, 1, 4, 1, 0x82, 0x37] = some [1, 3, 6, 1, 4, 1, 311] ∧
      encode [1, 3, 6, 1, 4, 1, 311] = [0x2b, 6, 1, 4, 1, 0x82, 0x37] := by
  have hunpadded : Unpadded [0x2b, 6, 1, 4, 1, 0x82, 0x37] := by decide
  have hread : decode? [0x2b, 6, 1, 4, 1, 0x82, 0x37] = some [1, 3, 6, 1, 4, 1, 311] := by decide
  exact ⟨hunpadded, hread, (decode?_keeps_bytes hunpadded hread).2.1.2 (by decide)⟩

/-- The only arc after the first two is cut off: the content is read all the same, as the identifier
of a content without that arc, and is not written again. -/
theorem cutOff_not_refused :
    Unpadded [0x2b, 0x86] ∧ decode? [0x2b, 0x86] = some [1, 3] ∧ encode [1, 3] ≠ [0x2b, 0x86] ∧
      Unpadded [0x2b] ∧ decode? [0x2b] = some [1, 3] := by
  decide

end ProbeAgent.Ber.ObjectId
