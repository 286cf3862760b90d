import ProbeAgent.Proofs.Ber.Integer

/-!
# The shortest content of an integer

What is written for a number is any content that is read as the number, without the bytes in front
that only repeat its sign (`encode_value`).  So it is the shortest of these contents, and no other is
as short.
-/

namespace ProbeAgent.Ber.Integer

open ProbeAgent.Text (Bytes)

/-! ## Bytes that repeat the sign -/

/-- All bits of the first byte are as the sign of the next one. -/
def RepeatsSign (first next : UInt8) : Prop :=
  first = 0x00 ∧ next.toNat < 0x80 ∨ first = 0xff ∧ 0x80 ≤ next.toNat

instance (first next : UInt8) : Decidable (RepeatsSign first next) :=
  inferInstanceAs (Decidable (_ ∨ _))

/-- The content without the bytes in front that only repeat the sign; the last byte stays. -/
def dropSign : Bytes → Bytes
  | first :: next :: rest =>
    if RepeatsSign first next then dropSign (next :: rest) else first :: next :: rest
  | content => content

theorem dropSign_suffix (content : Bytes) : dropSign content <:+ content := by
  induction content using dropSign.induct with
  | case1 first next rest hrepeats ih =>
    rw [dropSign, if_pos hrepeats]
    exact ih.trans (List.suffix_cons first _)
  | case2 first next rest hkeep =>
    exact ⟨[], by rw [List.nil_append, dropSign, if_neg hkeep]⟩
  | case3 content hshort =>
    exact ⟨[], by rw [List.nil_append, dropSign.eq_2 content hshort]⟩

theorem length_dropSign_lt {content : Bytes} (h : content ≠ dropSign content) :
    (dropSign content).length < content.length := by
  have hsuffix := dropSign_suffix content
  refine Nat.lt_of_le_of_ne hsuffix.length_le fun heq => h ?_
  exact (hsuffix.eq_of_length heq).symm

/-! ## What is written for a value -/

theorem byteOf_push (n : Int) (b : UInt8) : byteOf (push n b) = b := by
  have hbyte : b.toNat < 256 := b.toNat_lt
  unfold byteOf push
  rw [show ((n * 256 + b.toNat) % 256).toNat = b.toNat by omega, UInt8.ofNat_toNat]

theorem encode_push {n : Int} {b : UInt8} (h : ¬(-128 ≤ push n b ∧ push n b < 128)) :
    encode (push n b) = encode n ++ [b] := by
  have hbyte : b.toNat < 256 := b.toNat_lt
  have hquotient : push n b / 256 = n := by
    unfold push
    omega
  rw [encode_of_long h, hquotient, byteOf_push]

-- More bytes only move a number that needs two bytes further away from zero.
theorem encode_foldl_push {n : Int} (h : ¬(-128 ≤ n ∧ n < 128)) (rest : Bytes) :
    encode (rest.foldl push n) = encode n ++ rest := by
  induction rest generalizing n with
  | nil => rw [List.foldl_nil, List.append_nil]
  | cons b rest ih =>
    have hnext : ¬(-128 ≤ push n b ∧ push n b < 128) := by
      have hbyte : b.toNat < 256 := b.toNat_lt
      unfold push
      omega
    rw [List.foldl_cons, ih hnext, encode_push hnext, List.append_assoc, List.singleton_append]

theorem value_cons_cons (first next : UInt8) (rest : Bytes) :
    value (first :: next :: rest) = rest.foldl push (push (push (signOf first) first) next) :=
  rfl

theorem value_of_repeatsSign {first next : UInt8} (h : RepeatsSign first next) (rest : Bytes) :
    value (first :: next :: rest) = value (next :: rest) := by
  have hsign : push (signOf first) first = signOf next := by
    rcases h with ⟨rfl, hnext⟩ | ⟨rfl, hnext⟩
    · rw [show push (signOf 0x00) 0x00 = 0 from rfl, signOf, if_neg (Nat.not_le.2 hnext)]
    · rw [show push (signOf 0xff) 0xff = -1 from rfl, signOf, if_pos hnext]
  rw [value_cons_cons, hsign]
  rfl

theorem encode_value_of_not_repeatsSign {first next : UInt8} (h : ¬ RepeatsSign first next)
    (rest : Bytes) : encode (value (first :: next :: rest)) = first :: next :: rest := by
  have hfirst := push_signOf_bounds first
  have hlong : ¬(-128 ≤ push (push (signOf first) first) next ∧
      push (push (signOf first) first) next < 128) := by
    intro hshort
    apply h
    have hbyte : first.toNat < 256 := first.toNat_lt
    have hnext : next.toNat < 256 := next.toNat_lt
    unfold RepeatsSign
    rw [← UInt8.toNat_inj, ← UInt8.toNat_inj]
    show first.toNat = 0 ∧ _ ∨ first.toNat = 255 ∧ _
    unfold push signOf at hshort
    split at hshort <;> omega
  rw [value_cons_cons, encode_foldl_push hlong, encode_push hlong, encode_of_byte hfirst, byteOf_push]
  rfl

theorem encode_value {content : Bytes} (h : content ≠ []) :
    encode (value content) = dropSign content := by
  induction content using dropSign.induct with
  | case1 first next rest hrepeats ih =>
    rw [dropSign, if_pos hrepeats, value_of_repeatsSign hrepeats, ih (List.cons_ne_nil _ _)]
  | case2 first next rest hkeep =>
    rw [dropSign, if_neg hkeep, encode_value_of_not_repeatsSign hkeep]
  | case3 content hshort =>
    rcases content with _ | ⟨b, _ | ⟨next, rest⟩⟩
    · exact absurd rfl h
    · show encode (push (signOf b) b) = [b]
      rw [encode_of_byte (push_signOf_bounds b), byteOf_push]
    · exact absurd rfl (hshort b next rest)

/-! ## All bytes of a number -/

/-- The two's complement of a number in so many bytes, most significant byte first. -/
def bigEndian : (size : Nat) → Int → Bytes
  | 0, _ => []
  | size + 1, n => bigEndian size (n / 256) ++ [byteOf n]

theorem bigEndian_succ_ne_nil (size : Nat) (n : Int) : bigEndian (size + 1) n ≠ [] :=
  List.append_ne_nil_of_right_ne_nil _ (List.cons_ne_nil _ _)

theorem value_bigEndian (size : Nat) {n : Int} (hlow : -(128 * Int.pow 256 size) ≤ n)
    (hhigh : n < 128 * Int.pow 256 size) : value (bigEndian (size + 1) n) = n := by
  induction size generalizing n with
  | zero =>
    have hpow : Int.pow 256 0 = 1 := rfl
    rw [hpow] at hlow hhigh
    exact value_byteOf (by omega)
  | succ size ih =>
    have hpow : Int.pow 256 (size + 1) = Int.pow 256 size * 256 := rfl
    rw [hpow] at hlow hhigh
    have hbyte := toNat_byteOf n
    rw [bigEndian, value_append (bigEndian_succ_ne_nil size _), ih (by omega) (by omega)]
    show n / 256 * 256 + (byteOf n).toNat = n
    omega

theorem encode_eq_dropSign_bigEndian (n : Int64) :
    encode n.toInt = dropSign (bigEndian 8 n.toInt) := by
  have hlow := n.le_toInt
  have hhigh := n.toInt_lt
  have hpow : 128 * Int.pow 256 7 = 2 ^ 63 := rfl
  rw [← encode_value (bigEndian_succ_ne_nil 7 _),
    value_bigEndian 7 (by omega) (by omega)]

/-! ## The shortest content -/

/-- A content is read as a number iff it is what is written for the number, with no more than eight
bytes, or has further bytes in front that only repeat the sign. -/
theorem decode?_eq_some_iff {content : Bytes} {n : Int64} :
    decode? content = some n ↔ content.length ≤ 8 ∧ dropSign content = encode n.toInt := by
  constructor
  · intro h
    obtain ⟨hne, hlength, hvalue⟩ := value_of_decode? h
    rw [← hvalue, encode_value hne]
    exact ⟨hlength, rfl⟩
  · rintro ⟨hlength, hdrop⟩
    have hne : content ≠ [] := by
      rintro rfl
      exact encode_ne_nil _ hdrop.symm
    have hvalue : value content = n.toInt := by
      rw [← value_encode (value content), encode_value hne, hdrop, value_encode]
    have hreadable : ¬(content.isEmpty ∨ 8 < content.length) := by
      rw [List.isEmpty_iff]
      exact not_or.2 ⟨hne, Nat.not_lt.2 hlength⟩
    unfold decode?
    rw [if_neg hreadable, hvalue, Int64.ofInt_toInt]

/-- What is written for a number of 64 bits are its eight bytes without those in front that only
repeat the sign.  It is read as the number, and any other content that is read as the number is
longer. -/
theorem encode_unique_shortest (n : Int64) :
    encode n.toInt = dropSign (bigEndian 8 n.toInt) ∧
      1 ≤ (encode n.toInt).length ∧ (encode n.toInt).length ≤ 8 ∧
      decode? (encode n.toInt) = some n ∧
      ∀ other, decode? other = some n → other ≠ encode n.toInt →
        (encode n.toInt).length < other.length := by
  refine ⟨encode_eq_dropSign_bigEndian n, List.length_pos_iff.2 (encode_ne_nil _),
    length_encode_toInt_le n, decode?_encode n, fun other hread hother => ?_⟩
  obtain ⟨-, hdrop⟩ := decode?_eq_some_iff.1 hread
  rw [← hdrop] at hother ⊢
  exact length_dropSign_lt hother

-- The byte in front stays where the next one has the other sign bit.
example :
    dropSign (bigEndian 8 127) = [0x7f] ∧ dropSign (bigEndian 8 128) = [0x00, 0x80] ∧
      dropSign (bigEndian 8 (-128)) = [0x80] ∧ dropSign (bigEndian 8 (-129)) = [0xff, 0x7f] := by
  decide

end ProbeAgent.Ber.Integer
