import ProbeAgent.Ber.Integer
import ProbeAgent.Proofs.Text.Utf8

/-!
# Reading integers

The content that is written for a number has the number as its value, and for a number of 64 bits it
is short enough to be read.
-/

namespace ProbeAgent.Ber.Integer

open ProbeAgent.Text (Bytes toNat_ofNat)

theorem toNat_byteOf (n : Int) : ((byteOf n).toNat : Int) = n % 256 := by
  unfold byteOf
  rw [toNat_ofNat (by omega)]
  omega

/-! ## The written form -/

theorem encode_of_byte {n : Int} (h : -128 ≤ n ∧ n < 128) : encode n = [byteOf n] := by
  rw [encode, if_pos h]

theorem encode_of_long {n : Int} (h : ¬(-128 ≤ n ∧ n < 128)) :
    encode n = encode (n / 256) ++ [byteOf n] := by
  rw [encode, if_neg h]

theorem encode_ne_nil (n : Int) : encode n ≠ [] := by
  by_cases h : -128 ≤ n ∧ n < 128
  · rw [encode_of_byte h]
    exact List.cons_ne_nil _ _
  · rw [encode_of_long h]
    exact List.append_ne_nil_of_right_ne_nil _ (List.cons_ne_nil _ _)

-- The number of bytes grows with the bits of the number, of which one is its sign.
theorem length_encode_le {k : Nat} {n : Int} (hlow : -(128 * Int.pow 256 k) ≤ n)
    (hhigh : n < 128 * Int.pow 256 k) : (encode n).length ≤ k + 1 := by
  induction k generalizing n with
  | zero =>
    have hpow : Int.pow 256 0 = 1 := rfl
    rw [hpow] at hlow hhigh
    rw [encode_of_byte (by omega)]
    exact Nat.le_refl 1
  | succ k ih =>
    by_cases h : -128 ≤ n ∧ n < 128
    · rw [encode_of_byte h, List.length_singleton]
      omega
    · have hpow : Int.pow 256 (k + 1) = Int.pow 256 k * 256 := rfl
      rw [hpow] at hlow hhigh
      have hrest := ih (n := n / 256) (by omega) (by omega)
      rw [encode_of_long h, List.length_append, List.length_singleton]
      omega

/-! ## Its value -/

theorem value_append {content : Bytes} (h : content ≠ []) (b : UInt8) :
    value (content ++ [b]) = push (value content) b := by
  cases content with
  | nil => exact absurd rfl h
  | cons first rest =>
    show ((first :: rest) ++ [b]).foldl push (signOf first) = _
    rw [List.foldl_append]
    rfl

theorem value_byteOf {n : Int} (h : -128 ≤ n ∧ n < 128) : value [byteOf n] = n := by
  have hbyte := toNat_byteOf n
  show signOf (byteOf n) * 256 + (byteOf n).toNat = n
  unfold signOf
  split <;> omega

theorem value_encode (n : Int) : value (encode n) = n := by
  induction n using encode.induct with
  | case1 n h => rw [encode_of_byte h, value_byteOf h]
  | case2 n h ih =>
    have hbyte := toNat_byteOf n
    rw [encode_of_long h, value_append (encode_ne_nil _), ih]
    show n / 256 * 256 + (byteOf n).toNat = n
    omega

/-! ## Numbers of 64 bits -/

theorem length_encode_toInt_le (n : Int64) : (encode n.toInt).length ≤ 8 := by
  have hlow := n.le_toInt
  have hhigh := n.toInt_lt
  have hpow : 128 * Int.pow 256 7 = 2 ^ 63 := rfl
  exact length_encode_le (k := 7) (by omega) (by omega)

theorem decode?_encode (n : Int64) : decode? (encode n.toInt) = some n := by
  have hlength := length_encode_toInt_le n
  have hreadable : ¬((encode n.toInt).isEmpty ∨ 8 < (encode n.toInt).length) := by
    rw [List.isEmpty_iff]
    exact not_or.2 ⟨encode_ne_nil _, by omega⟩
  unfold decode?
  rw [if_neg hreadable, value_encode, Int64.ofInt_toInt]

/-! ## Contents that were read -/

/-- Each further byte moves the bounds of a number by a factor of 256. -/
theorem foldl_push_bounds {k : Nat} {n : Int} (hlow : -(128 * Int.pow 256 k) ≤ n)
    (hhigh : n < 128 * Int.pow 256 k) (rest : Bytes) :
    -(128 * Int.pow 256 (k + rest.length)) ≤ rest.foldl push n ∧
      rest.foldl push n < 128 * Int.pow 256 (k + rest.length) := by
  induction rest generalizing k n with
  | nil => exact ⟨hlow, hhigh⟩
  | cons b rest ih =>
    have hpow : Int.pow 256 (k + 1) = Int.pow 256 k * 256 := rfl
    have hbyte : b.toNat < 256 := b.toNat_lt
    have hpush : push n b = n * 256 + b.toNat := rfl
    have hnext := ih (k := k + 1) (n := push n b) (by omega) (by omega)
    rw [List.foldl_cons, List.length_cons, show k + (rest.length + 1) = k + 1 + rest.length by omega]
    exact hnext

theorem push_signOf_bounds (b : UInt8) :
    -128 ≤ push (signOf b) b ∧ push (signOf b) b < 128 := by
  have hbyte : b.toNat < 256 := b.toNat_lt
  unfold push signOf
  split <;> omega

theorem value_bounds (first : UInt8) (rest : Bytes) :
    -(128 * Int.pow 256 rest.length) ≤ value (first :: rest) ∧
      value (first :: rest) < 128 * Int.pow 256 rest.length := by
  have hpow : Int.pow 256 0 = 1 := rfl
  obtain ⟨hlow, hhigh⟩ := push_signOf_bounds first
  have hbounds := foldl_push_bounds (k := 0) (n := push (signOf first) first) (by omega) (by omega)
    rest
  rw [Nat.zero_add] at hbounds
  exact hbounds

theorem pow_le_size : ∀ k < 8, 128 * Int.pow 256 k ≤ 0x8000000000000000 := by
  decide

theorem value_of_decode? {content : Bytes} {n : Int64} (h : decode? content = some n) :
    content ≠ [] ∧ content.length ≤ 8 ∧ value content = n.toInt := by
  unfold decode? at h
  split at h
  · contradiction
  · rename_i hlength
    cases h
    cases content with
    | nil => exact absurd (.inl rfl) hlength
    | cons first rest =>
      have hle : (first :: rest).length ≤ 8 := Nat.not_lt.1 fun hlong => hlength (.inr hlong)
      rw [List.length_cons] at hle
      obtain ⟨hlow, hhigh⟩ := value_bounds first rest
      have hsize := pow_le_size rest.length (by omega)
      exact ⟨List.cons_ne_nil _ _, hle,
        (Int64.toInt_ofInt_of_le (by omega) (by omega)).symm⟩

/-- A content that was read is at least as long as that which is written for its number. -/
theorem length_encode_le_of_decode? {content : Bytes} {n : Int64} (h : decode? content = some n) :
    (encode n.toInt).length ≤ content.length := by
  obtain ⟨hne, -, hvalue⟩ := value_of_decode? h
  cases content with
  | nil => exact absurd rfl hne
  | cons first rest =>
    obtain ⟨hlow, hhigh⟩ := value_bounds first rest
    rw [← hvalue]
    exact length_encode_le hlow hhigh

end ProbeAgent.Ber.Integer
