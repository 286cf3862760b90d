import Mathlib.Algebra.Group.Nat.Defs
import ProbeAgent.Text.Blank
import ProbeAgent.Text.Decimal

/-!
# Reading digits that were written

The digits of a number have its value, with zeros in front or without.  A run of digits is read as a
whole: up to what follows it if that is no digit, or up to the limit if the run is as long.  Text
that neither begins nor ends with a blank is what trimming leaves of it between blanks (`Tight`).
-/

namespace ProbeAgent.Text

/-- What follows a run of digits does not go on with one. -/
def EndsDigits (rest : List Char) : Prop :=
  ∀ c ∈ rest.head?, c.isDigit = false

theorem endsDigits_nil : EndsDigits [] := by
  intro c hc
  cases hc

theorem endsDigits_cons {c : Char} (h : c.isDigit = false) (rest : List Char) :
    EndsDigits (c :: rest) := by
  intro d hd
  cases hd
  exact h

theorem isBlank_of_isDigit {c : Char} (h : c.isDigit = true) : isBlank c = false := by
  have hrange : 48 ≤ c.toNat ∧ c.toNat ≤ 57 := by
    simpa [Char.isDigit, Char.le_def, UInt32.le_iff_toNat_le] using h
  simp only [isBlank, Bool.or_eq_false_iff, Bool.and_eq_false_iff, beq_eq_false_iff_ne,
    decide_eq_false_iff_not]
  omega

theorem isDigit_of_isBlank {c : Char} (h : isBlank c = true) : c.isDigit = false := by
  cases hdigit : c.isDigit with
  | false => rfl
  | true =>
    rw [isBlank_of_isDigit hdigit] at h
    contradiction

theorem endsDigits_append {front rest : List Char} (hfront : ∀ c ∈ front, isBlank c)
    (hrest : EndsDigits rest) : EndsDigits (front ++ rest) := by
  cases front with
  | nil => exact hrest
  | cons c front =>
    exact endsDigits_cons (isDigit_of_isBlank (hfront c List.mem_cons_self)) (front ++ rest)

theorem trimStart_cons {c : Char} (h : isBlank c = false) (rest : List Char) :
    trimStart (c :: rest) = c :: rest := by
  rw [trimStart, List.dropWhile_cons_of_neg (by rw [h]; decide)]

/-! ## Trimming -/

/-- The text begins and ends with a character that is not blank. -/
structure Tight (text : List Char) : Prop where
  head : ∃ c rest, text = c :: rest ∧ isBlank c = false
  last : ∃ front c, text = front ++ [c] ∧ isBlank c = false

theorem Tight.join {front back : List Char} (hfront : Tight front) (hback : Tight back)
    (between : List Char) : Tight (front ++ between ++ back) := by
  obtain ⟨c, rest, rfl, hc⟩ := hfront.head
  obtain ⟨start, d, rfl, hd⟩ := hback.last
  exact ⟨⟨c, rest ++ between ++ (start ++ [d]), rfl, hc⟩,
    ⟨(c :: rest) ++ between ++ start, d, by simp, hd⟩⟩

theorem Tight.trim_append {before text after : List Char} (h : Tight text)
    (hbefore : ∀ c ∈ before, isBlank c) (hafter : ∀ c ∈ after, isBlank c) :
    trim (before ++ text ++ after) = text := by
  have hstart : trimStart (before ++ text ++ after) = text ++ after := by
    obtain ⟨c, rest, rfl, hc⟩ := h.head
    rw [List.append_assoc, trimStart, List.dropWhile_append_of_pos hbefore]
    exact trimStart_cons hc (rest ++ after)
  have hend : trimEnd (text ++ after) = text := by
    obtain ⟨front, c, rfl, hc⟩ := h.last
    have hafter' : ∀ c ∈ after.reverse, isBlank c := fun c hc => hafter c (List.mem_reverse.1 hc)
    rw [trimEnd, List.reverse_append, List.dropWhile_append_of_pos hafter', List.reverse_concat,
      List.dropWhile_cons_of_neg (by rw [hc]; decide), List.reverse_cons, List.reverse_reverse]
  rw [trim, hstart, hend]

/-! ## Values of digits -/

theorem digitsValue_eq (digits : List Char) : digitsValue digits = Nat.ofDigitChars 10 digits 0 := rfl

theorem digitsValue_toDigits (n : Nat) : digitsValue (Nat.toDigits 10 n) = n :=
  Nat.ofDigitChars_ten_toDigits

theorem isDigit_of_mem_toDigits {n : Nat} : ∀ c ∈ Nat.toDigits 10 n, c.isDigit = true :=
  fun _ hc => Nat.isDigit_of_mem_toDigits (by decide) (by decide) hc

/-- The digits of a number that is not zero do not start with one. -/
theorem head?_toDigits_ne_zero {n : Nat} (h : 0 < n) : (Nat.toDigits 10 n).head? ≠ some '0' := by
  induction n using Nat.strongRecOn with
  | _ n ih =>
    rcases Nat.lt_or_ge n 10 with hlt | hge
    · rw [Nat.toDigits_of_lt_base hlt, List.head?_cons, ne_eq, Option.some.injEq,
        Nat.digitChar_eq_zero]
      omega
    · obtain ⟨c, digits, hcons⟩ := List.exists_cons_of_ne_nil (Nat.toDigits_ne_nil (n := n / 10))
      have hquotient := ih (n / 10) (by omega) (by omega)
      rw [hcons] at hquotient
      rw [Nat.toDigits_of_base_le (by decide) hge, hcons]
      exact hquotient

theorem pos_of_length_toDigits {n : Nat} (h : 1 < (Nat.toDigits 10 n).length) : 0 < n := by
  refine Nat.pos_of_ne_zero ?_
  rintro rfl
  rw [Nat.toDigits_zero] at h
  exact absurd h (by decide)

theorem tight_toDigits (n : Nat) : Tight (Nat.toDigits 10 n) := by
  have hblank {c : Char} (hc : c ∈ Nat.toDigits 10 n) : isBlank c = false :=
    isBlank_of_isDigit (isDigit_of_mem_toDigits c hc)
  constructor
  · obtain ⟨c, rest, hcons⟩ := List.exists_cons_of_ne_nil (Nat.toDigits_ne_nil (n := n))
    exact ⟨c, rest, hcons, hblank (by rw [hcons]; exact List.mem_cons_self)⟩
  · exact ⟨_, _, (List.dropLast_concat_getLast Nat.toDigits_ne_nil).symm,
      hblank (List.getLast_mem Nat.toDigits_ne_nil)⟩

/-! ## Runs of digits -/

theorem takeWhile_isDigit_append {digits rest : List Char} (h : ∀ c ∈ digits, c.isDigit = true)
    (hrest : EndsDigits rest) : (digits ++ rest).takeWhile Char.isDigit = digits := by
  rw [List.takeWhile_append_of_pos h]
  cases rest with
  | nil => exact List.append_nil _
  | cons c rest =>
    rw [List.takeWhile_cons_of_neg (by rw [hrest c rfl]; decide), List.append_nil]

theorem spanAllDigits_run {digits rest : List Char} (h : ∀ c ∈ digits, c.isDigit = true)
    (hrest : EndsDigits rest) : spanAllDigits (digits ++ rest) = (digits, rest) := by
  have htake := takeWhile_isDigit_append h hrest
  have hall := List.takeWhile_append_dropWhile (p := Char.isDigit) (l := digits ++ rest)
  rw [htake] at hall
  rw [spanAllDigits, htake, List.append_cancel_left hall]

theorem spanDigits_run {limit : Nat} {digits rest : List Char} (h : ∀ c ∈ digits, c.isDigit = true)
    (hlength : digits.length ≤ limit) (hrest : digits.length = limit ∨ EndsDigits rest) :
    spanDigits limit (digits ++ rest) = (digits, rest) := by
  have htake : ((digits ++ rest).take limit).takeWhile Char.isDigit = digits := by
    rw [List.take_append, List.take_of_length_le hlength]
    refine takeWhile_isDigit_append h ?_
    intro c hc
    rw [List.head?_take] at hc
    split at hc
    · cases hc
    · rename_i hroom
      rcases hrest with hfull | hends
      · exact absurd (by omega) hroom
      · exact hends c hc
  rw [spanDigits, htake, List.drop_left]

/-! ## Numbers of fixed width -/

theorem toList_paddedNat (width n : Nat) : (paddedNat width n).toList =
    List.replicate (width - (Nat.toDigits 10 n).length) '0' ++ Nat.toDigits 10 n :=
  String.toList_ofList

theorem isDigit_of_mem_paddedNat {width n : Nat} :
    ∀ c ∈ (paddedNat width n).toList, c.isDigit = true := by
  intro c hc
  rw [toList_paddedNat, List.mem_append] at hc
  rcases hc with hzero | hdigit
  · rw [List.eq_of_mem_replicate hzero]
    decide
  · exact isDigit_of_mem_toDigits c hdigit

theorem digitsValue_paddedNat (width n : Nat) : digitsValue (paddedNat width n).toList = n := by
  rw [toList_paddedNat, digitsValue_eq, Nat.ofDigitChars_append, Nat.ofDigitChars_replicate_zero,
    Nat.mul_zero, Nat.ofDigitChars_ten_toDigits]

theorem length_paddedNat {width n : Nat} (hwidth : 0 < width) (h : n < 10 ^ width) :
    (paddedNat width n).toList.length = width := by
  have hle := (Nat.length_toDigits_le_iff (by decide) hwidth).2 h
  rw [toList_paddedNat, List.length_append, List.length_replicate]
  omega

theorem exists_paddedNat_eq_cons (width n : Nat) :
    ∃ c digits, (paddedNat width n).toList = c :: digits ∧ c.isDigit = true := by
  have hne : (paddedNat width n).toList ≠ [] := by
    rw [toList_paddedNat]
    exact List.append_ne_nil_of_right_ne_nil _ Nat.toDigits_ne_nil
  obtain ⟨c, digits, hcons⟩ := List.exists_cons_of_ne_nil hne
  exact ⟨c, digits, hcons, isDigit_of_mem_paddedNat c (by rw [hcons]; exact List.mem_cons_self)⟩

end ProbeAgent.Text
