import ProbeAgent.Proofs.Text.Decimal
import ProbeAgent.Proofs.Time.Instant
import ProbeAgent.Time.Text

/-!
# Reading date-times that were written

Every instant is read back from its text (`parse_render`), leap seconds and years of any size
included.  Each part of the text ends where the reader of that part ends, so the parts are taken one
by one.
-/

namespace ProbeAgent.Instant

open Text

/-! ## Numbers and separators -/

theorem readNumber_run (width : Option Nat) (rest : List Char) {digits : List Char}
    (hne : digits ≠ []) (h : ∀ c ∈ digits, c.isDigit = true)
    (hlength : ∀ limit ∈ width, digits.length ≤ limit)
    (hrest : digits.length ∈ width ∨ EndsDigits rest) (hlimit : digitsValue digits ≤ numberLimit) :
    readNumber width (digits ++ rest) = .ok (digitsValue digits, rest) := by
  have hspan : spanDigits (width.getD (digits ++ rest).length) (digits ++ rest) =
      (digits, rest) := by
    cases width with
    | some limit =>
      refine spanDigits_run h (hlength limit rfl) ?_
      exact hrest.imp_left fun hfull => (Option.some.inj hfull).symm
    | none =>
      refine spanDigits_run h (by simp) ?_
      exact .inr (hrest.resolve_left fun hfull => by cases hfull)
  rw [readNumber, if_neg (by simp [hne]), hspan]
  simp only [List.isEmpty_iff, hne, if_false, Nat.not_lt.2 hlimit]
  rfl

theorem readNumber_paddedNat {width n : Nat} (hwidth : 0 < width) (h : n < 10 ^ width)
    (hlimit : n ≤ numberLimit) (rest : List Char) :
    readNumber (some width) ((paddedNat width n).toList ++ rest) = .ok (n, rest) := by
  have hlength := length_paddedNat hwidth h
  have hvalue := digitsValue_paddedNat width n
  obtain ⟨c, digits, hcons, -⟩ := exists_paddedNat_eq_cons width n
  have hread := readNumber_run (some width) rest
    (show (paddedNat width n).toList ≠ [] by rw [hcons]; exact List.cons_ne_nil c digits)
    isDigit_of_mem_paddedNat (fun limit hl => by cases hl; exact hlength.le)
    (.inl (congrArg some hlength.symm)) (by omega)
  rwa [hvalue] at hread

theorem trimStart_paddedNat (width n : Nat) (rest : List Char) :
    trimStart ((paddedNat width n).toList ++ rest) = (paddedNat width n).toList ++ rest := by
  obtain ⟨c, digits, hcons, hdigit⟩ := exists_paddedNat_eq_cons width n
  rw [hcons]
  exact trimStart_cons (isBlank_of_isDigit hdigit) _

theorem le_numberLimit {n : Nat} (h : n < 1000000000) : n ≤ numberLimit := by
  simp only [numberLimit, Nat.pow_eq]
  omega

theorem readField_paddedNat {lo hi n : Nat} (hlo : lo ≤ n) (hhi : n ≤ hi) (h : hi < 100)
    (rest : List Char) :
    readField lo hi ((paddedNat 2 n).toList ++ rest) = .ok (n, rest) := by
  rw [readField, trimStart_paddedNat,
    readNumber_paddedNat (by decide) (by omega) (le_numberLimit (by omega))]
  simp only [bind, Except.bind]
  rw [if_pos ⟨hlo, hhi⟩]
  rfl

theorem readSeparator_cons {separator : Char} (h : isBlank separator = false) (rest : List Char) :
    readSeparator separator (separator :: rest) = .ok rest := by
  rw [readSeparator, trimStart_cons h]
  simp only [if_true]
  rfl

/-! ## Years -/

theorem readYear_of_isDigit {c : Char} (h : c.isDigit = true) (rest : List Char) :
    readYear (c :: rest) =
      (fun (n, rest) => ((n : Int), rest)) <$> readNumber (some 4) (c :: rest) := by
  rw [readYear, trimStart_cons (isBlank_of_isDigit h)]
  -- A digit is no sign.
  split
  · rename_i heq
    cases heq
    contradiction
  · rename_i heq
    cases heq
    contradiction
  · rfl

theorem readNumber_natAbs {year : Int} (h : minYear ≤ year ∧ year ≤ maxYear) (rest : List Char) :
    readNumber none ((paddedNat 4 year.natAbs).toList ++ '-' :: rest) =
      .ok (year.natAbs, '-' :: rest) := by
  have hvalue := digitsValue_paddedNat 4 year.natAbs
  have hlimit : year.natAbs ≤ numberLimit := by
    simp only [minYear, maxYear] at h
    exact le_numberLimit (by omega)
  obtain ⟨c, digits, hcons, -⟩ := exists_paddedNat_eq_cons 4 year.natAbs
  have hread := readNumber_run none ('-' :: rest)
    (show (paddedNat 4 year.natAbs).toList ≠ [] by rw [hcons]; exact List.cons_ne_nil c digits)
    isDigit_of_mem_paddedNat (fun limit hl => by cases hl)
    (.inr (endsDigits_cons (by decide) rest)) (by omega)
  rwa [hvalue] at hread

theorem readYear_renderYear {year : Int} (h : minYear ≤ year ∧ year ≤ maxYear) (rest : List Char) :
    readYear ((renderYear year).toList ++ '-' :: rest) = .ok (year, '-' :: rest) := by
  by_cases hfour : 0 ≤ year ∧ year ≤ 9999
  · obtain ⟨c, digits, hcons, hdigit⟩ := exists_paddedNat_eq_cons 4 year.toNat
    have hnumber := readNumber_paddedNat (show 0 < 4 by decide)
      (show year.toNat < 10 ^ 4 by omega) (le_numberLimit (by omega)) ('-' :: rest)
    rw [renderYear, if_pos hfour, hcons, List.cons_append, readYear_of_isDigit hdigit,
      ← List.cons_append, ← hcons, hnumber]
    simp only [Functor.map, Except.map, Int.toNat_of_nonneg hfour.1]
  · have hnumber := readNumber_natAbs h rest
    rw [renderYear, if_neg hfour, paddedSigned, String.toList_append]
    by_cases hneg : year < 0
    · rw [if_pos hneg]
      show readYear ('-' :: ((paddedNat 4 year.natAbs).toList ++ '-' :: rest)) = _
      rw [readYear, trimStart_cons (by decide)]
      simp only [hnumber, bind, Except.bind]
      rw [show -(year.natAbs : Int) = year by omega]
      rfl
    · rw [if_neg hneg]
      show readYear ('+' :: ((paddedNat 4 year.natAbs).toList ++ '-' :: rest)) = _
      rw [readYear, trimStart_cons (by decide)]
      simp only [hnumber, bind, Except.bind]
      rw [show (year.natAbs : Int) = year by omega]
      rfl

/-! ## Fractions of a second -/

theorem readFraction_paddedNat {width n : Nat} (hwidth : 0 < width) (hnine : width ≤ 9)
    (h : n < 10 ^ width) :
    readFraction ('.' :: (paddedNat width n).toList) = .ok (n * 10 ^ (9 - width), []) := by
  have hlength := length_paddedNat hwidth h
  have hvalue := digitsValue_paddedNat width n
  obtain ⟨c, digits, hcons, -⟩ := exists_paddedNat_eq_cons width n
  have hread := readNumber_run (some 9) []
    (show (paddedNat width n).toList ≠ [] by rw [hcons]; exact List.cons_ne_nil c digits)
    isDigit_of_mem_paddedNat (fun limit hl => by cases hl; omega) (.inr endsDigits_nil)
    (by
      have hle : 10 ^ width ≤ 10 ^ 9 := Nat.pow_le_pow_right (by decide) hnine
      exact le_numberLimit (by omega))
  rw [List.append_nil, hvalue] at hread
  rw [readFraction]
  have htake : (paddedNat width n).toList.take width = (paddedNat width n).toList :=
    List.take_of_length_le hlength.le
  simp only [hread, bind, Except.bind, List.length_nil, Nat.sub_zero, hlength, htake, hvalue,
    List.dropWhile_nil, Nat.pow_eq]
  rfl

theorem readFraction_renderFraction (t : Instant) :
    readFraction t.renderFraction.toList = .ok (t.nano % 1000000000, []) := by
  have hlt : t.nano % 1000000000 < 1000000000 := Nat.mod_lt _ (by decide)
  have hpoint : ∀ text : String, ("." ++ text).toList = '.' :: text.toList := fun text =>
    String.toList_append
  unfold renderFraction
  -- No digits, or as many groups of three as there are before the zeros at the end.
  by_cases hwhole : t.nano % 1000000000 = 0
  · simp only [hwhole, if_true]
    rfl
  · by_cases hmilli : t.nano % 1000000000 % 1000000 = 0
    · simp only [hwhole, hmilli, if_false, if_true, hpoint]
      rw [readFraction_paddedNat (by decide) (by decide) (by omega)]
      rw [show t.nano % 1000000000 / 1000000 * 10 ^ (9 - 3) = t.nano % 1000000000 by omega]
    · by_cases hmicro : t.nano % 1000000000 % 1000 = 0
      · simp only [hwhole, hmilli, hmicro, if_false, if_true, hpoint]
        rw [readFraction_paddedNat (by decide) (by decide) (by omega)]
        rw [show t.nano % 1000000000 / 1000 * 10 ^ (9 - 6) = t.nano % 1000000000 by omega]
      · simp only [hwhole, hmilli, hmicro, if_false, hpoint]
        rw [readFraction_paddedNat (by decide) (by decide) (by omega)]
        rw [show t.nano % 1000000000 * 10 ^ (9 - 9) = t.nano % 1000000000 by omega]

/-! ## Whole texts -/

/-! ## Whole texts -/

theorem ofDateTime?_self {t : Instant} {date : Date} (h : date.number = t.dayNumber) :
    ofDateTime? date t.hour t.minute t.secondOfMinute t.nano = some t := by
  have hsecond : date.number * 86400 +
      ((t.hour * 3600 + t.minute * 60 + t.secondOfMinute : Nat) : Int) = t.second := by
    rw [h, ← secondOfDay_eq, ← second_eq]
  rw [ofDateTime?, if_pos ⟨t.hour_lt, t.minute_lt, t.secondOfMinute_lt⟩, hsecond, ofParts?_self]

/-- The number that stands for the second of the minute: 60 for a leap second. -/
def shownSecond (t : Instant) : Nat :=
  if t.isLeap then t.secondOfMinute + 1 else t.secondOfMinute

theorem shownSecond_le (t : Instant) : t.shownSecond ≤ 60 := by
  have hlt := t.secondOfMinute_lt
  unfold shownSecond
  split <;> omega

/-- The second that is shown and the fraction stand for the second and the nanoseconds. -/
theorem leap_shownSecond (t : Instant) :
    (if t.shownSecond = 60 then (59, t.nano % 1000000000 + 1000000000)
      else (t.shownSecond, t.nano % 1000000000)) = (t.secondOfMinute, t.nano) := by
  have hnano := t.nano_lt
  have hsecond := t.secondOfMinute_lt
  have hmod : t.second % 60 = t.secondOfMinute := by
    simp only [secondOfMinute, secondOfDay]
    omega
  unfold shownSecond
  by_cases hleap : t.isLeap
  · have hge : 1000000000 ≤ t.nano := by simpa [isLeap] using hleap
    have hlast : t.secondOfMinute = 59 := by omega
    simp only [hleap, if_true, hlast, Prod.mk.injEq, true_and]
    omega
  · have hlt : t.nano < 1000000000 := by simpa [isLeap] using hleap
    rw [if_neg hleap, if_neg (by omega), Nat.mod_eq_of_lt hlt]

theorem renderDate_eq {t : Instant} {date : Date} (h : date.number = t.dayNumber) :
    t.renderDate = date.render := by
  have hdate : Date.ofNumber? t.dayNumber = some date := by rw [← h, Date.ofNumber?_number]
  unfold renderDate
  rw [hdate]

theorem toList_render {t : Instant} {date : Date} (h : date.number = t.dayNumber) :
    t.render.toList = (renderYear date.year).toList ++ '-' :: ((paddedNat 2 date.month).toList ++
      '-' :: ((paddedNat 2 date.day).toList ++ 'T' :: ((paddedNat 2 t.hour).toList ++
        ':' :: ((paddedNat 2 t.minute).toList ++ ':' :: ((paddedNat 2 t.shownSecond).toList ++
          t.renderFraction.toList))))) := by
  have hcolon : ":".toList = [':'] := rfl
  have hdash : "-".toList = ['-'] := rfl
  have hT : "T".toList = ['T'] := rfl
  rw [render, renderDate_eq h]
  simp only [Date.render, renderTime, shownSecond, String.toList_append, hcolon, hdash, hT,
    List.append_assoc, List.cons_append, List.nil_append]

theorem readInstant_render (t : Instant) : readInstant t.render.toList = .ok (t, []) := by
  obtain ⟨date, hdate⟩ := t.exists_date
  have hyear := readYear_renderYear date.year_mem
  have hyearLimit : ¬ (date.year < -yearLimit ∨ yearLimit ≤ date.year) := by
    have hmem := date.year_mem
    have hlimit : yearLimit = 2147483648 := rfl
    simp only [minYear, maxYear] at hmem
    omega
  have hmonth := readField_paddedNat date.month_mem.1 date.month_mem.2 (by decide)
  have hday := readField_paddedNat date.day_mem.1 date.day_le (by decide)
  have hhour := readField_paddedNat (Nat.zero_le _) (Nat.le_of_lt_succ t.hour_lt) (by decide)
  have hminute := readField_paddedNat (Nat.zero_le _) (Nat.le_of_lt_succ t.minute_lt) (by decide)
  have hsecond := readField_paddedNat (Nat.zero_le _) t.shownSecond_le (by decide)
  have hfraction := t.readFraction_renderFraction
  have hdash := readSeparator_cons (show isBlank '-' = false by decide)
  have hT := readSeparator_cons (show isBlank 'T' = false by decide)
  have hcolon := readSeparator_cons (show isBlank ':' = false by decide)
  rw [toList_render hdate, readInstant]
  simp only [hyear, hmonth, hday, hhour, hminute, hsecond, hfraction, hdash, hT, hcolon,
    leap_shownSecond, if_neg hyearLimit, bind, Except.bind, pure, Except.pure]
  simp only [Date.ofYmd?_self, Option.bind, ofDateTime?_self hdate]
  rfl

/-- Every instant is read back from its text. -/
theorem parse_render (t : Instant) : parse t.render = .ok t := by
  rw [parse, readInstant_render]
  rfl

end ProbeAgent.Instant
