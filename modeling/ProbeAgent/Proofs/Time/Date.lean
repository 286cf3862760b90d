import ProbeAgent.Time.Date
import Mathlib.Order.SuccPred.IntervalSucc
import Mathlib.Tactic.IntervalCases

/-!
# Day numbers and dates

`Date.number` and `Date.ofNumber?` are inverse to each other, and the order of the numbers is the
order of years, months and days.  Both follow from what one year and one month add to the days
before them.
-/

namespace ProbeAgent.Date

/-! ## Years -/

theorem isLeapYear_iff (year : Int) :
    isLeapYear year = true ↔ year % 4 = 0 ∧ (year % 100 ≠ 0 ∨ year % 400 = 0) := by
  simp [isLeapYear]

def daysInYear (year : Int) : Nat := if isLeapYear year then 366 else 365

theorem daysBeforeYear_succ (year : Int) :
    daysBeforeYear (year + 1) = daysBeforeYear year + daysInYear year := by
  simp only [daysBeforeYear, daysInYear]
  by_cases h : isLeapYear year
  · rw [if_pos h]
    rw [isLeapYear_iff] at h
    omega
  · rw [if_neg h]
    rw [isLeapYear_iff] at h
    omega

theorem daysBeforeYear_lt_iff {year other : Int} :
    daysBeforeYear year < daysBeforeYear other ↔ year < other := by
  have hmono : StrictMono daysBeforeYear := by
    apply strictMono_int_of_lt_succ
    intro year
    rw [daysBeforeYear_succ, daysInYear]
    split <;> omega
  exact hmono.lt_iff_lt

theorem daysBeforeYear_le {year other : Int} (h : year ≤ other) :
    daysBeforeYear year ≤ daysBeforeYear other := by
  apply Int.not_lt.1
  rw [daysBeforeYear_lt_iff]
  omega

theorem yearOfNumber_bounds (number : Int) :
    daysBeforeYear (yearOfNumber number) ≤ number ∧
      number < daysBeforeYear (yearOfNumber number + 1) := by
  simp only [yearOfNumber]
  -- The first guess is off by one year at most: too late, too early, or right.
  split
  · simp only [daysBeforeYear] at *
    omega
  · split
    · simp only [daysBeforeYear] at *
      omega
    · omega

theorem yearOfNumber_eq {year number : Int} (hlow : daysBeforeYear year ≤ number)
    (hhigh : number < daysBeforeYear (year + 1)) : yearOfNumber number = year := by
  obtain ⟨hlow', hhigh'⟩ := yearOfNumber_bounds number
  have h1 := daysBeforeYear_lt_iff.1 (lt_of_le_of_lt hlow hhigh')
  have h2 := daysBeforeYear_lt_iff.1 (lt_of_le_of_lt hlow' hhigh)
  omega

theorem yearOfNumber_mem {number : Int} (hlow : daysBeforeYear minYear ≤ number)
    (hhigh : number < daysBeforeYear (maxYear + 1)) :
    minYear ≤ yearOfNumber number ∧ yearOfNumber number ≤ maxYear := by
  obtain ⟨hlow', hhigh'⟩ := yearOfNumber_bounds number
  have h1 := daysBeforeYear_lt_iff.1 (lt_of_le_of_lt hlow hhigh')
  have h2 := daysBeforeYear_lt_iff.1 (lt_of_le_of_lt hlow' hhigh)
  omega

/-! ## Months -/

theorem day_le (date : Date) : date.day ≤ 31 := by
  refine date.day_mem.2.trans ?_
  unfold daysInMonth
  split
  · split <;> decide
  · split <;> decide

theorem daysBeforeMonth_succ (year : Int) {month : Nat} (hlow : 1 ≤ month) (hhigh : month < 12) :
    daysBeforeMonth year (month + 1) = daysBeforeMonth year month + daysInMonth year month := by
  -- The table of cumulative days against the lengths of the months, with and without a leap day.
  cases hleap : isLeapYear year <;>
    interval_cases month <;> simp [daysBeforeMonth, daysInMonth, hleap]

theorem daysBeforeMonth_twelve (year : Int) :
    daysBeforeMonth year 12 + daysInMonth year 12 = daysInYear year := by
  cases hleap : isLeapYear year <;> simp [daysBeforeMonth, daysInMonth, daysInYear, hleap]

theorem daysBeforeMonth_add_le (year : Int) {m n : Nat} (hm : 1 ≤ m) (hmn : m < n) (hn : n ≤ 12) :
    daysBeforeMonth year m + daysInMonth year m ≤ daysBeforeMonth year n := by
  induction n, hmn using Nat.le_induction with
  | base => rw [daysBeforeMonth_succ year hm (by omega)]
  | succ n hmn ih =>
    rw [daysBeforeMonth_succ year (by omega) (by omega)]
    have := ih (by omega)
    omega

/-- The day at this offset into `year` lies in `month`. -/
def HoldsOffset (year : Int) (month offset : Nat) : Prop :=
  (1 ≤ month ∧ month ≤ 12) ∧ daysBeforeMonth year month ≤ offset ∧
    offset < daysBeforeMonth year month + daysInMonth year month

theorem HoldsOffset.unique {year : Int} {m n offset : Nat} (hm : HoldsOffset year m offset)
    (hn : HoldsOffset year n offset) : m = n := by
  obtain ⟨⟨hm1, hm12⟩, hmlow, hmhigh⟩ := hm
  obtain ⟨⟨hn1, hn12⟩, hnlow, hnhigh⟩ := hn
  rcases Nat.lt_trichotomy m n with hlt | heq | hlt
  · have := daysBeforeMonth_add_le year hm1 hlt hn12
    omega
  · exact heq
  · have := daysBeforeMonth_add_le year hn1 hlt hm12
    omega

private theorem holdsOffset_of_lt_succ {year : Int} {month offset : Nat} (hlow : 1 ≤ month)
    (hhigh : month < 12) (hfrom : daysBeforeMonth year month ≤ offset)
    (hto : offset < daysBeforeMonth year (month + 1)) : HoldsOffset year month offset := by
  rw [daysBeforeMonth_succ year hlow hhigh] at hto
  exact ⟨⟨hlow, by omega⟩, hfrom, hto⟩

theorem holdsOffset_monthOfOffset {year : Int} {offset : Nat} (h : offset < daysInYear year) :
    HoldsOffset year (monthOfOffset year offset) offset := by
  unfold monthOfOffset
  -- One case for each month before the last: not in an earlier month, and before the next one.
  split
  · exact holdsOffset_of_lt_succ (by decide) (by decide) (Nat.zero_le _) ‹_›
  iterate 10
    split
    · exact holdsOffset_of_lt_succ (by decide) (by decide) (by omega) ‹_›
  rw [← daysBeforeMonth_twelve] at h
  exact ⟨by decide, by omega, h⟩

/-! ## Dates -/

theorem holdsOffset_self (date : Date) :
    HoldsOffset date.year date.month (daysBeforeMonth date.year date.month + (date.day - 1)) := by
  have := date.day_mem
  exact ⟨date.month_mem, by omega, by omega⟩

theorem HoldsOffset.lt_daysInYear {year : Int} {month offset : Nat}
    (h : HoldsOffset year month offset) : offset < daysInYear year := by
  obtain ⟨⟨h1, h12⟩, -, hhigh⟩ := h
  rw [← daysBeforeMonth_twelve]
  rcases Nat.lt_or_ge month 12 with hlt | hge
  · have := daysBeforeMonth_add_le year h1 hlt (Nat.le_refl 12)
    omega
  · obtain rfl : month = 12 := by omega
    exact hhigh

theorem number_bounds (date : Date) :
    daysBeforeYear date.year ≤ date.number ∧ date.number < daysBeforeYear (date.year + 1) := by
  have := date.holdsOffset_self.lt_daysInYear
  rw [daysBeforeYear_succ]
  simp only [number]
  omega

theorem yearOfNumber_number (date : Date) : yearOfNumber date.number = date.year :=
  yearOfNumber_eq date.number_bounds.1 date.number_bounds.2

theorem ofNumber?_number (date : Date) : ofNumber? date.number = some date := by
  have hself := date.holdsOffset_self
  have hoffset : (date.number - daysBeforeYear date.year).toNat =
      daysBeforeMonth date.year date.month + (date.day - 1) := by
    simp only [number]
    omega
  have hmonth : monthOfOffset date.year (daysBeforeMonth date.year date.month + (date.day - 1)) =
      date.month :=
    (holdsOffset_monthOfOffset hself.lt_daysInYear).unique hself
  have hday : daysBeforeMonth date.year date.month + (date.day - 1)
      - daysBeforeMonth date.year date.month + 1 = date.day := by
    have := date.day_mem
    omega
  simp only [ofNumber?]
  rw [yearOfNumber_number, hoffset, hmonth, hday, ofYmd?_self]

theorem exists_number_eq {number : Int} (hlow : daysBeforeYear minYear ≤ number)
    (hhigh : number < daysBeforeYear (maxYear + 1)) : ∃ date : Date, date.number = number := by
  obtain ⟨hyear, hyear'⟩ := yearOfNumber_bounds number
  -- The offset into its year determines the month, and the offset into the month the day.
  obtain ⟨offset, hoffset⟩ : ∃ offset : Nat,
      number = daysBeforeYear (yearOfNumber number) + offset :=
    ⟨(number - daysBeforeYear (yearOfNumber number)).toNat, by omega⟩
  have hlt : offset < daysInYear (yearOfNumber number) := by
    rw [daysBeforeYear_succ] at hyear'
    omega
  obtain ⟨hmonth, hday, hday'⟩ := holdsOffset_monthOfOffset hlt
  refine ⟨⟨yearOfNumber number, monthOfOffset (yearOfNumber number) offset,
    offset - daysBeforeMonth (yearOfNumber number) (monthOfOffset (yearOfNumber number) offset) + 1,
    yearOfNumber_mem hlow hhigh, hmonth, by omega, by omega⟩, ?_⟩
  simp only [Date.number]
  omega

/-! ## Order -/

theorem number_lt_of_year_lt {a b : Date} (h : a.year < b.year) : a.number < b.number := by
  have ha := a.number_bounds
  have hb := b.number_bounds
  -- The numbers of one year lie below the first number of the next one.
  have := daysBeforeYear_le (show a.year + 1 ≤ b.year by omega)
  omega

theorem number_lt_of_month_lt {a b : Date} (hyear : a.year = b.year) (h : a.month < b.month) :
    a.number < b.number := by
  have ha := a.day_mem
  have hb := b.day_mem
  have := daysBeforeMonth_add_le a.year a.month_mem.1 h b.month_mem.2
  simp only [number, ← hyear]
  omega

theorem number_lt_of_day_lt {a b : Date} (hyear : a.year = b.year) (hmonth : a.month = b.month)
    (h : a.day < b.day) : a.number < b.number := by
  have ha := a.day_mem
  simp only [number, ← hyear, ← hmonth]
  omega

end ProbeAgent.Date
