import ProbeAgent.Time.Instant
import ProbeAgent.Proofs.Time.Date
import Mathlib.Order.Bounds.Defs

/-!
# Instants by their dates and times of day

Every instant lies on a date, a date and a time of day give a whole second, and `Instant.ceil?` is
the least whole second that is not earlier.  Between instants outside of leap seconds
`Instant.since` is a plain difference, so it grows with the later instant and adds up along a chain;
such instants lie on one line, by their `Instant.nanos`.
-/

namespace ProbeAgent.Instant

/-! ## Dates and times of day -/

theorem second_eq (t : Instant) : t.second = t.dayNumber * 86400 + t.secondOfDay := by
  simp only [dayNumber, secondOfDay]
  omega

theorem secondOfDay_eq (t : Instant) :
    t.secondOfDay = t.hour * 3600 + t.minute * 60 + t.secondOfMinute := by
  simp only [hour, minute, secondOfMinute]
  omega

theorem hour_lt (t : Instant) : t.hour < 24 := by
  simp only [hour, secondOfDay]
  omega

theorem minute_lt (t : Instant) : t.minute < 60 := Nat.mod_lt _ (by decide)

theorem secondOfMinute_lt (t : Instant) : t.secondOfMinute < 60 := Nat.mod_lt _ (by decide)

theorem exists_date (t : Instant) : ∃ date : Date, date.number = t.dayNumber := by
  -- The bounds of the seconds are those of the years, less a part of a day at either end.
  have hmin : Date.daysBeforeYear minYear = -96465292 := by decide
  have hmax : Date.daysBeforeYear (maxYear + 1) = 95026237 := by decide
  have hmem := t.second_mem
  simp only [minSecond, maxSecond] at hmem
  apply Date.exists_number_eq
  · rw [hmin, dayNumber]
    omega
  · rw [hmax, dayNumber]
    omega

theorem number_of_ofNumber? {t : Instant} {date : Date}
    (h : Date.ofNumber? t.dayNumber = some date) : date.number = t.dayNumber := by
  obtain ⟨date', hdate'⟩ := t.exists_date
  rw [← hdate', Date.ofNumber?_number] at h
  cases h
  exact hdate'

theorem year_eq {t : Instant} {date : Date} (h : date.number = t.dayNumber) :
    t.year = date.year := by
  rw [year, ← h, Date.yearOfNumber_number]

theorem exists_ofDateTime? (date : Date) {hour minute second : Nat} (hh : hour < 24)
    (hm : minute < 60) (hs : second < 60) :
    ∃ t, ofDateTime? date hour minute second 0 = some t ∧ t.nano = 0 ∧
      t.dayNumber = date.number ∧ t.hour = hour ∧ t.minute = minute ∧
        t.secondOfMinute = second := by
  have hmin : Date.daysBeforeYear minYear = -96465292 := by decide
  have hmax : Date.daysBeforeYear (maxYear + 1) = 95026237 := by decide
  have hlow := Date.daysBeforeYear_le date.year_mem.1
  have hhigh := Date.daysBeforeYear_le
    (show date.year + 1 ≤ maxYear + 1 by have := date.year_mem.2; omega)
  have hnumber := date.number_bounds
  rw [hmin] at hlow
  rw [hmax] at hhigh
  have hmem : minSecond ≤ date.number * 86400 + (hour * 3600 + minute * 60 + second : Nat) ∧
      date.number * 86400 + (hour * 3600 + minute * 60 + second : Nat) ≤ maxSecond := by
    simp only [minSecond, maxSecond]
    omega
  refine ⟨⟨_, 0, hmem, .inl (by decide)⟩, ?_, rfl, ?_, ?_, ?_, ?_⟩
  · rw [ofDateTime?, if_pos ⟨hh, hm, hs⟩, ofParts?, dif_pos ⟨hmem, .inl (by decide)⟩]
  all_goals
    simp only [dayNumber, Instant.hour, Instant.minute, secondOfMinute, secondOfDay]
    omega

/-! ## Order -/

theorem le_of_lt {a b : Instant} (h : a < b) : a ≤ b := by
  rw [lt_def] at h
  rw [le_def]
  omega

theorem le_of_dayNumber_lt {a b : Instant} (h : a.dayNumber < b.dayNumber) : a ≤ b := by
  rw [le_def]
  simp only [dayNumber] at h
  omega

theorem dayNumber_mono {a b : Instant} (h : a ≤ b) : a.dayNumber ≤ b.dayNumber := by
  rw [le_def] at h
  simp only [dayNumber]
  omega

theorem le_iff_of_whole {a b : Instant} (ha : a.nano = 0) (hb : b.nano = 0) :
    a ≤ b ↔ a.second ≤ b.second := by
  rw [le_def]
  omega

theorem year_mono {a b : Instant} (h : a ≤ b) : a.year ≤ b.year := by
  obtain ⟨hlow, -⟩ := Date.yearOfNumber_bounds a.dayNumber
  obtain ⟨-, hhigh⟩ := Date.yearOfNumber_bounds b.dayNumber
  -- If the year of `b` were an earlier one, all its days would lie before the year of `a`.
  have hday := dayNumber_mono h
  have := Date.daysBeforeYear_lt_iff.1
    (show Date.daysBeforeYear a.year < Date.daysBeforeYear (b.year + 1) by
      simp only [year]
      omega)
  omega

/-! ## Whole seconds -/

theorem truncate_add? (t : Instant) (seconds : Int) :
    t.truncate.add? (seconds * nanosPerSecond) = ofParts? (t.second + seconds) 0 := by
  have hleap : t.truncate.isLeap = false := by simp [isLeap]
  have hdiv : (0 + seconds * nanosPerSecond) / nanosPerSecond = seconds := by
    simp only [nanosPerSecond]
    omega
  have hmod : (0 + seconds * nanosPerSecond) % nanosPerSecond = 0 := by
    simp only [nanosPerSecond]
    omega
  rw [add?, if_neg (by rw [hleap]; decide), ofOffset?]
  rw [truncate_second, truncate_nano, Int.natCast_zero, hdiv, hmod, Int.toNat_zero]

theorem ofParts?_whole {second : Int} (h : minSecond ≤ second ∧ second ≤ maxSecond) :
    ofParts? second 0 = some ⟨second, 0, h, .inl (by decide)⟩ := by
  rw [ofParts?, dif_pos ⟨h, .inl (by decide)⟩]

theorem isLeast_of_ceil? {t u : Instant} (h : t.ceil? = some u) :
    IsLeast {v : Instant | v.nano = 0 ∧ t ≤ v} u := by
  rw [ceil?] at h
  split at h
  · rename_i hnano
    cases h
    exact ⟨⟨hnano, le_refl t⟩, fun v hv => hv.2⟩
  · -- No whole second lies between the second of `t` and the next one.
    rename_i hnano
    have hadd := truncate_add? t 1
    rw [Int.one_mul] at hadd
    rw [hadd] at h
    obtain ⟨hsecond, hzero⟩ := ofParts?_eq_some h
    refine ⟨⟨hzero, ?_⟩, fun v hv => ?_⟩
    · rw [le_def]
      omega
    · have hle := hv.2
      have hv0 : v.nano = 0 := hv.1
      rw [le_def] at hle ⊢
      omega

-- Rounding up fails only in the last second of all.
theorem exists_ceil? {t v : Instant} (hv : v.nano = 0) (h : t ≤ v) : ∃ u, t.ceil? = some u := by
  rw [ceil?]
  split
  · exact ⟨t, rfl⟩
  · rename_i hnano
    have hadd := truncate_add? t 1
    rw [Int.one_mul] at hadd
    have ht := t.second_mem
    have hv' := v.second_mem
    rw [le_def] at h
    exact ⟨_, hadd.trans (ofParts?_whole (by omega))⟩

/-! ## Spans -/

theorem since_eq {a b : Instant} (ha : a.isLeap = false) (hb : b.isLeap = false) :
    a.since b = (a.second - b.second) * nanosPerSecond + (a.nano - b.nano) := by
  simp [since, ha, hb]

theorem isLeap_of_whole {t : Instant} (h : t.nano = 0) : t.isLeap = false := by
  simp [isLeap, h]

theorem nano_lt_of_not_leap {t : Instant} (h : t.isLeap = false) : t.nano < 1000000000 := by
  simpa [isLeap] using h

theorem since_le_since {a b c : Instant} (ha : a.isLeap = false) (hb : b.isLeap = false)
    (hc : c.isLeap = false) (h : a ≤ b) : a.since c ≤ b.since c := by
  have ha' := nano_lt_of_not_leap ha
  have hb' := nano_lt_of_not_leap hb
  rw [since_eq ha hc, since_eq hb hc]
  rw [le_def] at h
  simp only [nanosPerSecond]
  omega

theorem since_add_since {a b c : Instant} (ha : a.isLeap = false) (hb : b.isLeap = false)
    (hc : c.isLeap = false) : a.since b + b.since c = a.since c := by
  rw [since_eq ha hb, since_eq hb hc, since_eq ha hc]
  simp only [nanosPerSecond]
  omega

theorem lt_of_since_pos {a b : Instant} (ha : a.isLeap = false) (hb : b.isLeap = false)
    (h : 0 < a.since b) : b < a := by
  have ha' := nano_lt_of_not_leap ha
  have hb' := nano_lt_of_not_leap hb
  rw [since_eq ha hb] at h
  rw [lt_def]
  simp only [nanosPerSecond] at h
  omega

theorem isLeap_add? {t u : Instant} {span : Int} (ht : t.isLeap = false)
    (h : t.add? span = some u) : u.isLeap = false := by
  rw [add?, if_neg (by rw [ht]; decide)] at h
  have := (ofOffset?_eq_some h).2
  simp only [isLeap, decide_eq_false_iff_not]
  omega

/-! ## One line -/

/-- Nanoseconds from 1970-01-01, for instants outside of leap seconds. -/
def nanos (t : Instant) : Int := t.second * nanosPerSecond + t.nano

theorem since_eq_sub {a b : Instant} (ha : a.isLeap = false) (hb : b.isLeap = false) :
    a.since b = a.nanos - b.nanos := by
  rw [since_eq ha hb]
  simp only [nanos, nanosPerSecond]
  omega

theorem le_iff_nanos_le {a b : Instant} (ha : a.isLeap = false) (hb : b.isLeap = false) :
    a ≤ b ↔ a.nanos ≤ b.nanos := by
  have ha' := nano_lt_of_not_leap ha
  have hb' := nano_lt_of_not_leap hb
  rw [le_def]
  simp only [nanos, nanosPerSecond]
  omega

theorem lt_iff_nanos_lt {a b : Instant} (ha : a.isLeap = false) (hb : b.isLeap = false) :
    a < b ↔ a.nanos < b.nanos := by
  rw [← not_le, le_iff_nanos_le hb ha]
  omega

theorem add?_eq_some_iff {t u : Instant} {span : Int} (ht : t.isLeap = false) :
    t.add? span = some u ↔ u.isLeap = false ∧ u.nanos = t.nanos + span := by
  constructor
  · intro h
    have hleap := isLeap_add? ht h
    rw [add?, if_neg (by rw [ht]; decide)] at h
    have hu := ofOffset?_eq_some h
    refine ⟨hleap, ?_⟩
    simp only [nanos, nanosPerSecond]
    omega
  · rintro ⟨hu, heq⟩
    have hu' := nano_lt_of_not_leap hu
    simp only [nanos, nanosPerSecond] at heq
    have hsecond : t.second + (t.nano + span) / nanosPerSecond = u.second := by
      simp only [nanosPerSecond]
      omega
    have hnano : ((t.nano + span) % nanosPerSecond).toNat = u.nano := by
      simp only [nanosPerSecond]
      omega
    rw [add?, if_neg (by rw [ht]; decide), ofOffset?, hsecond, hnano, ofParts?_self]

theorem exists_nanos_eq {a b : Instant} {n : Int} (ha : a.isLeap = false) (hb : b.isLeap = false)
    (hlow : a.nanos ≤ n) (hhigh : n ≤ b.nanos) : ∃ t : Instant, t.isLeap = false ∧ t.nanos = n := by
  have ha' := nano_lt_of_not_leap ha
  have hb' := nano_lt_of_not_leap hb
  have hmin := a.second_mem
  have hmax := b.second_mem
  simp only [nanos, nanosPerSecond] at hlow hhigh
  refine ⟨⟨n / 1000000000, (n % 1000000000).toNat, by omega, by omega⟩, ?_, ?_⟩
  · simp only [isLeap, decide_eq_false_iff_not]
    omega
  · simp only [nanos, nanosPerSecond]
    omega

end ProbeAgent.Instant
