import ProbeAgent.Time.Date

/-!
# Civil date-times with nanoseconds

An `Instant` is a second of the civil calendar, counted from 1970-01-01T00:00:00, with a fraction in
nanoseconds.  A leap second has no number of its own: it lengthens second 59 of a minute, so there
the fraction may reach 2 000 000 000.  Date-times with such a fraction on another second than 59 are
left out.  Spans of time are integers in nanoseconds.

`Instant.add?` and `Instant.since` treat a leap second as a second that passes; adding is undefined
outside of the years that have dates.
-/

namespace ProbeAgent

def nanosPerSecond : Int := 1000000000

def nanosPerMilli : Int := 1000000

/-- The first second of the first year that has dates. -/
def minSecond : Int := -96465292 * 86400

def maxSecond : Int := 95026236 * 86400 + 86399

structure Instant where
  -- Seconds since 1970-01-01T00:00:00, leap seconds not counted.
  second : Int
  -- Nanoseconds into the second.
  nano : Nat
  second_mem : minSecond ≤ second ∧ second ≤ maxSecond
  nano_lt : nano < 1000000000 ∨ nano < 2000000000 ∧ second % 60 = 59
  deriving DecidableEq

namespace Instant

/-! ## Order -/

/-- Instants are ordered as they pass: a leap second comes before the second that follows. -/
protected def le (a b : Instant) : Prop :=
  a.second < b.second ∨ a.second = b.second ∧ a.nano ≤ b.nano

protected def lt (a b : Instant) : Prop :=
  a.second < b.second ∨ a.second = b.second ∧ a.nano < b.nano

instance : LE Instant := ⟨Instant.le⟩

instance : LT Instant := ⟨Instant.lt⟩

theorem le_def (a b : Instant) :
    a ≤ b ↔ a.second < b.second ∨ a.second = b.second ∧ a.nano ≤ b.nano := Iff.rfl

theorem lt_def (a b : Instant) :
    a < b ↔ a.second < b.second ∨ a.second = b.second ∧ a.nano < b.nano := Iff.rfl

instance (a b : Instant) : Decidable (a ≤ b) :=
  decidable_of_iff _ (le_def a b).symm

instance (a b : Instant) : Decidable (a < b) :=
  decidable_of_iff _ (lt_def a b).symm

def isLeap (t : Instant) : Bool :=
  1000000000 ≤ t.nano

/-! ## Building -/

def ofParts? (second : Int) (nano : Nat) : Option Instant :=
  if h : (minSecond ≤ second ∧ second ≤ maxSecond) ∧
      (nano < 1000000000 ∨ nano < 2000000000 ∧ second % 60 = 59) then
    some ⟨second, nano, h.1, h.2⟩
  else none

/-- The instant on `date` at a time of day; second 59 may carry a leap second in `nano`. -/
def ofDateTime? (date : Date) (hour minute second nano : Nat) : Option Instant :=
  if hour < 24 ∧ minute < 60 ∧ second < 60 then
    ofParts? (date.number * 86400 + (hour * 3600 + minute * 60 + second : Nat)) nano
  else none

def epoch : Instant := ⟨0, 0, by decide, by decide⟩

/-! ## Fields -/

/-- Days from 1970-01-01. -/
def dayNumber (t : Instant) : Int := t.second / 86400

/-- Seconds into the day, leap seconds not counted. -/
def secondOfDay (t : Instant) : Nat := (t.second % 86400).toNat

def hour (t : Instant) : Nat := t.secondOfDay / 3600

def minute (t : Instant) : Nat := t.secondOfDay / 60 % 60

def secondOfMinute (t : Instant) : Nat := t.secondOfDay % 60

def year (t : Instant) : Int := Date.yearOfNumber t.dayNumber

/-! ## Arithmetic -/

def ofOffset? (second nanos : Int) : Option Instant :=
  ofParts? (second + nanos / nanosPerSecond) (nanos % nanosPerSecond).toNat

/-- The instant a span of nanoseconds later (earlier if negative); `none` outside of the years that
have dates. -/
def add? (t : Instant) (span : Int) : Option Instant :=
  if t.isLeap then
    -- A span that stays in the leap second, or in the second before it, moves the fraction alone;
    -- any other span first leaves the leap second.
    if 2 * nanosPerSecond ≤ t.nano + span then
      ofOffset? t.second (t.nano - nanosPerSecond + span)
    else if span ≤ -nanosPerSecond then
      ofOffset? (t.second + 1) (t.nano - nanosPerSecond + span)
    else
      ofParts? t.second (t.nano + span).toNat
  else
    ofOffset? t.second (t.nano + span)

/-- The span from `b` to `a` in nanoseconds. -/
def since (a b : Instant) : Int :=
  -- A leap second of the one with the smaller time of day counts as passed.
  let leap : Int :=
    if b.secondOfDay < a.secondOfDay ∧ b.isLeap then 1
    else if a.secondOfDay < b.secondOfDay ∧ a.isLeap then -1
    else 0
  (a.second - b.second + leap) * nanosPerSecond + (a.nano - b.nano)

def truncate (t : Instant) : Instant :=
  ⟨t.second, 0, t.second_mem, .inl (by decide)⟩

/-- The first whole second at or after `t`; `none` in the last second of the last year. -/
def ceil? (t : Instant) : Option Instant :=
  if t.nano = 0 then some t else t.truncate.add? nanosPerSecond

/-! ## Lemmas -/

@[simp] theorem truncate_second (t : Instant) : t.truncate.second = t.second := rfl

@[simp] theorem truncate_nano (t : Instant) : t.truncate.nano = 0 := rfl

theorem ofParts?_eq_some {second : Int} {nano : Nat} {t : Instant}
    (h : ofParts? second nano = some t) : t.second = second ∧ t.nano = nano := by
  unfold ofParts? at h
  split at h
  · cases h; exact ⟨rfl, rfl⟩
  · contradiction

@[simp] theorem ofParts?_self (t : Instant) : ofParts? t.second t.nano = some t := by
  simp [ofParts?, t.second_mem, t.nano_lt]

theorem ofOffset?_eq_some {second nanos : Int} {t : Instant} (h : ofOffset? second nanos = some t) :
    t.second = second + nanos / 1000000000 ∧ (t.nano : Int) = nanos % 1000000000 := by
  obtain ⟨hs, hn⟩ := ofParts?_eq_some h
  simp only [nanosPerSecond] at hs hn
  omega

theorem lt_of_add? {t u : Instant} {span : Int} (h : t.add? span = some u) (pos : 0 < span) :
    t < u := by
  rw [lt_def]
  unfold add? at h
  by_cases hleap : t.isLeap
  · rw [if_pos hleap] at h
    simp only [isLeap, decide_eq_true_eq] at hleap
    by_cases hpast : 2 * nanosPerSecond ≤ t.nano + span
    · rw [if_pos hpast] at h
      have := ofOffset?_eq_some h
      simp only [nanosPerSecond] at *
      omega
    · rw [if_neg hpast] at h
      by_cases hback : span ≤ -nanosPerSecond
      · simp only [nanosPerSecond] at hback
        omega
      · rw [if_neg hback] at h
        have := ofParts?_eq_some h
        omega
  · rw [if_neg hleap] at h
    have := ofOffset?_eq_some h
    omega

/-- Instants a given span apart are at most so many seconds apart, up to leap seconds. -/
theorem second_le_of_since_le {a b : Instant} (h : a.since b ≤ nanosPerSecond) :
    a.second ≤ b.second + 3 := by
  have ha := a.nano_lt
  have hb := b.nano_lt
  simp only [since, nanosPerSecond] at h
  split at h
  · omega
  · split at h <;> omega

theorem le_refl (t : Instant) : t ≤ t := .inr ⟨rfl, Nat.le_refl _⟩

theorem le_trans {a b c : Instant} (hab : a ≤ b) (hbc : b ≤ c) : a ≤ c := by
  rw [le_def] at *
  omega

theorem le_total (a b : Instant) : a ≤ b ∨ b ≤ a := by
  rw [le_def, le_def]
  omega

theorem not_le {a b : Instant} : ¬ a ≤ b ↔ b < a := by
  rw [le_def, lt_def]
  omega

theorem lt_irrefl (t : Instant) : ¬ t < t := by
  rw [lt_def]
  omega

theorem le_antisymm {a b : Instant} (hab : a ≤ b) (hba : b ≤ a) : a = b := by
  rw [le_def] at *
  cases a
  cases b
  simp only [mk.injEq]
  simp only at hab hba
  omega

end Instant

end ProbeAgent
