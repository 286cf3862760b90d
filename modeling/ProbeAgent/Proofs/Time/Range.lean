import ProbeAgent.Proofs.Time.Instant

/-!
# The end of the range of instants, and leap seconds

Rounding up and adding fail only where no instant is left.  Spans that go forward from an instant
add up, also from within a leap second, so that the instants which one step after the other reaches
are those that their sum reaches, and once one of them is missing, so are all that come after it.
The time between two instants leaves out a leap second of the earlier one unless the other has a later
time of day, and a leap second of the later one if that has the earlier time of day.
-/

namespace ProbeAgent.Instant

/-! ## Whole seconds -/

/-- A fraction of the last second of all: no whole second is left after it. -/
def InLastFraction (t : Instant) : Prop := t.second = maxSecond ∧ t.nano ≠ 0

instance (t : Instant) : Decidable t.InLastFraction :=
  inferInstanceAs (Decidable (_ ∧ _))

theorem ofParts?_whole_eq_none_iff {second : Int} (h : minSecond ≤ second) :
    ofParts? second 0 = none ↔ maxSecond < second := by
  by_cases hlate : maxSecond < second
  · rw [ofParts?, dif_neg (by omega)]
    simp [hlate]
  · rw [ofParts?_whole (by omega)]
    simp [hlate]

theorem ceil?_eq_none_iff {t : Instant} : t.ceil? = none ↔ t.InLastFraction := by
  have hmem := t.second_mem
  unfold InLastFraction ceil?
  by_cases hnano : t.nano = 0
  · simp [hnano]
  · have hadd := truncate_add? t 1
    rw [Int.one_mul] at hadd
    rw [if_neg hnano, hadd, ofParts?_whole_eq_none_iff (by omega)]
    omega

theorem not_le_of_inLastFraction {t u : Instant} (h : t.InLastFraction) (hu : u.nano = 0) :
    ¬ t ≤ u := by
  have hmem := u.second_mem
  obtain ⟨hsecond, hnano⟩ := h
  rw [le_def]
  omega

-- Also in a leap second, its fraction takes less than two seconds.
theorem second_le_of_whole {t w : Instant} (ht : t.nano = 0)
    (h : t.since w ≤ nanosPerSecond) : t.second ≤ w.second + 2 := by
  have hw := w.nano_lt
  have hleap := isLeap_of_whole ht
  simp only [since, hleap, ht, nanosPerSecond] at h
  split at h
  · omega
  · simp at h
    omega

-- A leap second counts only if it is over, and then it has a second of its own.
theorem add_two_le_of_lt_since {t w : Instant} (ht : t.nano = 0)
    (h : nanosPerSecond < t.since w) : w.second + 2 ≤ t.second := by
  have hleap := isLeap_of_whole ht
  simp only [since, hleap, ht, nanosPerSecond] at h
  split at h
  · rename_i hw
    have hnano : 1000000000 ≤ w.nano := by simpa [isLeap] using hw.2
    omega
  · simp at h
    omega

/-! ## Going forward -/

/-- A span that goes forward.  From within a leap second, all that matters is that it does not lead
out of it backwards. -/
def Forward (t : Instant) (span : Int) : Prop :=
  if t.isLeap then nanosPerSecond ≤ t.nano + span else 0 ≤ span

variable {t u v : Instant} {a b : Int}

theorem nano_ge_of_leap (h : t.isLeap = true) : 1000000000 ≤ t.nano := by
  simpa [isLeap] using h

theorem nano_lt_two (t : Instant) : t.nano < 2000000000 := by
  have := t.nano_lt
  omega

theorem Forward.mono (h : t.Forward a) (hab : a ≤ b) : t.Forward b := by
  unfold Forward at *
  by_cases hleap : t.isLeap
  · rw [if_pos hleap] at *
    omega
  · rw [if_neg hleap] at *
    omega

theorem forward_zero (t : Instant) : t.Forward 0 := by
  unfold Forward
  split
  · rename_i hleap
    have := nano_ge_of_leap hleap
    simp only [nanosPerSecond]
    omega
  · exact Int.le_refl 0

/-- The span leads to an instant of the same leap second. -/
def StaysInLeap (t : Instant) (span : Int) : Prop :=
  t.isLeap = true ∧ t.nano + span < 2 * nanosPerSecond

/-- Nanoseconds from 1970-01-01, for counting on after a leap second. -/
def endNanos (t : Instant) : Int := if t.isLeap then t.nanos - nanosPerSecond else t.nanos

theorem endNanos_of_not_leap (h : t.isLeap = false) : t.endNanos = t.nanos := by
  unfold endNanos
  rw [h]
  rfl

theorem nanos_truncate_le (h : t.Forward a) : t.truncate.nanos ≤ t.endNanos + a := by
  unfold Forward at h
  unfold endNanos
  simp only [nanos, truncate_second, truncate_nano]
  by_cases hleap : t.isLeap
  · rw [if_pos hleap] at *
    omega
  · rw [if_neg hleap] at *
    omega

theorem ofOffset?_eq_some_iff {second nanos : Int} :
    ofOffset? second nanos = some u ↔
      u.isLeap = false ∧ u.nanos = second * nanosPerSecond + nanos := by
  constructor
  · intro h
    have hu := ofOffset?_eq_some h
    refine ⟨?_, ?_⟩
    · simp only [isLeap, decide_eq_false_iff_not]
      omega
    · simp only [Instant.nanos, nanosPerSecond]
      omega
  · rintro ⟨hleap, heq⟩
    have hnano := nano_lt_of_not_leap hleap
    simp only [Instant.nanos, nanosPerSecond] at heq
    have hsecond : second + nanos / nanosPerSecond = u.second := by
      simp only [nanosPerSecond]
      omega
    have hfraction : (nanos % nanosPerSecond).toNat = u.nano := by
      simp only [nanosPerSecond]
      omega
    rw [ofOffset?, hsecond, hfraction, ofParts?_self]

theorem add?_of_staysInLeap (h : t.Forward a) (hstays : t.StaysInLeap a) :
    t.add? a = some u ↔ u.second = t.second ∧ (u.nano : Int) = t.nano + a := by
  obtain ⟨hleap, hlt⟩ := hstays
  have hnano := nano_lt_two t
  unfold Forward at h
  rw [if_pos hleap] at h
  have hadd : t.add? a = ofParts? t.second (t.nano + a).toNat := by
    unfold add?
    rw [if_pos hleap, if_neg (by omega), if_neg (by simp only [nanosPerSecond] at *; omega)]
  rw [hadd]
  simp only [nanosPerSecond] at h hlt
  constructor
  · intro hu
    have := ofParts?_eq_some hu
    omega
  · rintro ⟨hsecond, hfraction⟩
    rw [← hsecond, ← hfraction, Int.toNat_natCast, ofParts?_self]

theorem add?_of_not_staysInLeap (h : ¬ t.StaysInLeap a) :
    t.add? a = some u ↔ u.isLeap = false ∧ u.nanos = t.endNanos + a := by
  unfold StaysInLeap at h
  unfold endNanos
  by_cases hleap : t.isLeap
  · have hpast : 2 * nanosPerSecond ≤ t.nano + a := by
      by_contra hnot
      exact h ⟨hleap, by omega⟩
    have hnanos : t.second * nanosPerSecond + (t.nano - nanosPerSecond + a) =
        t.nanos - nanosPerSecond + a := by
      simp only [nanos]
      omega
    unfold add?
    rw [if_pos hleap, if_pos hpast, if_pos hleap, ofOffset?_eq_some_iff, hnanos]
  · rw [if_neg hleap]
    exact add?_eq_some_iff (by simpa using hleap)

theorem isLeap_of_staysInLeap (h : t.Forward a) (hstays : t.StaysInLeap a)
    (hu : t.add? a = some u) : u.isLeap = true := by
  have hnano := ((add?_of_staysInLeap h hstays).1 hu).2
  unfold Forward at h
  rw [if_pos hstays.1] at h
  simp only [isLeap, decide_eq_true_eq, nanosPerSecond] at *
  omega

theorem endNanos_of_add? (h : t.Forward a) (hu : t.add? a = some u) :
    u.endNanos = t.endNanos + a := by
  by_cases hstays : t.StaysInLeap a
  · obtain ⟨hsecond, hnano⟩ := (add?_of_staysInLeap h hstays).1 hu
    unfold endNanos
    rw [if_pos (isLeap_of_staysInLeap h hstays hu), if_pos hstays.1]
    simp only [nanos, hsecond, hnano]
    omega
  · obtain ⟨hleap, hnanos⟩ := (add?_of_not_staysInLeap hstays).1 hu
    rw [endNanos_of_not_leap hleap, hnanos]

/-- Nothing is missing before an instant that is reached. -/
theorem exists_add?_of_le (h : t.Forward a) (hab : a ≤ b) (hv : t.add? b = some v) :
    ∃ u, t.add? a = some u := by
  by_cases hstays : t.StaysInLeap a
  · -- A leap second is there as a whole.
    have hleap := nano_ge_of_leap hstays.1
    have hminute : t.second % 60 = 59 := by
      have := t.nano_lt
      omega
    have hlow := h
    unfold Forward at hlow
    rw [if_pos hstays.1] at hlow
    have hhigh := hstays.2
    simp only [nanosPerSecond] at hlow hhigh
    refine ⟨⟨t.second, (t.nano + a).toNat, t.second_mem, .inr (by omega)⟩, ?_⟩
    rw [add?_of_staysInLeap h hstays]
    exact ⟨rfl, by simp only; omega⟩
  · have hstays' : ¬ t.StaysInLeap b := fun hb => hstays ⟨hb.1, by have := hb.2; omega⟩
    obtain ⟨hleap, hnanos⟩ := (add?_of_not_staysInLeap hstays').1 hv
    have hlow := nanos_truncate_le h
    obtain ⟨u, hu⟩ := exists_nanos_eq (n := t.endNanos + a) (isLeap_of_whole t.truncate_nano) hleap
      hlow (by omega)
    exact ⟨u, (add?_of_not_staysInLeap hstays).2 hu⟩

/-- Going forward twice. -/
theorem add?_add (h : t.Forward a) (hb : 0 ≤ b) (hu : t.add? a = some u) :
    u.add? b = t.add? (a + b) := by
  have hforward : t.Forward (a + b) := h.mono (by omega)
  have hforward' : u.Forward b := (forward_zero u).mono hb
  by_cases hstays : t.StaysInLeap a
  · obtain ⟨hsecond, hnano⟩ := (add?_of_staysInLeap h hstays).1 hu
    have hleap := isLeap_of_staysInLeap h hstays hu
    have hiff : u.StaysInLeap b ↔ t.StaysInLeap (a + b) := by
      unfold StaysInLeap
      simp only [hleap, hstays.1, true_and, hnano, Int.add_assoc]
    by_cases hstays' : u.StaysInLeap b
    · apply Option.ext
      intro v
      rw [add?_of_staysInLeap hforward' hstays', add?_of_staysInLeap hforward (hiff.1 hstays')]
      omega
    · apply Option.ext
      intro v
      rw [add?_of_not_staysInLeap hstays', add?_of_not_staysInLeap (mt hiff.2 hstays')]
      rw [endNanos_of_add? h hu, Int.add_assoc]
  · obtain ⟨hleap, hnanos⟩ := (add?_of_not_staysInLeap hstays).1 hu
    have hstays' : ¬ t.StaysInLeap (a + b) := fun hb' => hstays ⟨hb'.1, by have := hb'.2; omega⟩
    apply Option.ext
    intro v
    rw [add?_eq_some_iff hleap, add?_of_not_staysInLeap hstays', hnanos, Int.add_assoc]

theorem le_of_add?_le (h : t.Forward a) (hab : a ≤ b) (hu : t.add? a = some u)
    (hv : t.add? b = some v) : u ≤ v := by
  by_cases hlt : a < b
  · have hadd := add?_add h (show 0 ≤ b - a by omega) hu
    rw [show a + (b - a) = b by omega, hv] at hadd
    exact le_of_lt (lt_of_add? hadd (by omega))
  · rw [show b = a by omega, hu] at hv
    cases hv
    exact le_refl u

theorem add?_zero (t : Instant) : t.add? 0 = some t := by
  by_cases hstays : t.StaysInLeap 0
  · exact (add?_of_staysInLeap t.forward_zero hstays).2 ⟨rfl, by omega⟩
  · have hnano := nano_lt_two t
    have hleap : t.isLeap = false := by
      by_contra hleap
      exact hstays ⟨by simpa using hleap, by simp only [nanosPerSecond]; omega⟩
    exact (add?_eq_some_iff hleap).2 ⟨hleap, by omega⟩

/-! ## The time between instants -/

theorem secondOfDay_of_second_eq (h : u.second = t.second) : u.secondOfDay = t.secondOfDay := by
  unfold secondOfDay
  rw [h]

/-- The time that has passed since an instant goes forward from it. -/
theorem forward_since (h : t < u) : t.Forward (u.since t) := by
  have ht := nano_lt_two t
  rw [lt_def] at h
  -- A time of day that is smaller, or greater, is one of another second.
  have hother : u.secondOfDay ≠ t.secondOfDay → u.second ≠ t.second := mt secondOfDay_of_second_eq
  unfold Forward since
  cases hleap : t.isLeap with
  | true =>
    have hge := nano_ge_of_leap hleap
    simp only [↓reduceIte, and_true, nanosPerSecond]
    split
    · omega
    · split
      · rename_i hback
        have hsecond := hother (by omega)
        have hu := nano_ge_of_leap hback.2
        omega
      · omega
  | false =>
    have hlt := nano_lt_of_not_leap hleap
    simp only [↓reduceIte, and_false, Bool.false_eq_true, nanosPerSecond]
    split
    · rename_i hback
      have hsecond := hother (by omega)
      have hu := nano_ge_of_leap hback.2
      omega
    · omega

theorem since_of_second_eq (h : u.second = t.second) : u.since t = u.nano - t.nano := by
  simp only [since, secondOfDay_of_second_eq h, h, Nat.lt_irrefl, false_and, ↓reduceIte]
  omega

/-- The time from `t` to `u` if it leaves out no leap second. -/
theorem since_eq_sub_endNanos (ht : t.isLeap = true → t.secondOfDay < u.secondOfDay)
    (hu : u.isLeap = true → t.secondOfDay ≤ u.secondOfDay) : u.since t = u.nanos - t.endNanos := by
  have hback : ¬(u.secondOfDay < t.secondOfDay ∧ u.isLeap = true) := fun h =>
    Nat.not_le.2 h.1 (hu h.2)
  unfold since endNanos
  rw [if_neg hback]
  simp only [nanos, nanosPerSecond]
  cases hleap : t.isLeap with
  | false =>
    rw [if_neg (by simp), if_neg (by decide)]
    omega
  | true =>
    rw [if_pos ⟨ht hleap, rfl⟩, if_pos rfl]
    omega

theorem second_lt_of_not_staysInLeap (hleap : t.isLeap = true) (hstays : ¬ t.StaysInLeap a)
    (hu : t.add? a = some u) : t.second < u.second := by
  obtain ⟨huleap, hnanos⟩ := (add?_of_not_staysInLeap hstays).1 hu
  have hnano := nano_lt_of_not_leap huleap
  have hpast : 2 * nanosPerSecond ≤ t.nano + a := Int.not_lt.1 fun h => hstays ⟨hleap, h⟩
  unfold endNanos at hnanos
  rw [if_pos hleap] at hnanos
  simp only [nanos, nanosPerSecond] at hnanos hpast
  omega

/-- All of a span has passed when it is over.  From within a leap second this needs a later time of
day: otherwise that second does not count. -/
theorem since_of_add? (ha : 0 ≤ a) (hu : t.add? a = some u)
    (hday : t.isLeap = true → u.second = t.second ∨ t.secondOfDay < u.secondOfDay) :
    u.since t = a := by
  by_cases hstays : t.StaysInLeap a
  · obtain ⟨hsecond, hnano⟩ := (add?_of_staysInLeap ((forward_zero t).mono ha) hstays).1 hu
    rw [since_of_second_eq hsecond]
    omega
  · obtain ⟨hleap, hnanos⟩ := (add?_of_not_staysInLeap hstays).1 hu
    have hlater (ht : t.isLeap = true) : t.secondOfDay < u.secondOfDay :=
      (hday ht).resolve_left (Int.ne_of_gt (second_lt_of_not_staysInLeap ht hstays hu))
    rw [since_eq_sub_endNanos hlater fun h => absurd h (by rw [hleap]; decide)]
    omega

-- The time of day goes back only to that of an earlier minute, on a later day.
theorem nanosPerSecond_le_since (hlt : t < u) (ht : t.isLeap = false) (hu : u.isLeap = true)
    (hback : u.secondOfDay < t.secondOfDay) :
    nanosPerSecond ≤ u.since t ∧ nanosPerSecond ≤ u.nanos - t.nanos := by
  have hnano := nano_lt_of_not_leap ht
  have hunano := nano_ge_of_leap hu
  have hminute := u.nano_lt
  have hforward : ¬(t.secondOfDay < u.secondOfDay ∧ t.isLeap = true) := by
    rw [ht]
    simp
  rw [lt_def] at hlt
  unfold secondOfDay at hback
  unfold since
  rw [if_neg hforward, if_pos ⟨hback, hu⟩]
  simp only [nanos, nanosPerSecond]
  omega

/-- No time passes backwards, where leap seconds count. -/
theorem since_nonneg (hlt : t < u)
    (ht : t.isLeap = true → u.second = t.second ∨ t.secondOfDay < u.secondOfDay)
    (hu : u.isLeap = true → t.secondOfDay ≤ u.secondOfDay) : 0 ≤ u.since t := by
  have hnano := nano_lt_two t
  rw [lt_def] at hlt
  by_cases hsecond : u.second = t.second
  · rw [since_of_second_eq hsecond]
    omega
  · rw [since_eq_sub_endNanos (fun h => (ht h).resolve_left hsecond) hu]
    unfold endNanos
    simp only [nanos, nanosPerSecond]
    cases hleap : t.isLeap with
    | false =>
      have := nano_lt_of_not_leap hleap
      rw [if_neg (by decide)]
      omega
    | true =>
      rw [if_pos rfl]
      omega

/-- A span before the end of the time from `t` to `v` leaves as much of it as the span does not take,
as far as that is less than a second. -/
theorem since_lt_iff_of_add? {bound : Int} (hbound : bound ≤ nanosPerSecond) (ha : 0 ≤ a)
    (hadd : t.add? a = some u) (hlt : u < v)
    (ht : t.isLeap = true → v.second = t.second ∨ t.secondOfDay < v.secondOfDay)
    (hv : v.isLeap = true → t.secondOfDay ≤ v.secondOfDay) :
    v.since u < bound ↔ v.since t - a < bound := by
  have hforward : t.Forward a := (forward_zero t).mono ha
  by_cases hstays : t.StaysInLeap a
  · obtain ⟨hsecond, hnano⟩ := (add?_of_staysInLeap hforward hstays).1 hadd
    have hday := secondOfDay_of_second_eq hsecond
    rcases ht hstays.1 with hsame | hlater
    · rw [since_of_second_eq hsame, since_of_second_eq (hsame.trans hsecond.symm), hnano]
      omega
    · rw [since_eq_sub_endNanos (fun _ => hlater) hv,
        since_eq_sub_endNanos (fun _ => hday ▸ hlater) (hday ▸ hv), endNanos_of_add? hforward hadd]
      omega
  · obtain ⟨hleap, hnanos⟩ := (add?_of_not_staysInLeap hstays).1 hadd
    have hlater (htleap : t.isLeap = true) : t.secondOfDay < v.secondOfDay := by
      refine (ht htleap).resolve_left fun hsecond => ?_
      have hleft := second_lt_of_not_staysInLeap htleap hstays hadd
      rw [lt_def] at hlt
      omega
    rw [since_eq_sub_endNanos hlater hv]
    by_cases hback : v.isLeap = true ∧ v.secondOfDay < u.secondOfDay
    · obtain ⟨hfar, hfar'⟩ := nanosPerSecond_le_since hlt hleap hback.1 hback.2
      omega
    · rw [since_eq_sub_endNanos (fun h => absurd h (by rw [hleap]; decide))
        fun h => Nat.not_lt.1 fun hlt => hback ⟨h, hlt⟩, endNanos_of_not_leap hleap]
      omega

end ProbeAgent.Instant
