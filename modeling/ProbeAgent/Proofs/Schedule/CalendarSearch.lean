import ProbeAgent.Schedule.Calendar
import ProbeAgent.Proofs.Time.Instant

/-!
# The search through a calendar finds the first match

Each loop of the search goes through an ascending list and stops at the first success.  What it
finds is the least value of all (`isFirst_findSome?`) as soon as each step finds the least value of
its own and no later step has a lesser one.  This is used for seconds, minutes and hours
(`findTime_isFirst`) and for days, months and years (`earliestFrom_isFirst`).
-/

namespace ProbeAgent

/-! ## First values -/

/-- What was found is the least value with a property; if nothing was found, no value has it. -/
def IsFirst {β : Type} [LE β] (P : β → Prop) : Option β → Prop
  | some b => IsLeast {x | P x} b
  | none => ∀ x, ¬ P x

section

variable {α β : Type} [LE β] {P Q : β → Prop}

theorem IsFirst.congr {found : Option β} (h : IsFirst P found) (hPQ : ∀ x, P x ↔ Q x) :
    IsFirst Q found := by
  obtain rfl : P = Q := funext fun x => propext (hPQ x)
  exact h

theorem IsFirst.eq_some_iff {found : Option β} (h : IsFirst P found)
    (antisymm : ∀ a b : β, a ≤ b → b ≤ a → a = b) (b : β) :
    found = some b ↔ IsLeast {x | P x} b := by
  constructor
  · rintro rfl
    exact h
  · intro hb
    cases found with
    | none => exact absurd hb.1 (h b)
    | some a => rw [antisymm a b (h.2 hb.1) (hb.2 h.1)]

theorem IsFirst.eq_none_iff {found : Option β} (h : IsFirst P found) :
    found = none ↔ ∀ x, ¬ P x := by
  constructor
  · rintro rfl
    exact h
  · intro hnone
    cases found with
    | none => rfl
    | some a => exact absurd h.1 (hnone a)

-- The members of the list need not be values: each has a least value of its own, or none.
theorem isFirst_findSome? {l : List α} {f : α → Option β} {R : α → β → Prop}
    (hf : ∀ a ∈ l, IsFirst (R a) (f a))
    (hord : l.Pairwise fun a b => ∀ x y, R a x → R b y → x ≤ y) :
    IsFirst (fun x => ∃ a ∈ l, R a x) (l.findSome? f) := by
  induction l with
  | nil => simp [IsFirst]
  | cons a l ih =>
    obtain ⟨hhead, htail⟩ := List.pairwise_cons.1 hord
    have hfirst := hf a List.mem_cons_self
    rw [List.findSome?_cons]
    cases hfa : f a with
    | some b =>
      -- The search stops here, and the values of later members are not less.
      rw [hfa] at hfirst
      refine ⟨⟨a, List.mem_cons_self, hfirst.1⟩, ?_⟩
      rintro x ⟨a', ha', hx⟩
      rcases List.mem_cons.1 ha' with rfl | hmem
      · exact hfirst.2 hx
      · exact hhead a' hmem b x hfirst.1 hx
    | none =>
      -- No value belongs to the head, so those of the tail are all there are.
      rw [hfa] at hfirst
      refine (ih (fun b hb => hf b (List.mem_cons_of_mem a hb)) htail).congr fun x => ?_
      constructor
      · rintro ⟨b, hb, hx⟩
        exact ⟨b, List.mem_cons_of_mem a hb, hx⟩
      · rintro ⟨b, hb, hx⟩
        rcases List.mem_cons.1 hb with rfl | hmem
        · exact absurd hx (hfirst x)
        · exact ⟨b, hmem, hx⟩

-- A search may skip the numbers to which no value belongs.
theorem isFirst_findSome?_unless {low high : Nat} (set : ValueSet low high) {p : Nat → Prop}
    [DecidablePred p] {f : Nat → Option β} {R : Nat → β → Prop}
    (hskip : ∀ n, p n → ∀ x, ¬ R n x) (hf : ∀ n ∈ set, ¬ p n → IsFirst (R n) (f n))
    (hord : ∀ m n, m < n → ∀ x y, R m x → R n y → x ≤ y) :
    IsFirst (fun x => ∃ n ∈ set, R n x)
      (set.values.findSome? fun n => if p n then none else f n) := by
  apply isFirst_findSome?
  · intro n hn
    by_cases h : p n
    · rw [if_pos h]
      exact hskip n h
    · rw [if_neg h]
      exact hf n hn h
  · exact set.ascending.imp fun {m n} hlt => hord m n hlt

end

/-! ## Times of day -/

namespace ClockTime

/-- Times of day are ordered by hour, then minute, then second. -/
protected def le (a b : ClockTime) : Prop :=
  a.hour < b.hour ∨ a.hour = b.hour ∧
    (a.minute < b.minute ∨ a.minute = b.minute ∧ a.second ≤ b.second)

instance : LE ClockTime := ⟨ClockTime.le⟩

theorem le_def (a b : ClockTime) :
    a ≤ b ↔ a.hour < b.hour ∨ a.hour = b.hour ∧
      (a.minute < b.minute ∨ a.minute = b.minute ∧ a.second ≤ b.second) := Iff.rfl

end ClockTime

-- Only whole seconds: a time of day does not show the nanoseconds.
theorem Instant.le_iff_clockTime_le {a b : Instant} (ha : a.nano = 0) (hb : b.nano = 0)
    (hday : a.dayNumber = b.dayNumber) : a ≤ b ↔ a.clockTime ≤ b.clockTime := by
  have h1 := a.second_eq
  have h2 := b.second_eq
  have h3 := a.secondOfDay_eq
  have h4 := b.secondOfDay_eq
  have h5 := a.minute_lt
  have h6 := b.minute_lt
  have h7 := a.secondOfMinute_lt
  have h8 := b.secondOfMinute_lt
  rw [Instant.le_iff_of_whole ha hb, ClockTime.le_def]
  simp only [Instant.clockTime]
  omega

namespace Calendar

/-- The sets of the calendar allow this time of day. -/
structure HasTime (c : Calendar) (time : ClockTime) : Prop where
  hour : time.hour ∈ c.hours
  minute : time.minute ∈ c.minutes
  second : time.second ∈ c.seconds

/-- The search with its carries from seconds to minutes and from minutes to hours finds the first
allowed time of day from a given one on. -/
theorem findTime_isFirst (c : Calendar) (time : ClockTime) :
    IsFirst (fun t => c.HasTime t ∧ time ≤ t) (c.findTime time) := by
  -- From the inside out, each loop under what the loops around it have not skipped.  The set `R` of
  -- a loop is the union over the loop inside of it, and a number is skipped when all times that
  -- begin with it are before `time`.
  have hsecond (hour minute : Nat) (hhour : ¬ hour < time.hour)
      (hminute : ¬ (hour = time.hour ∧ minute < time.minute)) :=
    isFirst_findSome?_unless c.seconds
      (p := fun second => hour = time.hour ∧ minute = time.minute ∧ second < time.second)
      (f := fun second => some ⟨hour, minute, second⟩)
      (R := fun second t => (t.hour = hour ∧ t.minute = minute ∧ t.second = second) ∧ time ≤ t)
      (by
        rintro second hskip t ⟨⟨h, m, s⟩, hle⟩
        rw [ClockTime.le_def] at hle
        omega)
      (by
        intro second _ hkeep
        refine ⟨⟨⟨rfl, rfl, rfl⟩, ?_⟩, ?_⟩
        · show time.hour < hour ∨ time.hour = hour ∧
            (time.minute < minute ∨ time.minute = minute ∧ time.second ≤ second)
          omega
        · rintro t ⟨⟨h, m, s⟩, -⟩
          exact .inr ⟨h.symm, .inr ⟨m.symm, s.ge⟩⟩)
      (by
        rintro second second' hlt t t' ⟨⟨h, m, s⟩, -⟩ ⟨⟨h', m', s'⟩, -⟩
        rw [ClockTime.le_def]
        omega)
  have hminute (hour : Nat) (hhour : ¬ hour < time.hour) :=
    isFirst_findSome?_unless c.minutes
      (p := fun minute => hour = time.hour ∧ minute < time.minute)
      (R := fun minute t => ∃ second ∈ c.seconds,
        (t.hour = hour ∧ t.minute = minute ∧ t.second = second) ∧ time ≤ t)
      (by
        rintro minute hskip t ⟨second, -, ⟨h, m, s⟩, hle⟩
        rw [ClockTime.le_def] at hle
        omega)
      (fun minute _ hkeep => hsecond hour minute hhour hkeep)
      (by
        rintro minute minute' hlt t t' ⟨second, -, ⟨h, m, s⟩, -⟩ ⟨second', -, ⟨h', m', s'⟩, -⟩
        rw [ClockTime.le_def]
        omega)
  have hhour :=
    isFirst_findSome?_unless c.hours
      (p := fun hour => hour < time.hour)
      (R := fun hour t => ∃ minute ∈ c.minutes, ∃ second ∈ c.seconds,
        (t.hour = hour ∧ t.minute = minute ∧ t.second = second) ∧ time ≤ t)
      (by
        rintro hour hskip t ⟨minute, -, second, -, ⟨h, m, s⟩, hle⟩
        rw [ClockTime.le_def] at hle
        omega)
      (fun hour _ hkeep => hminute hour hkeep)
      (by
        rintro hour hour' hlt t t' ⟨minute, -, second, -, ⟨h, m, s⟩, -⟩
          ⟨minute', -, second', -, ⟨h', m', s'⟩, -⟩
        rw [ClockTime.le_def]
        omega)
  refine hhour.congr fun t => ?_
  constructor
  · rintro ⟨hour, hh, minute, hm, second, hs, ⟨rfl, rfl, rfl⟩, hle⟩
    exact ⟨⟨hh, hm, hs⟩, hle⟩
  · rintro ⟨⟨hh, hm, hs⟩, hle⟩
    exact ⟨t.hour, hh, t.minute, hm, t.second, hs, ⟨rfl, rfl, rfl⟩, hle⟩

theorem le_of_head? {low high : Nat} (set : ValueSet low high) {first n : Nat}
    (hfirst : set.values.head? = some first) (hn : n ∈ set) : first ≤ n := by
  obtain ⟨rest, hrest⟩ := List.head?_eq_some_iff.1 hfirst
  have hasc := set.ascending
  rw [ValueSet.mem_def] at hn
  rw [hrest] at hn hasc
  rcases List.mem_cons.1 hn with rfl | hmem
  · exact Nat.le_refl _
  · exact Nat.le_of_lt (List.rel_of_pairwise_cons hasc hmem)

theorem firstTime_isFirst (c : Calendar) : IsFirst c.HasTime c.firstTime := by
  rw [firstTime]
  cases hh : c.hours.values.head? with
  | none =>
    intro t ht
    rw [List.head?_eq_none_iff] at hh
    exact absurd ht.hour (by simp [ValueSet.mem_def, hh])
  | some hour =>
  cases hm : c.minutes.values.head? with
  | none =>
    intro t ht
    rw [List.head?_eq_none_iff] at hm
    exact absurd ht.minute (by simp [ValueSet.mem_def, hm])
  | some minute =>
  cases hs : c.seconds.values.head? with
  | none =>
    intro t ht
    rw [List.head?_eq_none_iff] at hs
    exact absurd ht.second (by simp [ValueSet.mem_def, hs])
  | some second =>
    refine ⟨⟨List.mem_of_head? hh, List.mem_of_head? hm, List.mem_of_head? hs⟩, fun t ht => ?_⟩
    have h1 := le_of_head? c.hours hh ht.hour
    have h2 := le_of_head? c.minutes hm ht.minute
    have h3 := le_of_head? c.seconds hs ht.second
    show hour < t.hour ∨ hour = t.hour ∧ (minute < t.minute ∨ minute = t.minute ∧ second ≤ t.second)
    omega

/-! ## Days -/

/-- The instant is a whole second at which the sets of the calendar allow a run. -/
structure Matches (c : Calendar) (t : Instant) : Prop where
  whole : t.nano = 0
  date : ∃ date, Date.ofNumber? t.dayNumber = some date ∧
    date.month ∈ c.months ∧ date.day ∈ c.daysOfMonth ∧ date.weekday ∈ c.daysOfWeek
  hour : t.hour ∈ c.hours
  minute : t.minute ∈ c.minutes
  second : t.secondOfMinute ∈ c.seconds

theorem Matches.hasTime {c : Calendar} {t : Instant} (h : c.Matches t) : c.HasTime t.clockTime :=
  ⟨h.hour, h.minute, h.second⟩

/-- The first time of day on `date` that is not before `first`. -/
def timeOn? (c : Calendar) (first : Instant) (date : Date) : Option ClockTime :=
  if date.number = first.dayNumber then c.findTime first.clockTime else c.firstTime

theorem runOn?_eq (c : Calendar) (first : Instant) (date : Date) :
    c.runOn? first date =
      if date.number < first.dayNumber ∨ date.weekday ∉ c.daysOfWeek then none
      else (c.timeOn? first date).bind fun time =>
        Instant.ofDateTime? date time.hour time.minute time.second 0 := by
  rw [runOn?, timeOn?]
  split
  · rfl
  · split <;> rfl

theorem timeOn?_isFirst (c : Calendar) (first : Instant) (date : Date) :
    IsFirst (fun time => c.HasTime time ∧ (date.number = first.dayNumber → first.clockTime ≤ time))
      (c.timeOn? first date) := by
  rw [timeOn?]
  split
  · rename_i hsame
    exact (c.findTime_isFirst first.clockTime).congr fun time => by simp [hsame]
  · rename_i hother
    exact c.firstTime_isFirst.congr fun time => by simp [hother]

theorem runOn?_isFirst (c : Calendar) {first : Instant} (hfirst : first.nano = 0) {date : Date}
    (hmonth : date.month ∈ c.months) (hday : date.day ∈ c.daysOfMonth) :
    IsFirst (fun t => c.Matches t ∧ first ≤ t ∧ t.dayNumber = date.number)
      (c.runOn? first date) := by
  rw [runOn?_eq]
  split
  · -- The date is before the first day, or not on one of the weekdays.
    rename_i hskip
    rintro t ⟨hmatch, hle, heq⟩
    rcases hskip with hearly | hweekday
    · have := Instant.dayNumber_mono hle
      omega
    · obtain ⟨date', hdate', -, -, hweekday'⟩ := hmatch.date
      rw [heq, Date.ofNumber?_number] at hdate'
      cases hdate'
      exact hweekday hweekday'
  rename_i hkeep
  rw [not_or, not_not] at hkeep
  obtain ⟨hnotEarly, hweekday⟩ := hkeep
  -- Only on the first day does the time of day decide what is early.
  have hafter {t : Instant} (hwhole : t.nano = 0) (heq : t.dayNumber = date.number) :
      first ≤ t ↔ (date.number = first.dayNumber → first.clockTime ≤ t.clockTime) := by
    by_cases hsame : date.number = first.dayNumber
    · rw [Instant.le_iff_clockTime_le hfirst hwhole (by omega)]
      simp [hsame]
    · have := Instant.le_of_dayNumber_lt (show first.dayNumber < t.dayNumber by omega)
      simp [hsame, this]
  have htime := c.timeOn?_isFirst first date
  cases hfound : c.timeOn? first date with
  | none =>
    rw [hfound] at htime
    rintro t ⟨hmatch, hle, heq⟩
    exact htime t.clockTime ⟨hmatch.hasTime, (hafter hmatch.whole heq).1 hle⟩
  | some time =>
    rw [hfound] at htime
    obtain ⟨⟨hhas, hle⟩, hleast⟩ := htime
    obtain ⟨t, ht, hwhole, heq, hh, hm, hs⟩ := Instant.exists_ofDateTime? date
      (Nat.lt_succ_of_le (c.hours.bounds _ hhas.hour).2)
      (Nat.lt_succ_of_le (c.minutes.bounds _ hhas.minute).2)
      (Nat.lt_succ_of_le (c.seconds.bounds _ hhas.second).2)
    obtain rfl : t.clockTime = time := by rw [Instant.clockTime, hh, hm, hs]
    rw [Option.bind_some, ht]
    refine ⟨⟨⟨hwhole, ⟨date, ?_, hmonth, hday, hweekday⟩, hhas.hour, hhas.minute, hhas.second⟩,
      (hafter hwhole heq).2 hle, heq⟩, ?_⟩
    · rw [heq, Date.ofNumber?_number]
    · rintro u ⟨hmatch, hfrom, heq'⟩
      rw [Instant.le_iff_clockTime_le hwhole hmatch.whole (by omega)]
      exact hleast ⟨hmatch.hasTime, (hafter hmatch.whole heq').1 hfrom⟩

/-! ## Months and years -/

/-- `t` is a run not before `first`, and its date has this year, month and day. -/
def RunsOn (c : Calendar) (first : Instant) (year : Int) (month day : Nat) (t : Instant) : Prop :=
  (c.Matches t ∧ first ≤ t) ∧ ∃ date : Date, date.number = t.dayNumber ∧
    date.year = year ∧ date.month = month ∧ date.day = day

theorem isFirst_runsOn (c : Calendar) {first : Instant} (hfirst : first.nano = 0) (year : Int)
    {month day : Nat} (hmonth : month ∈ c.months) (hday : day ∈ c.daysOfMonth) :
    IsFirst (c.RunsOn first year month day)
      ((Date.ofYmd? year month day).bind (c.runOn? first)) := by
  cases hdate : Date.ofYmd? year month day with
  | none =>
    rintro t ⟨-, date, -, rfl, rfl, rfl⟩
    rw [Date.ofYmd?_self] at hdate
    contradiction
  | some date =>
    obtain ⟨rfl, rfl, rfl⟩ := Date.ofYmd?_eq_some hdate
    rw [Option.bind_some]
    refine (c.runOn?_isFirst hfirst hmonth hday).congr fun t => ?_
    constructor
    · rintro ⟨hmatch, hle, heq⟩
      exact ⟨⟨hmatch, hle⟩, date, heq.symm, rfl, rfl, rfl⟩
    · rintro ⟨⟨hmatch, hle⟩, date', heq, hy, hm, hd⟩
      have hself := Date.ofYmd?_self date'
      rw [hy, hm, hd, Date.ofYmd?_self] at hself
      cases hself
      exact ⟨hmatch, hle, heq.symm⟩

theorem earliestFrom_isFirst (c : Calendar) {first : Instant} (hfirst : first.nano = 0)
    (lastYear : Int) :
    IsFirst (fun t => c.Matches t ∧ first ≤ t ∧ t.year ≤ lastYear)
      (c.earliestFrom first lastYear) := by
  -- Dates of a later day, month or year have greater numbers, and so later instants.
  have hday (year : Int) (month : Nat) (hmonth : month ∈ c.months) :=
    isFirst_findSome? (l := c.daysOfMonth.values)
      (fun day hday => c.isFirst_runsOn hfirst year hmonth hday)
      (by
        refine c.daysOfMonth.ascending.imp ?_
        rintro day day' hlt t u ⟨-, date, ht, hy, hm, rfl⟩ ⟨-, date', hu, hy', hm', rfl⟩
        have := Date.number_lt_of_day_lt (hy.trans hy'.symm) (hm.trans hm'.symm) hlt
        exact Instant.le_of_dayNumber_lt (by omega))
  have hmonth (year : Int) :=
    isFirst_findSome? (l := c.months.values) (hday year)
      (by
        refine c.months.ascending.imp ?_
        rintro month month' hlt t u ⟨-, -, -, date, ht, hy, rfl, -⟩
          ⟨-, -, -, date', hu, hy', rfl, -⟩
        have := Date.number_lt_of_month_lt (hy.trans hy'.symm) hlt
        exact Instant.le_of_dayNumber_lt (by omega))
  have hyear :=
    isFirst_findSome?
      (l := (List.range (lastYear + 1 - first.year).toNat).map fun (n : Nat) => first.year + n)
      (fun year _ => hmonth year)
      (by
        rw [List.pairwise_map]
        refine List.pairwise_lt_range.imp ?_
        rintro n n' hlt t u ⟨-, -, -, -, -, date, ht, hy, -⟩ ⟨-, -, -, -, -, date', hu, hy', -⟩
        have := Date.number_lt_of_year_lt (show date.year < date'.year by omega)
        exact Instant.le_of_dayNumber_lt (by omega))
  refine hyear.congr fun t => ?_
  constructor
  · rintro ⟨year, hmem, month, -, day, -, ⟨hmatch, hle⟩, date, heq, rfl, -, -⟩
    obtain ⟨n, hn, hy⟩ := List.mem_map.1 hmem
    rw [List.mem_range] at hn
    exact ⟨hmatch, hle, by rw [Instant.year_eq heq]; omega⟩
  · rintro ⟨hmatch, hle, hlast⟩
    -- The year of the run is one of those searched, since years do not decrease with instants.
    obtain ⟨date, hdate, hmonth, hday, -⟩ := hmatch.date
    have heq := Instant.number_of_ofNumber? hdate
    have hfrom := Instant.year_mono hle
    have hyear := Instant.year_eq heq
    refine ⟨date.year, List.mem_map.2 ⟨(date.year - first.year).toNat, ?_, by omega⟩,
      date.month, hmonth, date.day, hday, ⟨hmatch, hle⟩, date, heq, rfl, rfl, rfl⟩
    rw [List.mem_range]
    omega

end Calendar

end ProbeAgent
