import ProbeAgent.Proofs.Schedule.CalendarSearch
import ProbeAgent.Proofs.Time.Range

/-!
# The next run of a calendar is the first allowed second

`Calendar.Allows` says which seconds may have a run, without a search: they match the sets of the
calendar, are not before a first second, lie in its year or the two after it, more than a second
after the last run and not past the end of the window.  `nextRunFrom_isFirst` shows that the two
searches and the bounds around them find the first of these seconds.
-/

namespace ProbeAgent

/-! ## The end of the window -/

-- If the first run lies past the end of the window, so do all others.
theorem IsFirst.clip {P : Instant → Prop} {found : Option Instant} (h : IsFirst P found)
    (window : Window) :
    IsFirst (fun t => P t ∧ ∀ finish, window.finish = some finish → t ≤ finish)
      (found.bind window.clip) := by
  cases found with
  | none => exact fun t ht => h t ht.1
  | some run =>
    rw [Option.bind_some, Window.clip]
    cases hfinish : window.finish with
    | none => exact ⟨⟨h.1, fun _ hf => by contradiction⟩, fun t ht => h.2 ht.1⟩
    | some finish =>
      simp only
      split
      · rename_i hpast
        rintro t ⟨ht, hbefore⟩
        have hle := Instant.le_trans (h.2 ht) (hbefore finish rfl)
        exact Instant.not_le.2 hpast hle
      · rename_i hinside
        rw [← Instant.not_le, Classical.not_not] at hinside
        refine ⟨⟨h.1, fun f hf => ?_⟩, fun t ht => h.2 ht.1⟩
        cases hf
        exact hinside

/-! ## The last run -/

-- The nanoseconds of `w` do not count: `t` is neither the second of `w` nor the one after it.
theorem Instant.lt_since_iff {t w : Instant} (ht : t.nano = 0) (hw : w.isLeap = false) :
    nanosPerSecond < t.since w ↔ w.second + 2 ≤ t.second := by
  have hnano := Instant.nano_lt_of_not_leap hw
  rw [Instant.since_eq (Instant.isLeap_of_whole ht) hw, ht]
  simp only [nanosPerSecond]
  omega

namespace Calendar

/-- The first second that can have a run: the later one of the reference and the start of the
window, each rounded up to a whole second. -/
def IsFirstSecond (c : Calendar) (reference first : Instant) : Prop :=
  IsLeast {t : Instant | t.nano = 0 ∧ reference ≤ t ∧
    ∀ start, c.window.start = some start → start ≤ t} first

/-- `t` may have a run, if `first` is the first second that can and `last` is the last run. -/
structure Allows (c : Calendar) (last : Option Instant) (first t : Instant) : Prop where
  isMatch : c.Matches t
  from_first : first ≤ t
  year_le : t.year ≤ first.year + 2
  after_last : ∀ w, last = some w → nanosPerSecond < t.since w
  before_finish : ∀ finish, c.window.finish = some finish → t ≤ finish

/-- As `Allows`, but it is the seconds of `t` and of the last run that must be two apart.  This is
the same unless the last run was in a leap second. -/
structure Offers (c : Calendar) (last : Option Instant) (first t : Instant) : Prop where
  isMatch : c.Matches t
  from_first : first ≤ t
  year_le : t.year ≤ first.year + 2
  after_last : ∀ w, last = some w → w.second + 2 ≤ t.second
  before_finish : ∀ finish, c.window.finish = some finish → t ≤ finish

theorem offers_iff_allows {c : Calendar} {last : Option Instant} {first t : Instant}
    (hlast : ∀ w, last = some w → w.isLeap = false) :
    c.Offers last first t ↔ c.Allows last first t := by
  constructor
  · rintro ⟨hmatch, hfirst, hyear, hafter, hfinish⟩
    exact ⟨hmatch, hfirst, hyear,
      fun w hw => (Instant.lt_since_iff hmatch.whole (hlast w hw)).2 (hafter w hw), hfinish⟩
  · rintro ⟨hmatch, hfirst, hyear, hafter, hfinish⟩
    exact ⟨hmatch, hfirst, hyear,
      fun w hw => (Instant.lt_since_iff hmatch.whole (hlast w hw)).1 (hafter w hw), hfinish⟩

theorem firstSecond_eq {c : Calendar} {reference first : Instant}
    (h : c.IsFirstSecond reference first) : c.firstSecond reference = .ok first := by
  obtain ⟨⟨hwhole, href, hstart⟩, hleast⟩ := h
  obtain ⟨a, ha⟩ := Instant.exists_ceil? hwhole href
  have hleastA := Instant.isLeast_of_ceil? ha
  have hafirst : a ≤ first := hleastA.2 ⟨hwhole, href⟩
  rw [firstSecond, ha]
  cases hs : c.window.start with
  | none =>
    have hfirsta : first ≤ a := hleast ⟨hleastA.1.1, hleastA.1.2, fun s hs' => by
      rw [hs] at hs'
      contradiction⟩
    rw [Instant.le_antisymm hafirst hfirsta]
    rfl
  | some start =>
    show (if a < start then Checked.ofOption start.ceil? else Except.ok a) = Except.ok first
    -- Only a start after the rounded reference is rounded itself: any other is met by `a` already.
    split
    · rename_i hlt
      obtain ⟨b, hb⟩ := Instant.exists_ceil? hwhole (hstart start hs)
      have hleastB := Instant.isLeast_of_ceil? hb
      have hbfirst : b ≤ first := hleastB.2 ⟨hwhole, hstart start hs⟩
      have hab : a ≤ b := Instant.le_trans (Instant.le_of_lt hlt) hleastB.1.2
      have hfirstb : first ≤ b :=
        hleast ⟨hleastB.1.1, Instant.le_trans hleastA.1.2 hab, fun s hs' => by
          rw [hs] at hs'
          cases hs'
          exact hleastB.1.2⟩
      rw [hb, Instant.le_antisymm hfirstb hbfirst]
      rfl
    · rename_i hle
      rw [← Instant.not_le, Classical.not_not] at hle
      have hfirsta : first ≤ a := hleast ⟨hleastA.1.1, hleastA.1.2, fun s hs' => by
        rw [hs] at hs'
        cases hs'
        exact hle⟩
      rw [Instant.le_antisymm hafirst hfirsta]

theorem isFirstSecond_of_firstSecond {c : Calendar} {reference first : Instant}
    (h : c.firstSecond reference = .ok first) : c.IsFirstSecond reference first := by
  rw [firstSecond] at h
  cases ha : reference.ceil? with
  | none =>
    rw [ha] at h
    cases h
  | some a =>
  have hleastA := Instant.isLeast_of_ceil? ha
  rw [ha] at h
  cases hs : c.window.start with
  | none =>
    rw [hs] at h
    cases h
    refine ⟨⟨hleastA.1.1, hleastA.1.2, fun s hs' => ?_⟩, fun t ht => hleastA.2 ⟨ht.1, ht.2.1⟩⟩
    rw [hs] at hs'
    contradiction
  | some start =>
    rw [hs] at h
    change (if a < start then Checked.ofOption start.ceil? else Except.ok a) = Except.ok first at h
    split at h
    · rename_i hlt
      cases hb : start.ceil? with
      | none =>
        rw [hb] at h
        cases h
      | some b =>
        rw [hb] at h
        cases h
        have hleastB := Instant.isLeast_of_ceil? hb
        refine ⟨⟨hleastB.1.1, ?_, fun s hs' => ?_⟩,
          fun t ht => hleastB.2 ⟨ht.1, ht.2.2 start hs⟩⟩
        · exact Instant.le_trans hleastA.1.2 (Instant.le_trans (Instant.le_of_lt hlt) hleastB.1.2)
        · rw [hs] at hs'
          cases hs'
          exact hleastB.1.2
    · rename_i hle
      cases h
      rw [← Instant.not_le, Classical.not_not] at hle
      refine ⟨⟨hleastA.1.1, hleastA.1.2, fun s hs' => ?_⟩, fun t ht => hleastA.2 ⟨ht.1, ht.2.1⟩⟩
      rw [hs] at hs'
      cases hs'
      exact hle

theorem not_matches_of_hasEmptyField {c : Calendar} (h : c.hasEmptyField = true) (t : Instant) :
    ¬ c.Matches t := by
  intro hmatch
  obtain ⟨date, -, hmonth, hday, hweekday⟩ := hmatch.date
  have hhour := hmatch.hour
  have hminute := hmatch.minute
  have hsecond := hmatch.second
  simp only [hasEmptyField, ValueSet.isEmpty, Bool.or_eq_true, List.isEmpty_iff] at h
  simp only [ValueSet.mem_def] at *
  rcases h with ((((h | h) | h) | h) | h) | h <;> simp_all

-- Nothing is lost when the search starts again two seconds after the second of the last run: a run
-- that is too close to it is not later.
theorem isFirst_afterLast (c : Calendar) (lastYear : Int) {first last run second : Instant}
    (hfirst : first ≤ run) (hrun : run.nano = 0) (hclose : run.since last ≤ nanosPerSecond)
    (hsecond : second.second = last.second + 2) (hwhole : second.nano = 0) :
    IsFirst (fun t => (c.Matches t ∧ first ≤ t ∧ t.year ≤ lastYear) ∧ last.second + 2 ≤ t.second)
      (c.earliestFrom second lastYear) := by
  have hrunle := Instant.second_le_of_whole hrun hclose
  refine (c.earliestFrom_isFirst hwhole lastYear).congr fun t => ?_
  constructor
  · rintro ⟨hmatch, hle, hyear⟩
    rw [Instant.le_iff_of_whole hwhole hmatch.whole] at hle
    refine ⟨⟨hmatch, Instant.le_trans hfirst ?_, hyear⟩, by omega⟩
    rw [Instant.le_iff_of_whole hrun hmatch.whole]
    omega
  · rintro ⟨⟨hmatch, -, hyear⟩, hafter⟩
    refine ⟨hmatch, ?_, hyear⟩
    rw [Instant.le_iff_of_whole hwhole hmatch.whole]
    omega

/-- The answer, if there are two seconds left after the last run. -/
theorem nextRunFrom_isFirst_offers (c : Calendar) {last : Option Instant}
    {reference first : Instant} (hfirst : c.IsFirstSecond reference first)
    (hlast : ∀ w, last = some w → w.second + 2 ≤ maxSecond) :
    ∃ next, c.nextRunFrom last reference = .ok next ∧ IsFirst (c.Offers last first) next := by
  by_cases hempty : c.hasEmptyField
  · refine ⟨none, ?_, fun t ht => not_matches_of_hasEmptyField hempty t ht.isMatch⟩
    rw [nextRunFrom, if_pos hempty]
    rfl
  have hwhole : first.nano = 0 := hfirst.1.1
  have hsearch := c.earliestFrom_isFirst hwhole (first.year + lookaheadYears)
  -- The seconds that a search must find, before the window is looked at.
  have hclip (found : Option Instant)
      (h : IsFirst (fun t => (c.Matches t ∧ first ≤ t ∧ t.year ≤ first.year + lookaheadYears) ∧
        ∀ w, last = some w → w.second + 2 ≤ t.second) found) :
      IsFirst (c.Offers last first) (found.bind c.window.clip) :=
    (h.clip c.window).congr fun t =>
      ⟨fun ⟨⟨⟨h1, h2, h3⟩, h4⟩, h5⟩ => ⟨h1, h2, h3, h4, h5⟩,
        fun ⟨h1, h2, h3, h4, h5⟩ => ⟨⟨⟨h1, h2, h3⟩, h4⟩, h5⟩⟩
  rw [nextRunFrom, if_neg hempty, firstSecond_eq hfirst]
  simp only [bind, Except.bind]
  cases hfound : c.earliestFrom first (first.year + lookaheadYears) with
  | none =>
    rw [hfound] at hsearch
    exact ⟨none, rfl, fun t ht => hsearch t ⟨ht.isMatch, ht.from_first, ht.year_le⟩⟩
  | some run =>
    rw [hfound] at hsearch
    cases last with
    | none =>
      refine ⟨_, rfl, hclip (some run) (hsearch.congr fun t => ?_)⟩
      simp
    | some w =>
      have hroom := hlast w rfl
      simp only
      split
      · -- The second search has the last year of the first one, whatever year it starts in.
        rename_i hclose
        have hmem := w.second_mem
        rw [Instant.truncate_add?, Instant.ofParts?_whole ⟨by omega, hroom⟩]
        refine ⟨_, rfl, hclip _ ?_⟩
        have := c.isFirst_afterLast (first.year + lookaheadYears) hsearch.1.2.1
          hsearch.1.1.whole hclose
          (show (Instant.mk (w.second + 2) 0 ⟨by omega, hroom⟩ (.inl (by decide))).second = _
            from rfl)
          rfl
        exact this.congr fun t => by simp
      · rename_i hfar
        refine ⟨_, rfl, hclip (some run) ?_⟩
        refine ⟨⟨hsearch.1, fun w' hw' => ?_⟩, fun t ht => hsearch.2 ht.1⟩
        cases hw'
        exact Instant.add_two_le_of_lt_since hsearch.1.1.whole (by omega)

theorem nextRunFrom_isFirst (c : Calendar) {last : Option Instant} {reference first : Instant}
    (hfirst : c.IsFirstSecond reference first)
    (hlast : ∀ w, last = some w → w.isLeap = false ∧ w.second + 2 ≤ maxSecond) :
    ∃ next, c.nextRunFrom last reference = .ok next ∧ IsFirst (c.Allows last first) next := by
  obtain ⟨next, hnext, hisFirst⟩ :=
    c.nextRunFrom_isFirst_offers hfirst fun w hw => (hlast w hw).2
  exact ⟨next, hnext, hisFirst.congr fun t => offers_iff_allows fun w hw => (hlast w hw).1⟩

-- The inversion for a run that was found, under no assumption on the date-times.
theorem nextRunFrom_cases {c : Calendar} {last : Option Instant} {reference run : Instant}
    (h : c.nextRunFrom last reference = .ok (some run)) :
    ∃ first point found, c.firstSecond reference = .ok first ∧
      c.earliestFrom first (first.year + lookaheadYears) = some point ∧
      c.window.clip found = some run ∧
      ((found = point ∧ ∀ w, last = some w → nanosPerSecond < point.since w) ∨
        ∃ w second, last = some w ∧ point.since w ≤ nanosPerSecond ∧
          w.truncate.add? (2 * nanosPerSecond) = some second ∧
          c.earliestFrom second (first.year + lookaheadYears) = some found) := by
  rw [nextRunFrom] at h
  split at h
  · cases h
  cases hfirst : c.firstSecond reference with
  | error e =>
    rw [hfirst] at h
    contradiction
  | ok first =>
  rw [hfirst] at h
  simp only [bind, Except.bind] at h
  refine ⟨first, ?_⟩
  cases hpoint : c.earliestFrom first (first.year + lookaheadYears) with
  | none =>
    rw [hpoint] at h
    cases h
  | some point =>
  rw [hpoint] at h
  cases last with
  | none =>
    exact ⟨point, point, rfl, rfl, Except.ok.inj h, .inl ⟨rfl, fun _ hw => by contradiction⟩⟩
  | some w =>
    simp only at h
    split at h
    · rename_i hclose
      cases hsecond : w.truncate.add? (2 * nanosPerSecond) with
      | none =>
        rw [hsecond] at h
        contradiction
      | some second =>
        rw [hsecond] at h
        obtain ⟨found, hfound, hclip⟩ := Option.bind_eq_some_iff.1 (Except.ok.inj h)
        exact ⟨point, found, rfl, rfl, hclip, .inr ⟨w, second, rfl, hclose, hsecond, hfound⟩⟩
    · rename_i hfar
      refine ⟨point, point, rfl, rfl, Except.ok.inj h, .inl ⟨rfl, fun w' hw => ?_⟩⟩
      cases hw
      omega

theorem whole_of_firstSecond {c : Calendar} {reference first : Instant}
    (h : c.firstSecond reference = .ok first) : first.nano = 0 :=
  (isFirstSecond_of_firstSecond h).1.1

theorem whole_of_earliestFrom {c : Calendar} {first run : Instant} {lastYear : Int}
    (hfirst : first.nano = 0) (h : c.earliestFrom first lastYear = some run) : run.nano = 0 := by
  have hsearch := c.earliestFrom_isFirst hfirst lastYear
  rw [h] at hsearch
  exact hsearch.1.1.whole

theorem whole_of_nextRunFrom {c : Calendar} {last : Option Instant} {reference run : Instant}
    (h : c.nextRunFrom last reference = .ok (some run)) : run.nano = 0 := by
  obtain ⟨first, point, found, hfirst, hpoint, hclip, hfound⟩ := nextRunFrom_cases h
  rw [(Window.clip_eq_some hclip).1]
  rcases hfound with ⟨rfl, -⟩ | ⟨w, second, -, -, hsecond, hfound⟩
  · exact whole_of_earliestFrom (whole_of_firstSecond hfirst) hpoint
  · rw [Instant.truncate_add?] at hsecond
    exact whole_of_earliestFrom (Instant.ofParts?_eq_some hsecond).2 hfound

theorem lt_since_of_nextRunFrom {c : Calendar} {w reference run : Instant} (hw : w.isLeap = false)
    (h : c.nextRunFrom (some w) reference = .ok (some run)) : nanosPerSecond < run.since w := by
  have hwhole := whole_of_nextRunFrom h
  obtain ⟨first, point, found, hfirst, hpoint, hclip, hfound⟩ := nextRunFrom_cases h
  have hrun := (Window.clip_eq_some hclip).1
  rcases hfound with ⟨rfl, hfar⟩ | ⟨w', second, hw', -, hsecond, hfound⟩
  · rw [hrun]
    exact hfar w rfl
  · -- What the second search found is not before the second at which that search started.
    cases hw'
    rw [Instant.truncate_add?] at hsecond
    obtain ⟨hsec, hnano⟩ := Instant.ofParts?_eq_some hsecond
    have hsearch := c.earliestFrom_isFirst hnano (first.year + lookaheadYears)
    rw [hfound] at hsearch
    have hle := hsearch.1.2.1
    rw [Instant.lt_since_iff hwhole hw, hrun]
    rw [Instant.le_iff_of_whole hnano hsearch.1.1.whole] at hle
    omega

/-- A calendar always answers, with the least second that it allows, or with nothing if it allows no
second at all. -/
theorem nextRunFrom_eq_least_allowed (c : Calendar) {last : Option Instant}
    {reference first : Instant} (hfirst : c.IsFirstSecond reference first)
    (hlast : ∀ w, last = some w → w.isLeap = false ∧ w.second + 2 ≤ maxSecond) :
    ∃ next, c.nextRunFrom last reference = .ok next ∧
      (∀ t, next = some t ↔ IsLeast {u | c.Allows last first u} t) ∧
      (next = none ↔ ∀ u, ¬ c.Allows last first u) := by
  obtain ⟨next, hnext, hisFirst⟩ := c.nextRunFrom_isFirst hfirst hlast
  exact ⟨next, hnext, hisFirst.eq_some_iff fun a b => Instant.le_antisymm, hisFirst.eq_none_iff⟩

/-- Every 31st at nine o'clock. -/
def everyThirtyFirst : Calendar :=
  { everySecond with
    daysOfMonth := .ofList [31], hours := .ofList [9], minutes := .ofList [0],
    seconds := .ofList [0] }

/-- After a run on 31 January 2024, the next one is on 31 March: the second of the last run is
passed over, and February is too short. -/
theorem everyThirtyFirst_after_january :
    IsLeast {u | everyThirtyFirst.Allows (some ⟨1706691600, 500000000, by decide, by decide⟩)
      ⟨1706691600, 0, by decide, by decide⟩ u} ⟨1711875600, 0, by decide, by decide⟩ := by
  have hfirst : everyThirtyFirst.IsFirstSecond ⟨1706691599, 750000000, by decide, by decide⟩
      ⟨1706691600, 0, by decide, by decide⟩ := by
    refine ⟨⟨rfl, by decide, fun start hstart => by contradiction⟩, ?_⟩
    rintro t ⟨hwhole, hle, -⟩
    rw [Instant.le_def] at hle ⊢
    simp only at hle ⊢
    omega
  have hlast : ∀ w : Instant, some ⟨1706691600, 500000000, by decide, by decide⟩ = some w →
      w.isLeap = false ∧ w.second + 2 ≤ maxSecond := by
    intro w hw
    cases hw
    decide
  obtain ⟨next, hnext, hsome, -⟩ := nextRunFrom_eq_least_allowed everyThirtyFirst hfirst hlast
  have hrun : everyThirtyFirst.nextRunFrom (some ⟨1706691600, 500000000, by decide, by decide⟩)
      ⟨1706691599, 750000000, by decide, by decide⟩ =
        .ok (some ⟨1711875600, 0, by decide, by decide⟩) := by
    decide +kernel
  rw [hrun] at hnext
  cases hnext
  exact (hsome _).1 rfl

end Calendar

end ProbeAgent
