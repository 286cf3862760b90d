import Mathlib.Data.Prod.Lex
import ProbeAgent.Proofs.Schedule.CalendarSearch

/-!
# The first allowed time of day

A time of day is a triple of hour, minute and second, and times follow each other as their triples do
lexicographically.  The search through hours, minutes and seconds finds the least triple that the
three sets allow from a given time on.
-/

namespace ProbeAgent

namespace ClockTime

def triple (t : ClockTime) : ℕ ×ₗ ℕ ×ₗ ℕ := toLex (t.hour, toLex (t.minute, t.second))

theorem triple_le_triple_iff {a b : ClockTime} : a.triple ≤ b.triple ↔ a ≤ b := by
  unfold triple
  rw [Prod.Lex.toLex_le_toLex, Prod.Lex.toLex_le_toLex]
  exact (le_def a b).symm

theorem triple_injective : Function.Injective triple := by
  rintro ⟨hour, minute, second⟩ ⟨hour', minute', second'⟩ h
  cases h
  rfl

theorem eq_of_le_of_le {a b : ClockTime} (hab : a ≤ b) (hba : b ≤ a) : a = b :=
  triple_injective (le_antisymm (triple_le_triple_iff.2 hab) (triple_le_triple_iff.2 hba))

end ClockTime

namespace Calendar

/-- The triples with an hour, a minute and a second of the three sets that are not before a time. -/
def triplesFrom (c : Calendar) (time : ClockTime) : Set (ℕ ×ₗ ℕ ×ₗ ℕ) :=
  {t | ∃ hour ∈ c.hours, ∃ minute ∈ c.minutes, ∃ second ∈ c.seconds,
    t = toLex (hour, toLex (minute, second)) ∧ time.triple ≤ t}

theorem mem_triplesFrom {c : Calendar} {time : ClockTime} {t : ℕ ×ₗ ℕ ×ₗ ℕ} :
    t ∈ c.triplesFrom time ↔ ∃ allowed, t = allowed.triple ∧ c.HasTime allowed ∧ time ≤ allowed := by
  constructor
  · rintro ⟨hour, hh, minute, hm, second, hs, rfl, hle⟩
    exact ⟨⟨hour, minute, second⟩, rfl, ⟨hh, hm, hs⟩, ClockTime.triple_le_triple_iff.1 hle⟩
  · rintro ⟨allowed, rfl, ⟨hh, hm, hs⟩, hle⟩
    exact ⟨allowed.hour, hh, allowed.minute, hm, allowed.second, hs, rfl,
      ClockTime.triple_le_triple_iff.2 hle⟩

theorem isLeast_triple_iff {c : Calendar} {time found : ClockTime} :
    IsLeast (c.triplesFrom time) found.triple ↔
      IsLeast {t | c.HasTime t ∧ time ≤ t} found := by
  constructor
  · rintro ⟨hmem, hleast⟩
    obtain ⟨allowed, heq, hallowed⟩ := mem_triplesFrom.1 hmem
    obtain rfl := ClockTime.triple_injective heq
    refine ⟨hallowed, fun t ht => ?_⟩
    exact ClockTime.triple_le_triple_iff.1 (hleast (mem_triplesFrom.2 ⟨t, rfl, ht⟩))
  · rintro ⟨hmem, hleast⟩
    refine ⟨mem_triplesFrom.2 ⟨found, rfl, hmem⟩, fun t ht => ?_⟩
    obtain ⟨allowed, rfl, hallowed⟩ := mem_triplesFrom.1 ht
    exact ClockTime.triple_le_triple_iff.2 (hleast hallowed)

/-- The search through hours, minutes and seconds finds a time of day iff its triple is the least that
the sets allow from the given time on, and finds none iff they allow none. -/
theorem findTime_eq_least_triple (c : Calendar) (time : ClockTime) :
    (∀ found, c.findTime time = some found ↔ IsLeast (c.triplesFrom time) found.triple) ∧
      (c.findTime time = none ↔ c.triplesFrom time = ∅) := by
  have hfirst := c.findTime_isFirst time
  refine ⟨fun found => ?_, ?_⟩
  · rw [isLeast_triple_iff]
    exact hfirst.eq_some_iff (fun _ _ => ClockTime.eq_of_le_of_le) found
  · rw [hfirst.eq_none_iff, Set.eq_empty_iff_forall_notMem]
    constructor
    · intro hnone t ht
      obtain ⟨allowed, -, hallowed⟩ := mem_triplesFrom.1 ht
      exact hnone allowed hallowed
    · intro hnone allowed hallowed
      exact hnone _ (mem_triplesFrom.2 ⟨allowed, rfl, hallowed⟩)

-- The second carries into the minute and the minute into the hour, and both begin anew.
example :
    { everySecond with
      hours := .ofList [10, 12]
      minutes := .ofList [15, 45]
      seconds := .ofList [0, 30] : Calendar }.findTime ⟨10, 45, 31⟩ = some ⟨12, 15, 0⟩ := by
  decide

end Calendar

end ProbeAgent
