import ProbeAgent.Schedule.Periodic
import ProbeAgent.Proofs.Time.Instant

/-!
# The course of a periodic schedule

`nextRunFrom_cases` says in which two ways a periodic schedule comes to a next run: the reference
itself, while there is nothing to anchor a grid at, or a point of the grid that has passed the last
run and the end of the window.
-/

namespace ProbeAgent.Periodic

/-! ## Passing the last run -/

-- The induction is on the runs that are passed over; each of them is too close to the last run.
theorem lt_since_of_passLast {last run found : Instant} {step : Int} {pos : 0 < step}
    (h : passLast last step pos run = some found) : nanosPerSecond < found.since last := by
  fun_induction passLast last step pos run with
  | case1 run hclose hnone => contradiction
  | case2 run hclose next hnext ih => exact ih h
  | case3 run hfar =>
    cases h
    omega

theorem isLeap_of_passLast {last run found : Instant} {step : Int} {pos : 0 < step}
    (hrun : run.isLeap = false) (h : passLast last step pos run = some found) :
    found.isLeap = false := by
  fun_induction passLast last step pos run with
  | case1 run hclose hnone => contradiction
  | case2 run hclose next hnext ih => exact ih (Instant.isLeap_add? hrun hnext) h
  | case3 run hfar =>
    cases h
    exact hrun

theorem isLeap_of_firstPoint {anchor reference point : Instant} {step : Int}
    (hanchor : anchor.isLeap = false) (h : firstPoint anchor step reference = some point) :
    point.isLeap = false := by
  rw [firstPoint] at h
  split at h
  · exact Instant.isLeap_add? hanchor h
  · cases h
    exact hanchor

/-! ## Next runs -/

/-- Where the grid is anchored: at the start of the window, or else at the last run. -/
def anchor? (p : Periodic) (last : Option Instant) : Option Instant := p.window.start <|> last

theorem anchor?_eq_none_iff {p : Periodic} {last : Option Instant} :
    p.anchor? last = none ↔ p.window.start = none ∧ last = none := by
  rw [anchor?]
  cases p.window.start <;> simp

-- Without an anchor the window is not looked at.  Otherwise `found` is a point of the grid that has
-- passed the last run.
theorem nextRunFrom_cases {p : Periodic} {last : Option Instant} {reference run : Instant}
    (h : p.nextRunFrom last reference = some run) :
    (p.anchor? last = none ∧ run = reference) ∨
      ∃ anchor step point found, p.anchor? last = some anchor ∧ p.step? = some step ∧
        firstPoint anchor step reference = some point ∧
        (last = none → found = point) ∧
        (∀ w, last = some w → ∃ pos, passLast w step pos point = some found) ∧
        p.window.clip found = some run := by
  unfold nextRunFrom at h
  split at h
  · contradiction
  rename_i step hstep
  rw [← anchor?] at h
  split at h
  · rename_i hanchor
    cases h
    exact .inl ⟨hanchor, rfl⟩
  rename_i anchor hanchor
  obtain ⟨point, hpoint, h⟩ := Option.bind_eq_some_iff.1 h
  refine .inr ⟨anchor, step, point, ?_⟩
  cases last with
  | none => exact ⟨point, hanchor, hstep, hpoint, fun _ => rfl, fun _ hw => by contradiction, h⟩
  | some w =>
    obtain ⟨found, hfound, hclip⟩ := Option.bind_eq_some_iff.1 h
    refine ⟨found, hanchor, hstep, hpoint, fun hw => by contradiction, ?_, hclip⟩
    rintro w' hw
    cases hw
    exact ⟨step?_pos hstep, hfound⟩

end ProbeAgent.Periodic
