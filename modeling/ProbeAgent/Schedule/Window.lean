import ProbeAgent.Time.Clock

/-!
# Windows of validity

A schedule may have a first and a last allowed instant, each of which may be open.
-/

namespace ProbeAgent

structure Window where
  start : Option Instant
  finish : Option Instant
  deriving DecidableEq

namespace Window

def unbounded : Window := ⟨none, none⟩

/-- A run that lies past the end does not take place. -/
def clip (window : Window) (run : Instant) : Option Instant :=
  match window.finish with
  | some finish => if finish < run then none else some run
  | none => some run

/-- Neither bound excludes the other. -/
def isOrdered (window : Window) : Bool :=
  match window.start, window.finish with
  | some start, some finish => decide (start ≤ finish)
  | _, _ => true

theorem clip_eq_some {window : Window} {run t : Instant} (h : window.clip run = some t) :
    t = run ∧ ∀ finish, window.finish = some finish → t ≤ finish := by
  unfold clip at h
  split at h
  · rename_i finish hf
    split at h
    · contradiction
    · rename_i hlt
      cases h
      refine ⟨rfl, fun f hf' => ?_⟩
      rw [hf] at hf'
      cases hf'
      rw [← Instant.not_le, Classical.not_not] at hlt
      exact hlt
  · rename_i hf
    cases h
    exact ⟨rfl, fun f hf' => by rw [hf] at hf'; contradiction⟩

end Window

end ProbeAgent
