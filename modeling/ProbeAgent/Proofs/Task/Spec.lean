import ProbeAgent.Proofs.Schedule.Written
import ProbeAgent.Task.Spec

/-!
# Tasks that were written

A task is read back from its written form with everything but the last run of its timing, which is
not part of what a task is.
-/

namespace ProbeAgent

open Doc

theorem TaskId.ofDoc_kept (id : TaskId) : ofDoc (kept id.toJson) = .ok id := by
  rw [ofDoc, toJson, uint64_kept]
  rfl

theorem Timing.ofDoc_kept (t : Timing) (source : DocSource) :
    ofDoc source (kept t.toJson) = .ok t.schedule.fresh := by
  rw [ofDoc, toJson, t.schedule.ofDoc_kept, ok_map]

namespace TaskSpec

/-- Tasks are compared with their schedules, so without the last run. -/
def Same (a b : TaskSpec) : Prop :=
  a.id = b.id ∧ a.method = b.method ∧ a.options = b.options ∧
    a.timing.sameSchedule b.timing = true

/-- Options that were read have sorted keys. -/
theorem ordered_options {source : DocSource} {d : Doc} {spec : TaskSpec}
    (h : ofDoc source d = .ok spec) : spec.options.Ordered := by
  obtain ⟨values, -, h⟩ := exists_of_bind_eq_ok h
  obtain ⟨id, -, h⟩ := exists_of_bind_eq_ok h
  obtain ⟨method, -, h⟩ := exists_of_bind_eq_ok h
  obtain ⟨options, hoptions, h⟩ := exists_of_bind_eq_ok h
  obtain ⟨timing, -, h⟩ := exists_of_bind_eq_ok h
  cases h
  rw [FieldValues.get] at hoptions
  split at hoptions
  · rename_i content _
    exact ordered_of_jsonValue hoptions
  · cases hoptions
    exact ⟨List.Pairwise.nil, trivial⟩

theorem separate_rules (source : DocSource) : Separate (rules source) := by
  cases source <;> decide

theorem ofDoc_kept {spec : TaskSpec} (h : spec.options.Ordered) (source : DocSource) :
    ofDoc source (kept spec.toJson) = .ok { spec with timing := spec.timing.schedule.fresh } := by
  have hoptions : Doc.jsonValue (kept spec.options) = .ok spec.options := by
    rw [jsonValue_kept, Json.sorted_eq_self _ h]
  have htiming := spec.timing.ofDoc_kept source
  obtain ⟨values, hrecord, hlookup⟩ := record_kept (rules source) spec.toJson rfl
    (separate_rules source)
    (.field (discard_ok spec.id.ofDoc_kept) <| .field (discard_ok (text_kept spec.method)) <|
      .field (discard_ok hoptions) <| .field (discard_ok htiming) .nil) source "TaskSpec"
  rw [ofDoc, hrecord, ok_bind]
  simp [FieldValues.require, FieldValues.get, hlookup, toJson, Json.get?, List.lookup_cons, hoptions,
    htiming, TaskId.ofDoc_kept]

/-- A task is read back from its written form as the task that it was, in time as well: it runs when
it would run if it had not run before. -/
theorem decodeValue_taskSpec {spec : TaskSpec} (h : spec.options.Ordered) :
    ∃ decoded, decodeValue (ofDoc .value) spec.toJson.sorted = .ok decoded ∧ decoded.Same spec ∧
      decoded.timing.lastRun = none ∧ decoded.toJson = spec.toJson ∧
      ∀ reference, decoded.timing.nextRunFrom reference =
        { spec.timing with lastRun := none }.nextRunFrom reference :=
  ⟨_, ofDoc_kept h .value, ⟨rfl, rfl, rfl, decide_eq_true rfl⟩, rfl, rfl, fun _ => rfl⟩

/-- A task that has run, with options that only its method understands. -/
def everySecondRun : TaskSpec where
  id := .ofNat 7
  method := "udpping"
  options := .obj [("count", .int 1), ("host", .obj [("a", .arr [.null]), ("b", .float 0.5)])]
  timing := ⟨.calendar { Calendar.everySecond with window := ⟨some .epoch, none⟩ }, some .epoch⟩

theorem decodeValue_everySecondRun :
    everySecondRun.options.Ordered ∧ everySecondRun.timing.lastRun = some .epoch ∧
      ∃ decoded, decodeValue (ofDoc .value) everySecondRun.toJson.sorted = .ok decoded ∧
        decoded.Same everySecondRun ∧ decoded.timing.lastRun = none := by
  have h : everySecondRun.options.Ordered := by
    refine ⟨by decide, trivial, ⟨by decide, ⟨trivial, trivial⟩, trivial, trivial⟩, trivial⟩
  obtain ⟨decoded, hdecoded, hsame, hlast, -⟩ := decodeValue_taskSpec h
  exact ⟨h, rfl, decoded, hdecoded, hsame, hlast⟩

end TaskSpec

end ProbeAgent
