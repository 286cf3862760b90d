import Mathlib.Data.List.Sort
import ProbeAgent.Proofs.Json.Decode
import ProbeAgent.Schedule.Timing

/-!
# Schedules that were written

A schedule is read back from its written form.  An end of the window is written if there is one; a
set of numbers is written as its list, and that list gives the set again.
-/

namespace ProbeAgent

open Doc

/-! ## Windows -/

namespace Window

theorem option_instant_kept (t : Instant) :
    Doc.option Doc.instant (kept t.toJson) = .ok (some t) :=
  option_kept (instant_kept t) nofun

/-- The fields of the window, in front of others. -/
theorem written (window : Window) {rules : List FieldRule} {fields : Json.Fields}
    (rest : Written rules fields) : Written (Window.rules ++ rules) (window.toFields ++ fields) := by
  rw [toFields, List.append_assoc]
  exact .optional (fun t _ => option_instant_kept t) (by decide) <|
    .optional (fun t _ => option_instant_kept t) (by decide) rest

theorem ofFields_eq {window : Window} {values : FieldValues}
    (hstart : values.lookup "start" = (window.start.map Instant.toJson).map kept)
    (hfinish : values.lookup "end" = (window.finish.map Instant.toJson).map kept) :
    ofFields values = .ok window := by
  rw [ofFields, FieldValues.get_optional hstart fun t _ => option_instant_kept t,
    FieldValues.get_optional hfinish fun t _ => option_instant_kept t]
  rfl

end Window

/-! ## Sets -/

namespace ValueSet

variable {low high : Nat}

theorem values_injective {a b : ValueSet low high} (h : a.values = b.values) : a = b := by
  cases a
  cases b
  cases h
  rfl

/-- The list of a set gives the set. -/
theorem ofList_values (set : ValueSet low high) : ofList set.values = set := by
  refine values_injective (List.Pairwise.eq_of_mem_iff (ofList set.values).ascending set.ascending
    fun v => ?_)
  rw [← mem_def, mem_ofList]
  exact ⟨fun h => h.1, fun h => ⟨h, set.bounds v h⟩⟩

theorem numbers_kept (set : ValueSet low high) (hhigh : high < 4294967296) :
    numbers (kept set.toJson) = .ok set.values := by
  have htoNat : ∀ v ∈ set.values, (UInt32.ofNat v).toNat = v := by
    intro v hv
    have hbound := (set.bounds v hv).2
    exact UInt32.toNat_ofNat_of_lt' (by simp only [UInt32.size]; omega)
  have hwritten : set.toJson = .arr ((set.values.map UInt32.ofNat).map fun n => .int n.toNat) := by
    rw [toJson, List.map_map]
    refine congrArg Json.arr (List.map_congr_left fun v hv => ?_)
    rw [Function.comp_apply, htoNat v hv]
    rfl
  have hread : Doc.list Doc.uint32 (kept set.toJson) = .ok (set.values.map UInt32.ofNat) := by
    rw [hwritten]
    exact list_kept fun n _ => uint32_kept n
  have hvalues : (set.values.map UInt32.ofNat).map UInt32.toNat = set.values := by
    rw [List.map_map]
    exact (List.map_congr_left htoNat).trans (List.map_id' _)
  rw [numbers, hread, ok_map, hvalues]

theorem ofField_eq {set : ValueSet low high} (hhigh : high < 4294967296) {values : FieldValues}
    {name : String} (h : values.lookup name = some (kept set.toJson)) :
    ofField values name = .ok set := by
  rw [ofField, FieldValues.get, h]
  simp only [numbers_kept set hhigh, ok_map, ofList_values]

end ValueSet

/-! ## Schedules -/

namespace Calendar

theorem ofDoc_kept (c : Calendar) (source : DocSource) : ofDoc source (kept c.toJson) = .ok c := by
  obtain ⟨values, hrecord, hlookup⟩ := record_kept rules c.toJson rfl (by decide)
    (c.window.written <| .field (discard_ok (c.months.numbers_kept (by decide))) <|
      .field (discard_ok (c.daysOfWeek.numbers_kept (by decide))) <|
      .field (discard_ok (c.daysOfMonth.numbers_kept (by decide))) <|
      .field (discard_ok (c.hours.numbers_kept (by decide))) <|
      .field (discard_ok (c.minutes.numbers_kept (by decide))) <|
      .field (discard_ok (c.seconds.numbers_kept (by decide))) .nil) source "CalendarFields"
  simp only [toJson, Window.toFields, Json.get?, List.lookup_append, lookup_optionalField,
    List.lookup_cons] at hlookup
  have hwindow : Window.ofFields values = .ok c.window :=
    Window.ofFields_eq (by simp [hlookup]) (by simp [hlookup])
  have hmonths : ValueSet.ofField values "months" = .ok c.months :=
    ValueSet.ofField_eq (by decide) (by simp [hlookup])
  have hdaysOfWeek : ValueSet.ofField values "days_of_week" = .ok c.daysOfWeek :=
    ValueSet.ofField_eq (by decide) (by simp [hlookup])
  have hdaysOfMonth : ValueSet.ofField values "days_of_month" = .ok c.daysOfMonth :=
    ValueSet.ofField_eq (by decide) (by simp [hlookup])
  have hhours : ValueSet.ofField values "hours" = .ok c.hours :=
    ValueSet.ofField_eq (by decide) (by simp [hlookup])
  have hminutes : ValueSet.ofField values "minutes" = .ok c.minutes :=
    ValueSet.ofField_eq (by decide) (by simp [hlookup])
  have hseconds : ValueSet.ofField values "seconds" = .ok c.seconds :=
    ValueSet.ofField_eq (by decide) (by simp [hlookup])
  rw [ofDoc, hrecord, ok_bind, hwindow, ok_bind, hmonths, ok_bind, hdaysOfWeek, ok_bind,
    hdaysOfMonth, ok_bind, hhours, ok_bind, hminutes, ok_bind, hseconds]
  rfl

end Calendar

namespace Periodic

theorem ofDoc_kept (p : Periodic) (source : DocSource) : ofDoc source (kept p.toJson) = .ok p := by
  obtain ⟨values, hrecord, hlookup⟩ := record_kept rules p.toJson rfl (by decide)
    (p.window.written <| .field (discard_ok (uint64_kept p.interval)) .nil) source "PeriodicTiming"
  simp only [toJson, Window.toFields, Json.get?, List.lookup_append, lookup_optionalField,
    List.lookup_cons] at hlookup
  have hwindow : Window.ofFields values = .ok p.window :=
    Window.ofFields_eq (by simp [hlookup]) (by simp [hlookup])
  rw [ofDoc, hrecord, ok_bind, hwindow]
  simp [FieldValues.require, hlookup]

end Periodic

namespace Schedule

theorem ofDoc_kept (schedule : Schedule) (source : DocSource) :
    ofDoc source (kept schedule.toJson) = .ok schedule := by
  cases schedule with
  | immediate => cases source <;> rfl
  | periodic p =>
    have hperiodic : (periodic <$> Periodic.ofDoc source (kept p.toJson)) = .ok (periodic p) := by
      rw [p.ofDoc_kept, ok_map]
    rw [toJson, ofDoc, tagged_kept, ok_bind, if_neg (by simp), if_pos rfl]
    exact Tagged.require_eq_ok hperiodic
  | calendar c =>
    have hcalendar : (calendar <$> Calendar.ofDoc source (kept c.toJson)) = .ok (calendar c) := by
      rw [c.ofDoc_kept, ok_map]
    rw [toJson, ofDoc, tagged_kept, ok_bind, if_neg (by simp), if_neg (by simp), if_pos rfl]
    exact Tagged.require_eq_ok hcalendar

end Schedule

end ProbeAgent
