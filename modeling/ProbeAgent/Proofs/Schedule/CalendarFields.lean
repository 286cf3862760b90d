import Mathlib.Data.List.Destutter
import ProbeAgent.Proofs.Schedule.Written
import ProbeAgent.Schedule.CalendarFields

/-!
# Calendars depend on sets only

Whichever way a calendar is made from lists, it has the set of the numbers in each list that the
field has (`Calendar.MadeFrom.eq_iff`).  Nothing that can be asked of a timing tells more about the
lists than that (`Calendar.MadeFrom.depends_on_sets`).
-/

namespace ProbeAgent

open Doc

/-! ## Sets -/

namespace ValueSet

variable {low high : Nat}

theorem ofList_eq_ofList_iff {first second : List Nat} :
    (ofList first : ValueSet low high) = ofList second ↔
      ∀ v, low ≤ v → v ≤ high → (v ∈ first ↔ v ∈ second) := by
  constructor
  · intro heq v hlow hhigh
    have hmem : v ∈ (ofList first : ValueSet low high) ↔ v ∈ (ofList second : ValueSet low high) := by
      rw [heq]
    rw [mem_ofList, mem_ofList] at hmem
    simpa [hlow, hhigh] using hmem
  · intro hsame
    refine values_injective (List.Pairwise.eq_of_mem_iff (ofList first).ascending
      (ofList second).ascending fun v => ?_)
    rw [← mem_def, ← mem_def, mem_ofList, mem_ofList]
    exact and_congr_left fun hbounds => hsame v hbounds.1 hbounds.2

/-- The numbers of a list that are in bounds, sorted, and without repeats. -/
def normalize (low high : Nat) (numbers : List Nat) : List Nat :=
  ((numbers.filter fun n => low ≤ n ∧ n ≤ high).mergeSort (· ≤ ·)).destutter (· ≠ ·)

theorem values_ofList (numbers : List Nat) :
    (ofList numbers : ValueSet low high).values = normalize low high numbers := by
  let sorted := (numbers.filter fun n => low ≤ n ∧ n ≤ high).mergeSort (· ≤ ·)
  have hsorted : sorted.Pairwise (· ≤ ·) := List.pairwise_mergeSort' (· ≤ ·) _
  -- In a sorted list equal numbers stand together, so that none of them is left twice.
  have hdedup : normalize low high numbers = sorted.dedup := hsorted.destutter_eq_dedup
  have hascending : sorted.dedup.Pairwise (· < ·) :=
    ((hsorted.sublist (List.dedup_sublist _)).and (List.nodup_dedup _)).imp
      fun h => Nat.lt_of_le_of_ne h.1 h.2
  rw [hdedup]
  refine List.Pairwise.eq_of_mem_iff (ofList numbers).ascending hascending fun n => ?_
  rw [← mem_def, mem_ofList]
  simp [sorted]

end ValueSet

namespace CalendarFields

/-- In each field, the lists have the same numbers of those that the field has. -/
def SameSets (a b : CalendarFields) : Prop :=
  ∀ field n, field.low ≤ n → n ≤ field.high →
    (n ∈ (a.numbers field).map UInt32.toNat ↔ n ∈ (b.numbers field).map UInt32.toNat)

theorem set_eq_set_iff {a b : CalendarFields} :
    (∀ field, a.set field = b.set field) ↔ a.SameSets b := by
  constructor
  · exact fun h field => ValueSet.ofList_eq_ofList_iff.1 (h field)
  · exact fun h field => ValueSet.ofList_eq_ofList_iff.2 (h field)

theorem allowed_calendar (fields : CalendarFields) (field : CalendarField) :
    fields.calendar.allowed field = (fields.set field).values := by
  cases field <;> rfl

theorem calendar_eq_calendar_iff {a b : CalendarFields} :
    a.calendar = b.calendar ↔ a.window = b.window ∧ a.SameSets b := by
  rw [← set_eq_set_iff]
  constructor
  · intro h
    refine ⟨congrArg Calendar.window h, fun field => ValueSet.values_injective ?_⟩
    rw [← allowed_calendar, ← allowed_calendar, h]
  · rintro ⟨hwindow, hsets⟩
    simp only [calendar, hwindow, hsets]

/-! ## Builders -/

/-- The calls that give a builder all of the fields. -/
def calls (fields : CalendarFields) : List BuilderCall :=
  fields.window.start.toList.map .start ++ fields.window.finish.toList.map .finish ++
    CalendarField.all.map fun field => .numbers field (fields.numbers field)

theorem build_calls (fields : CalendarFields) : build fields.calls = fields.calendar := by
  obtain ⟨⟨start, finish⟩, numbers⟩ := fields
  cases start <;> cases finish <;> rfl

/-! ## Documents -/

theorem ofField_eq_map {low high : Nat} (values : FieldValues) (name : String) :
    (ValueSet.ofField values name : Decoded (ValueSet low high)) =
      (fun numbers => .ofList (numbers.map UInt32.toNat)) <$>
        values.get name [] (Doc.list Doc.uint32) := by
  unfold ValueSet.ofField FieldValues.get
  cases values.lookup name with
  | none => rfl
  | some d =>
    show _ <$> (_ <$> _) = _
    rw [← comp_map]
    rfl

theorem ofDoc_eq_map (source : DocSource) (d : Doc) :
    Calendar.ofDoc source d = calendar <$> ofDoc source d := by
  unfold Calendar.ofDoc ofDoc
  simp only [ofField_eq_map, numbersOf, map_bind, bind_map_left]
  rfl

theorem numbers_written (numbers : List UInt32) :
    Doc.list Doc.uint32 (kept (.arr (numbers.map fun n => .int n.toNat))) = .ok numbers :=
  list_kept fun n _ => uint32_kept n

theorem numbersOf_eq_ok {fields : CalendarFields} {values : FieldValues} {field : CalendarField}
    (h : values.lookup field.name =
      some (kept (.arr ((fields.numbers field).map fun n => .int n.toNat)))) :
    numbersOf values field = .ok (fields.numbers field) := by
  rw [numbersOf, FieldValues.get, h]
  exact numbers_written _

theorem ofDoc_kept (fields : CalendarFields) (source : DocSource) :
    ofDoc source (kept fields.toJson) = .ok fields := by
  have hcheck (field : CalendarField) : discard (ValueSet.numbers
      (kept (.arr ((fields.numbers field).map fun n => .int n.toNat)))) = .ok () := by
    rw [ValueSet.numbers, numbers_written]
    rfl
  obtain ⟨values, hrecord, hlookup⟩ := record_kept Calendar.rules fields.toJson rfl (by decide)
    (fields.window.written <| .field (hcheck .months) <| .field (hcheck .daysOfWeek) <|
      .field (hcheck .daysOfMonth) <| .field (hcheck .hours) <| .field (hcheck .minutes) <|
      .field (hcheck .seconds) .nil) source "CalendarFields"
  simp only [toJson, Window.toFields, CalendarField.all, CalendarField.name, List.map_cons,
    List.map_nil, Json.get?, List.lookup_append, lookup_optionalField, List.lookup_cons] at hlookup
  have hwindow : Window.ofFields values = .ok fields.window :=
    Window.ofFields_eq (by simp [hlookup]) (by simp [hlookup])
  have hnumbers (field : CalendarField) : numbersOf values field = .ok (fields.numbers field) := by
    refine numbersOf_eq_ok ?_
    cases field <;> simp [hlookup, CalendarField.name]
  rw [ofDoc, hrecord, ok_bind, hwindow]
  simp only [hnumbers, ok_bind]
  refine congrArg (fun numbers => Except.ok (CalendarFields.mk fields.window numbers)) ?_
  funext field
  cases field <;> rfl

end CalendarFields

/-! ## Timings -/

namespace Timing

/-- The timing after runs at these times. -/
def afterRuns (t : Timing) (runs : List Instant) : Timing := runs.foldl ranAt t

@[simp] theorem afterRuns_schedule (t : Timing) (runs : List Instant) :
    (t.afterRuns runs).schedule = t.schedule := by
  induction runs generalizing t with
  | nil => rfl
  | cons now runs ih => exact ih (t.ranAt now)

end Timing

/-! ## Calendars -/

open CalendarFields

namespace Calendar

/-- The ways to make a calendar from lists: from all of them at once, by a builder, or from a
document, be it a text or a value in memory. -/
inductive MadeFrom : CalendarFields → Calendar → Prop where
  | lists (fields) : MadeFrom fields fields.calendar
  | builder (calls) : MadeFrom (calls.foldl after unrestricted) (build calls)
  | document {source d fields c} (hfields : CalendarFields.ofDoc source d = .ok fields)
      (h : Calendar.ofDoc source d = .ok c) : MadeFrom fields c

variable {a b : CalendarFields} {c c' : Calendar}

theorem MadeFrom.eq_calendar (h : MadeFrom a c) : c = a.calendar := by
  cases h with
  | lists | builder => rfl
  | document hfields h =>
    rw [ofDoc_eq_map, hfields] at h
    exact (Except.ok.inj h).symm

/-- Two calendars are the same iff they have the same window and the same numbers of each field. -/
theorem MadeFrom.eq_iff (h : MadeFrom a c) (h' : MadeFrom b c') :
    c = c' ↔ a.window = b.window ∧ a.SameSets b := by
  rw [h.eq_calendar, h'.eq_calendar, calendar_eq_calendar_iff]

/-- All lists can be written in a document. -/
theorem ofDoc_kept_lists (fields : CalendarFields) (source : DocSource) :
    Calendar.ofDoc source (kept fields.toJson) = .ok fields.calendar := by
  rw [ofDoc_eq_map, fields.ofDoc_kept, ok_map]

theorem MadeFrom.mem_allowed (h : MadeFrom a c) (field : CalendarField) (n : Nat) :
    n ∈ c.allowed field ↔
      n ∈ (a.numbers field).map UInt32.toNat ∧ field.low ≤ n ∧ n ≤ field.high := by
  rw [h.eq_calendar, allowed_calendar, ← ValueSet.mem_def]
  exact ValueSet.mem_ofList

theorem MadeFrom.allowed_eq_normalize (h : MadeFrom a c) (field : CalendarField) :
    c.allowed field =
      ValueSet.normalize field.low field.high ((a.numbers field).map UInt32.toNat) := by
  rw [h.eq_calendar, allowed_calendar]
  exact ValueSet.values_ofList _

theorem MadeFrom.allowed_ascending (h : MadeFrom a c) (field : CalendarField) :
    (c.allowed field).Pairwise (· < ·) := by
  rw [h.eq_calendar, allowed_calendar]
  exact (a.set field).ascending

/-- Lists with the same numbers of each field make the same calendar in each of the ways.  What it
allows is each list brought into order: ascending, without repeats, and with those numbers only that
the field has.  No other calendar that is made from such lists can be told from it: both allow the
same numbers, are valid or not, and are written in the same way.  The timings with them compare equal,
whenever they have run, and after the same runs they have the same next run from every reference. -/
theorem MadeFrom.depends_on_sets (h : MadeFrom a c) (hwindow : a.window = b.window)
    (hsame : a.SameSets b) :
    (b.calendar = c ∧ build b.calls = c ∧
        ∀ source, Calendar.ofDoc source (kept b.toJson) = .ok c) ∧
      (∀ field,
        c.allowed field =
          ValueSet.normalize field.low field.high ((b.numbers field).map UInt32.toNat) ∧
        (c.allowed field).Pairwise (· < ·) ∧
        ∀ n, n ∈ c.allowed field ↔
          n ∈ (b.numbers field).map UInt32.toNat ∧ field.low ≤ n ∧ n ≤ field.high) ∧
      ∀ c', MadeFrom b c' →
        (∀ field, c'.allowed field = c.allowed field) ∧ c'.isValid = c.isValid ∧
        c'.toJson = c.toJson ∧
        (∀ runs runs', Timing.sameSchedule ((Schedule.calendar c').fresh.afterRuns runs')
          ((Schedule.calendar c).fresh.afterRuns runs) = true) ∧
        ∀ runs reference, ((Schedule.calendar c').fresh.afterRuns runs).nextRunFrom reference =
          ((Schedule.calendar c).fresh.afterRuns runs).nextRunFrom reference := by
  have hmade : ∀ c', MadeFrom b c' → c' = c := fun c' h' =>
    ((h.eq_iff h').2 ⟨hwindow, hsame⟩).symm
  have heq : b.calendar = c := hmade _ (.lists b)
  have hb : MadeFrom b c := heq ▸ .lists b
  refine ⟨⟨heq, b.build_calls.trans heq, fun source => by rw [ofDoc_kept_lists, heq]⟩,
    fun field => ⟨hb.allowed_eq_normalize field, hb.allowed_ascending field,
      hb.mem_allowed field⟩, fun c' h' => ?_⟩
  rw [hmade c' h']
  refine ⟨fun _ => rfl, rfl, rfl, fun runs runs' => ?_, fun _ _ => rfl⟩
  rw [Timing.sameSchedule, Timing.afterRuns_schedule, Timing.afterRuns_schedule]
  exact decide_eq_true rfl

/-- At nine on some days of winter, in order. -/
def winterMornings : CalendarFields where
  window := .unbounded
  numbers
    | .months => [1, 12]
    | .daysOfMonth => [1, 15]
    | .hours => [9]
    | .minutes | .seconds => [0]
    | .daysOfWeek => [1, 2, 3, 4, 5, 6, 7]

/-- The same days, out of order, with repeats and with numbers that the fields do not have. -/
def winterMorningsGarbled : CalendarFields where
  window := .unbounded
  numbers
    | .months => [12, 1, 13, 0, 1]
    | .daysOfMonth => [15, 32, 1, 15]
    | .hours => [24, 9]
    | .minutes | .seconds => [0, 60, 0]
    | .daysOfWeek => [0, 7, 6, 5, 4, 3, 2, 1, 8]

theorem winterMornings_garbled :
    MadeFrom winterMornings winterMornings.calendar ∧
      winterMornings.SameSets winterMorningsGarbled ∧
      build winterMorningsGarbled.calls = winterMornings.calendar ∧
      winterMornings.calendar.allowed .months = [1, 12] := by
  have hsame : winterMornings.SameSets winterMorningsGarbled := by
    intro field n hlow hhigh
    cases field <;> simp [winterMornings, winterMorningsGarbled] <;>
      simp only [CalendarField.low, CalendarField.high] at hlow hhigh <;> omega
  obtain ⟨⟨-, hbuild, -⟩, -⟩ :=
    (MadeFrom.lists winterMornings).depends_on_sets (b := winterMorningsGarbled) rfl hsame
  exact ⟨.lists _, hsame, hbuild, by decide⟩

end Calendar

end ProbeAgent
