import Mathlib.Data.List.DropRight
import ProbeAgent.Proofs.Result.Store

/-!
# A report store against the log of its calls

What a store holds is read off the list of the calls that were made on it: the report of a task is
made of what was recorded for it since its last removal, and the reports stand in the order in
which those records began.
-/

namespace ProbeAgent.ReportStore

/-- A call that changes a store. -/
inductive Call where
  | record (id : TaskId) (time : Instant) (result : RunResult)
  | remove (id : TaskId)

namespace Call

def taskId : Call → TaskId
  | record id _ _ => id
  | remove id => id

def removes (id : TaskId) : Call → Bool
  | record .. => false
  | remove other => other = id

theorem removes_of_ne {call : Call} {id : TaskId} (h : id ≠ call.taskId) :
    call.removes id = false := by
  cases call with
  | record other time result => rfl
  | remove other => exact decide_eq_false h.symm

/-- What the call records for a task. -/
def recorded? (id : TaskId) : Call → Option (Instant × RunResult)
  | record other time result => if other = id then some (time, result) else none
  | remove _ => none

end Call

def after (store : ReportStore) : Call → ReportStore
  | .record id time result => (store.record id time result).1
  | .remove id => (store.remove id).1

/-- A new store after a list of calls. -/
def ofCalls (resultsPerTask : Nat) (calls : List Call) : ReportStore :=
  calls.foldl after (empty resultsPerTask)

/-! ## The log -/

/-- The calls up to the last removal of a task. -/
def upToRemoval (calls : List Call) (id : TaskId) : List Call :=
  calls.rdropWhile (!·.removes id)

def sinceRemoval (calls : List Call) (id : TaskId) : List Call :=
  calls.rtakeWhile (!·.removes id)

/-- What was recorded for a task since its last removal, oldest first. -/
def entries (calls : List Call) (id : TaskId) : List (Instant × RunResult) :=
  (sinceRemoval calls id).filterMap (·.recorded? id)

/-- The number of calls before the first record of a task since its last removal. -/
def firstEntry (calls : List Call) (id : TaskId) : Nat :=
  (upToRemoval calls id).length +
    (sinceRemoval calls id).findIdx fun call => (call.recorded? id).isSome

/-- The report that the entries of a task make: their last time, and as many of the last results
as the capacity allows. -/
def logged? (capacity : Nat) (calls : List Call) (id : TaskId) : Option Report :=
  (entries calls id).getLast?.map fun last =>
    ⟨id, last.1, ((entries calls id).map Prod.snd).rtake capacity⟩

variable {store : ReportStore} {calls : List Call} {id other : TaskId}

section

variable {call : Call}

theorem sinceRemoval_concat (h : call.removes id = false) :
    sinceRemoval (calls ++ [call]) id = sinceRemoval calls id ++ [call] :=
  List.rtakeWhile_concat_pos _ _ _ (by simp [h])

theorem upToRemoval_concat (h : call.removes id = false) :
    upToRemoval (calls ++ [call]) id = upToRemoval calls id :=
  List.rdropWhile_concat_pos _ _ _ (by simp [h])

theorem length_upToRemoval_add (calls : List Call) (id : TaskId) :
    (upToRemoval calls id).length + (sinceRemoval calls id).length = calls.length := by
  rw [← List.length_append, upToRemoval, sinceRemoval, List.rdropWhile_append_rtakeWhile]

theorem entries_concat (h : call.removes id = false) :
    entries (calls ++ [call]) id = entries calls id ++ (call.recorded? id).toList := by
  rw [entries, sinceRemoval_concat h, List.filterMap_append, ← entries]
  cases hrecorded : call.recorded? id <;> simp [hrecorded]

theorem entries_concat_of_ne (h : id ≠ call.taskId) :
    entries (calls ++ [call]) id = entries calls id := by
  have hrecorded : call.recorded? id = none := by
    cases call with
    | record other time result => exact if_neg h.symm
    | remove other => rfl
  rw [entries_concat (Call.removes_of_ne h), hrecorded, Option.toList_none, List.append_nil]

theorem entries_concat_remove : entries (calls ++ [.remove id]) id = [] := by
  rw [entries, sinceRemoval, List.rtakeWhile_concat_neg _ _ _ (by simp [Call.removes]),
    List.filterMap_nil]

theorem exists_recorded_iff :
    (∃ call ∈ sinceRemoval calls id, (call.recorded? id).isSome) ↔ entries calls id ≠ [] := by
  simp only [entries, ne_eq, List.filterMap_eq_nil_iff, not_forall, Option.isSome_iff_ne_none,
    exists_prop]

theorem firstEntry_lt (h : entries calls id ≠ []) : firstEntry calls id < calls.length := by
  have hfirst := List.findIdx_lt_length.2 (exists_recorded_iff.2 h)
  have hlength := length_upToRemoval_add calls id
  unfold firstEntry
  omega

/-- A later call does not move the first entry, if it keeps the entries. -/
theorem firstEntry_concat (h : entries calls id ≠ []) (hcall : call.removes id = false) :
    firstEntry (calls ++ [call]) id = firstEntry calls id := by
  have hfirst := List.findIdx_lt_length.2 (exists_recorded_iff.2 h)
  rw [firstEntry, firstEntry, upToRemoval_concat hcall, sinceRemoval_concat hcall,
    List.findIdx_append, if_pos hfirst]

end

theorem firstEntry_concat_record (h : entries calls id = []) (time : Instant)
    (result : RunResult) : firstEntry (calls ++ [.record id time result]) id = calls.length := by
  have hfirst : ¬ (sinceRemoval calls id).findIdx (fun call => (call.recorded? id).isSome) <
      (sinceRemoval calls id).length := by
    rw [List.findIdx_lt_length, exists_recorded_iff]
    exact not_not.2 h
  rw [firstEntry, upToRemoval_concat rfl, sinceRemoval_concat rfl, List.findIdx_append,
    if_neg hfirst, ← length_upToRemoval_add calls id]
  simp [Call.recorded?]

theorem logged?_concat_record (capacity : Nat) (calls : List Call) (id : TaskId) (time : Instant)
    (result : RunResult) :
    logged? capacity (calls ++ [.record id time result]) id =
      some ⟨id, time, ((entries calls id).map Prod.snd ++ [result]).rtake capacity⟩ := by
  have hentries : entries (calls ++ [.record id time result]) id =
      entries calls id ++ [(time, result)] := by
    rw [entries_concat rfl, Call.recorded?, if_pos rfl, Option.toList_some]
  rw [logged?, hentries, List.getLast?_concat, Option.map_some, List.map_append]
  rfl

theorem logged?_eq_none_iff {capacity : Nat} :
    logged? capacity calls id = none ↔ entries calls id = [] := by
  rw [logged?, Option.map_eq_none_iff, List.getLast?_eq_none_iff]

theorem logged?_congr {capacity : Nat} {later : List Call}
    (h : entries later id = entries calls id) :
    logged? capacity later id = logged? capacity calls id := by
  rw [logged?, logged?, h]

/-- The results that are dropped of a full list would be dropped of the whole list as well. -/
theorem rtake_concat_rtake {α : Type} (n : Nat) (l : List α) (a : α) :
    (l.rtake n ++ [a]).rtake n = (l ++ [a]).rtake n := by
  cases n with
  | zero => rw [List.rtake_zero, List.rtake_zero]
  | succ n =>
    rw [List.rtake_concat_succ, List.rtake_concat_succ]
    unfold List.rtake
    rw [List.drop_drop, List.length_drop]
    congr 2
    omega

theorem rtake_singleton {α : Type} {n : Nat} (hn : 0 < n) (a : α) : [a].rtake n = [a] := by
  unfold List.rtake
  rw [List.length_singleton, Nat.sub_eq_zero_of_le hn, List.drop_zero]

/-! ## The store follows the log -/

/-- All that a store has is what its calls make. -/
structure Follows (store : ReportStore) (calls : List Call) : Prop where
  consistent : store.Consistent
  uniqueKeys : store.UniqueKeys
  report?_eq : ∀ id, store.report? id = logged? store.capacity calls id
  ordered : (store.reports.map (·.taskId)).Pairwise fun id other =>
    firstEntry calls id < firstEntry calls other

namespace Follows

theorem entries_eq_nil_iff (h : Follows store calls) :
    entries calls id = [] ↔ store.position? id = none := by
  rw [← logged?_eq_none_iff, ← h.report?_eq id, report?, Option.bind_eq_bind,
    Option.bind_eq_none_iff]
  constructor
  · intro hnone
    cases hposition : store.position? id with
    | none => rfl
    | some position =>
      obtain ⟨report, hreport, -⟩ := (h.consistent id position).1 hposition
      rw [hnone position hposition] at hreport
      contradiction
  · intro hnone position hposition
    rw [hnone] at hposition
    contradiction

theorem mem_ids_iff (h : Follows store calls) :
    id ∈ store.reports.map (·.taskId) ↔ entries calls id ≠ [] := by
  rw [Ne, ← logged?_eq_none_iff, ← h.report?_eq id, ← Ne, Option.ne_none_iff_exists',
    List.mem_map]
  simp only [h.consistent.report?_eq_some_iff]

theorem ordered_of_firstEntry_eq (h : Follows store calls) {later : List Call}
    {ids : List TaskId} (hsub : ids.Sublist (store.reports.map (·.taskId)))
    (heq : ∀ id ∈ ids, entries calls id ≠ [] → firstEntry later id = firstEntry calls id) :
    ids.Pairwise fun id other => firstEntry later id < firstEntry later other := by
  refine List.Pairwise.imp_of_mem ?_ (h.ordered.sublist hsub)
  intro id other hid hother hlt
  rw [heq id hid (h.mem_ids_iff.1 (hsub.subset hid)),
    heq other hother (h.mem_ids_iff.1 (hsub.subset hother))]
  exact hlt

theorem empty (resultsPerTask : Nat) : Follows (.empty resultsPerTask) [] where
  consistent := empty_consistent resultsPerTask
  uniqueKeys := empty_uniqueKeys resultsPerTask
  report?_eq _ := rfl
  ordered := List.Pairwise.nil

theorem report?_record (h : Follows store calls) (id other : TaskId) (time : Instant)
    (result : RunResult) :
    (store.record id time result).1.report? other =
      logged? store.capacity (calls ++ [.record id time result]) other := by
  by_cases hother : other = id
  · subst hother
    rw [report?_record_self h.consistent, logged?_concat_record]
    congr 1
    cases hposition : store.position? other with
    | none =>
      rw [record_of_absent hposition, h.entries_eq_nil_iff.2 hposition, List.map_nil,
        List.nil_append, rtake_singleton store.capacity_pos]
      rfl
    | some position =>
      obtain ⟨report, hreport, hid, hrecord⟩ :=
        record_of_position? h.consistent hposition time result
      rw [hrecord]
      have hlogged : logged? store.capacity calls other = some report := by
        rw [← h.report?_eq other]
        exact h.consistent.report?_eq_some_iff.2 ⟨List.mem_of_getElem? hreport, hid⟩
      obtain ⟨last, -, rfl⟩ := Option.map_eq_some_iff.1 hlogged
      show Report.mk other time _ = Report.mk other time _
      rw [← rtake_concat_rtake]
      rfl
  · rw [report?_record_of_ne h.consistent hother, h.report?_eq other]
    exact (logged?_congr (entries_concat_of_ne hother)).symm

theorem ordered_record (h : Follows store calls) (id : TaskId) (time : Instant)
    (result : RunResult) :
    ((store.record id time result).1.reports.map (·.taskId)).Pairwise fun one other =>
      firstEntry (calls ++ [.record id time result]) one <
        firstEntry (calls ++ [.record id time result]) other := by
  have hkept : ∀ one, entries calls one ≠ [] →
      firstEntry (calls ++ [.record id time result]) one = firstEntry calls one :=
    fun _ hone => firstEntry_concat hone rfl
  have hold := h.ordered_of_firstEntry_eq (List.Sublist.refl _) fun one _ => hkept one
  cases hposition : store.position? id with
  | none =>
    -- The report of a task without entries is new, and stands last.
    have hnew := h.entries_eq_nil_iff.2 hposition
    rw [record_of_absent hposition, List.map_append, List.pairwise_append]
    refine ⟨hold, List.pairwise_singleton _ _, ?_⟩
    intro one hone other hother
    obtain rfl : other = id := by simpa using hother
    have hentries := h.mem_ids_iff.1 hone
    rw [firstEntry_concat_record hnew, hkept one hentries]
    exact firstEntry_lt hentries
  | some position =>
    obtain ⟨report, hreport, hid, hrecord⟩ :=
      record_of_position? h.consistent hposition time result
    -- The report that is extended keeps its place and its task.
    obtain ⟨hlt, rfl⟩ := List.getElem?_eq_some_iff.1 hreport
    have hids : (store.reports.set position (store.extend store.reports[position] time result)).map
        (·.taskId) = store.reports.map (·.taskId) := by
      have hplace : position < (store.reports.map (·.taskId)).length := by simpa using hlt
      have htask : (store.extend store.reports[position] time result).taskId =
          (store.reports.map (·.taskId))[position] := by simp [extend]
      rw [List.map_set, htask, List.set_getElem_self]
    rw [hrecord, hids]
    exact hold

theorem record (h : Follows store calls) (id : TaskId) (time : Instant) (result : RunResult) :
    Follows (store.record id time result).1 (calls ++ [.record id time result]) where
  consistent := record_consistent h.consistent id time result
  uniqueKeys := record_uniqueKeys h.consistent h.uniqueKeys id time result
  report?_eq other := by
    rw [record_capacity, h.report?_record]
  ordered := h.ordered_record id time result

theorem remove (h : Follows store calls) (id : TaskId) :
    Follows (store.remove id).1 (calls ++ [.remove id]) where
  consistent := remove_consistent h.consistent id
  uniqueKeys := remove_uniqueKeys h.uniqueKeys id
  report?_eq other := by
    rw [remove_capacity, report?_remove h.consistent]
    by_cases hother : other = id
    · rw [if_pos hother, hother]
      exact (logged?_eq_none_iff.2 entries_concat_remove).symm
    · rw [if_neg hother, h.report?_eq other]
      exact (logged?_congr (entries_concat_of_ne hother)).symm
  ordered := by
    apply h.ordered_of_firstEntry_eq ((remove_reports_sublist id).map _)
    intro other hmem hentries
    obtain ⟨report, hreport, rfl⟩ := List.mem_map.1 hmem
    exact firstEntry_concat hentries
      (Call.removes_of_ne ((mem_reports_remove h.consistent).1 hreport).2)

theorem after (h : Follows store calls) (call : Call) :
    Follows (store.after call) (calls ++ [call]) := by
  cases call with
  | record id time result => exact h.record id time result
  | remove id => exact h.remove id

theorem ofCalls (resultsPerTask : Nat) (calls : List Call) :
    Follows (ofCalls resultsPerTask calls) calls := by
  -- Calls are made at the end of the list.
  induction calls using List.reverseRecOn with
  | nil => exact .empty resultsPerTask
  | append_singleton calls call ih =>
    rw [ReportStore.ofCalls, List.foldl_concat]
    exact ih.after call

theorem nodup_ids (h : Follows store calls) : (store.reports.map (·.taskId)).Nodup := by
  refine h.ordered.imp ?_
  rintro id other hlt rfl
  exact Nat.lt_irrefl _ hlt

theorem record_of_entries (h : Follows store calls) (hentries : entries calls id ≠ [])
    (time : Instant) (result : RunResult) :
    ∃ position report, store.position? id = some position ∧
      (store.record id time result).1.report? id = some report ∧
      (store.record id time result).2 = .modified position report := by
  rw [Ne, h.entries_eq_nil_iff, ← Ne, Option.ne_none_iff_exists'] at hentries
  obtain ⟨position, hposition⟩ := hentries
  obtain ⟨report, -, -, hrecord⟩ := record_of_position? h.consistent hposition time result
  refine ⟨position, store.extend report time result, hposition, ?_, by rw [hrecord]⟩
  rw [report?_record_self h.consistent, hrecord]
  rfl

end Follows

theorem ofCalls_capacity (resultsPerTask : Nat) (calls : List Call) :
    (ofCalls resultsPerTask calls).capacity = max 1 resultsPerTask := by
  induction calls using List.reverseRecOn with
  | nil => rfl
  | append_singleton calls call ih =>
    rw [ofCalls, List.foldl_concat, ← ih]
    cases call with
    | record id time result => exact record_capacity id time result
    | remove id => exact remove_capacity id

theorem report?_after_of_ne (h : store.Consistent) {call : Call} (hne : id ≠ call.taskId) :
    (store.after call).report? id = store.report? id := by
  cases call with
  | record other time result => exact report?_record_of_ne h hne time result
  | remove other =>
    rw [after, report?_remove h]
    exact if_neg hne

/-- A store has what the log of its calls says: a report for each task with entries, made of the
last of them, in the order in which the entries began; and its index has those places only. -/
theorem ofCalls_refines_log (resultsPerTask : Nat) (calls : List Call) :
    let store := ofCalls resultsPerTask calls
    (∀ id, ((store.report? id).isSome ↔ entries calls id ≠ []) ∧
      store.report? id = (entries calls id).getLast?.map fun (time, _) =>
        { taskId := id
          reportTime := time
          results := ((entries calls id).map Prod.snd).rtake (max 1 resultsPerTask) }) ∧
    (∀ report, report ∈ store.reports ↔ store.report? report.taskId = some report) ∧
    (store.reports.map (·.taskId)).Nodup ∧
    ((store.reports.map (·.taskId)).Pairwise fun id other =>
      firstEntry calls id < firstEntry calls other) ∧
    (store.positions.map Prod.fst).Nodup ∧
    (∀ id position, ((id, position) ∈ store.positions ↔ store.position? id = some position) ∧
      (store.position? id = some position ↔
        ∃ report, store.reports[position]? = some report ∧ report.taskId = id)) ∧
    (∀ id time result,
      (entries calls id = [] → (store.record id time result).2 =
        .added store.reports.length { taskId := id, reportTime := time, results := [result] }) ∧
      (entries calls id ≠ [] → ∃ position report, store.position? id = some position ∧
        (store.record id time result).1.report? id = some report ∧
        (store.record id time result).2 = .modified position report)) ∧
    ∀ call id, id ≠ Call.taskId call → (store.after call).report? id = store.report? id := by
  intro store
  have h : Follows store calls := Follows.ofCalls resultsPerTask calls
  have hlogged (id : TaskId) : store.report? id = logged? (max 1 resultsPerTask) calls id := by
    rw [h.report?_eq id, ofCalls_capacity]
  refine ⟨fun id => ⟨?_, hlogged id⟩, ?_, h.nodup_ids, h.ordered, h.uniqueKeys, ?_, ?_, ?_⟩
  · rw [Option.isSome_iff_ne_none, hlogged id, Ne, logged?_eq_none_iff]
  · intro report
    rw [h.consistent.report?_eq_some_iff]
    exact ⟨fun hmem => ⟨hmem, rfl⟩, And.left⟩
  · intro id position
    exact ⟨h.uniqueKeys.mem_positions_iff, h.consistent id position⟩
  · intro id time result
    refine ⟨fun hnil => ?_, fun hentries => h.record_of_entries hentries time result⟩
    rw [record_of_absent (h.entries_eq_nil_iff.1 hnil)]
  · intro call id hne
    exact report?_after_of_ne h.consistent hne

end ProbeAgent.ReportStore
