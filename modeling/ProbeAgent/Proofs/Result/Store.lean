import ProbeAgent.Result.Store

/-!
# The positions of a report store

The positions of a consistent store name exactly the reports that it has.  Recording and removing
keep that, so each of them changes the report of one task and no other.
-/

namespace ProbeAgent.ReportStore

/-- A task has a position if and only if the report there is its own. -/
def Consistent (store : ReportStore) : Prop :=
  ∀ id position, store.position? id = some position ↔
    ∃ report, store.reports[position]? = some report ∧ report.taskId = id

variable {store : ReportStore}

theorem empty_consistent (resultsPerTask : Nat) : (empty resultsPerTask).Consistent := by
  intro id position
  simp [empty, position?]

theorem Consistent.report?_eq_some_iff (h : store.Consistent) {id : TaskId} {report : Report} :
    store.report? id = some report ↔ report ∈ store.reports ∧ report.taskId = id := by
  rw [report?, Option.bind_eq_bind, Option.bind_eq_some_iff]
  constructor
  · rintro ⟨position, hposition, hreport⟩
    obtain ⟨report', hreport', hid⟩ := (h id position).1 hposition
    rw [hreport] at hreport'
    cases hreport'
    exact ⟨List.mem_of_getElem? hreport, hid⟩
  · rintro ⟨hmem, hid⟩
    obtain ⟨position, hposition⟩ := List.getElem?_of_mem hmem
    exact ⟨position, (h id position).2 ⟨report, hposition, hid⟩, hposition⟩

/-! ## Recording -/

theorem record_of_position? (h : store.Consistent) {id : TaskId} {position : Nat}
    (hposition : store.position? id = some position) (time : Instant) (result : RunResult) :
    ∃ report, store.reports[position]? = some report ∧ report.taskId = id ∧
      store.record id time result =
        ({ store with reports := store.reports.set position (store.extend report time result) },
          .modified position (store.extend report time result)) := by
  obtain ⟨report, hreport, hid⟩ := (h id position).1 hposition
  have hreport? : store.report? id = some report := by
    rw [report?, hposition]
    exact hreport
  exact ⟨report, hreport, hid, by rw [record, hposition, hreport?]⟩

theorem record_of_absent {id : TaskId} (habsent : store.position? id = none) (time : Instant)
    (result : RunResult) :
    store.record id time result =
      ({ store with
          reports := store.reports ++ [⟨id, time, [result]⟩]
          positions := (id, store.reports.length) :: store.positions },
        .added store.reports.length ⟨id, time, [result]⟩) := by
  rw [record, habsent]

theorem record_capacity (id : TaskId) (time : Instant) (result : RunResult) :
    (store.record id time result).1.capacity = store.capacity := by
  unfold record
  split <;> rfl

theorem record_event (h : store.Consistent) (id : TaskId) (time : Instant) (result : RunResult) :
    (store.record id time result).2.taskId = id ∧
      (store.record id time result).2.report.reportTime = time := by
  cases hposition : store.position? id with
  | none =>
    rw [record_of_absent hposition]
    exact ⟨rfl, rfl⟩
  | some position =>
    obtain ⟨report, -, hid, hrecord⟩ := record_of_position? h hposition time result
    rw [hrecord]
    exact ⟨hid, rfl⟩

private theorem getElem?_concat_eq_some_iff {α : Type} {l : List α} {a b : α} {i : Nat} :
    (l ++ [a])[i]? = some b ↔ l[i]? = some b ∨ i = l.length ∧ a = b := by
  rcases Nat.lt_trichotomy i l.length with hlt | rfl | hgt
  · rw [List.getElem?_append_left hlt]
    simp [Nat.ne_of_lt hlt]
  · rw [List.getElem?_concat_length, List.getElem?_eq_none (Nat.le_refl _)]
    simp
  · rw [List.getElem?_eq_none (by simp; omega), List.getElem?_eq_none (Nat.le_of_lt hgt)]
    simp [Nat.ne_of_gt hgt]

theorem record_consistent (h : store.Consistent) (id : TaskId) (time : Instant)
    (result : RunResult) : (store.record id time result).1.Consistent := by
  intro other position
  cases hposition : store.position? id with
  | none =>
    -- A new report stands after all others, and no other one is of its task.
    have hnew {report : Report} (hreport : store.reports[position]? = some report) :
        report.taskId ≠ id := by
      intro hid
      rw [(h id position).2 ⟨report, hreport, hid⟩] at hposition
      contradiction
    rw [record_of_absent hposition]
    simp only [position?, List.lookup_cons, getElem?_concat_eq_some_iff]
    by_cases hother : other = id
    · subst hother
      simp only [BEq.rfl, Option.some.injEq]
      constructor
      · rintro rfl
        exact ⟨_, .inr ⟨rfl, rfl⟩, rfl⟩
      · rintro ⟨report, hreport | ⟨rfl, -⟩, hid⟩
        · exact absurd hid (hnew hreport)
        · rfl
    · have hbeq : (other == id) = false := by simpa using hother
      rw [hbeq]
      refine (h other position).trans ?_
      constructor
      · rintro ⟨report, hreport, hid⟩
        exact ⟨report, .inl hreport, hid⟩
      · rintro ⟨report, hreport | ⟨-, rfl⟩, hid⟩
        · exact ⟨report, hreport, hid⟩
        · exact absurd hid.symm hother
  | some place =>
    -- The report that takes the place of the old one is of the same task.
    obtain ⟨old, hold, hid, hrecord⟩ := record_of_position? h hposition time result
    rw [hrecord]
    refine (h other position).trans ?_
    simp only
    rw [List.getElem?_set]
    by_cases hplace : place = position
    · subst hplace
      have hlt := (List.getElem?_eq_some_iff.1 hold).1
      simp only [if_pos, hlt, Option.some.injEq, hold, exists_eq_left']
      rfl
    · rw [if_neg hplace]

theorem report?_record_of_ne (h : store.Consistent) {id other : TaskId} (hne : other ≠ id)
    (time : Instant) (result : RunResult) :
    (store.record id time result).1.report? other = store.report? other := by
  have hbeq : (other == id) = false := by simpa using hne
  cases hposition : store.position? id with
  | none =>
    rw [record_of_absent hposition]
    simp only [report?, position?, List.lookup_cons, hbeq]
    cases hother : store.position? other with
    | none =>
      rw [position?] at hother
      rw [hother]
      rfl
    | some position =>
      obtain ⟨report, hreport, -⟩ := (h other position).1 hother
      rw [position?] at hother
      rw [hother]
      exact List.getElem?_append_left (List.getElem?_eq_some_iff.1 hreport).1
  | some place =>
    obtain ⟨old, hold, hid, hrecord⟩ := record_of_position? h hposition time result
    rw [hrecord]
    simp only [report?, position?]
    cases hother : store.position? other with
    | none =>
      rw [position?] at hother
      rw [hother]
      rfl
    | some position =>
      -- Two tasks do not share a position.
      have hplace : place ≠ position := by
        rintro rfl
        obtain ⟨report, hreport, hid'⟩ := (h other place).1 hother
        rw [hold] at hreport
        cases hreport
        exact hne (hid'.symm.trans hid)
      rw [position?] at hother
      rw [hother]
      exact List.getElem?_set_ne hplace

/-- The event of a record tells what the store has from then on. -/
theorem report?_record_self (h : store.Consistent) (id : TaskId) (time : Instant)
    (result : RunResult) :
    (store.record id time result).1.report? id = some (store.record id time result).2.report := by
  have hafter := record_consistent h id time result
  apply hafter.report?_eq_some_iff.2
  refine ⟨?_, (record_event h id time result).1⟩
  cases hposition : store.position? id with
  | none =>
    rw [record_of_absent hposition]
    exact List.mem_concat_self
  | some position =>
    obtain ⟨report, hreport, -, hrecord⟩ := record_of_position? h hposition time result
    rw [hrecord]
    exact List.mem_set (List.getElem?_eq_some_iff.1 hreport).1 _

/-! ## Removing -/

private theorem lookup_filter_map (id other : TaskId) (f : Nat → Nat) (l : List (TaskId × Nat)) :
    ((l.filter fun (entry, _) => entry ≠ id).map fun (entry, p) => (entry, f p)).lookup other =
      if other = id then none else (l.lookup other).map f := by
  induction l with
  | nil => simp
  | cons entry rest ih =>
    obtain ⟨key, p⟩ := entry
    by_cases hkey : key = id
    · subst hkey
      rw [List.filter_cons_of_neg (by simp), ih, List.lookup_cons]
      by_cases hother : other = key
      · rw [if_pos hother, if_pos hother]
      · rw [if_neg hother, if_neg hother, show (other == key) = false by simpa using hother]
    · rw [List.filter_cons_of_pos (by simpa using hkey), List.map_cons, List.lookup_cons, ih,
        List.lookup_cons]
      by_cases hother : other = key
      · subst hother
        simp [hkey]
      · rw [show (other == key) = false by simpa using hother]

theorem remove_consistent (h : store.Consistent) (id : TaskId) :
    (store.remove id).1.Consistent := by
  intro other position
  rw [remove]
  cases hplace : store.position? id with
  | none => exact h other position
  | some place =>
    obtain ⟨gone, hgone, hid⟩ := (h id place).1 hplace
    have hne {report : Report} (hreport : store.reports[place]? = some report)
        (hother : other ≠ id) : report.taskId ≠ other := by
      rw [hgone] at hreport
      cases hreport
      rw [hid]
      exact hother.symm
    simp only [position?, List.getElem?_eraseIdx]
    rw [lookup_filter_map id other fun p => if place < p then p - 1 else p, ← position?]
    by_cases hother : other = id
    · subst hother
      simp only [if_pos]
      constructor
      · intro hnone
        contradiction
      · rintro ⟨report, hreport, hid'⟩
        -- Another report of the task would have a position of its own.
        split at hreport
        · have := (h other position).2 ⟨report, hreport, hid'⟩
          rw [hplace] at this
          cases this
          omega
        · have := (h other (position + 1)).2 ⟨report, hreport, hid'⟩
          rw [hplace] at this
          cases this
          omega
    · -- Reports after the removed one have moved up by one, and so have their positions.
      rw [if_neg hother, Option.map_eq_some_iff]
      constructor
      · rintro ⟨old, hold, rfl⟩
        obtain ⟨report, hreport, hid'⟩ := (h other old).1 hold
        have hold' : old ≠ place := by
          rintro rfl
          exact hne hreport hother hid'
        refine ⟨report, ?_, hid'⟩
        by_cases hlt : place < old
        · rw [if_pos hlt, if_neg (by omega), Nat.sub_add_cancel (by omega)]
          exact hreport
        · rw [if_neg hlt, if_pos (by omega)]
          exact hreport
      · rintro ⟨report, hreport, hid'⟩
        split at hreport
        · rename_i hlt
          exact ⟨position, (h other position).2 ⟨report, hreport, hid'⟩, by rw [if_neg (by omega)]⟩
        · rename_i hge
          exact ⟨position + 1, (h other (position + 1)).2 ⟨report, hreport, hid'⟩,
            by rw [if_pos (by omega), Nat.add_sub_cancel]⟩

theorem remove_capacity (id : TaskId) : (store.remove id).1.capacity = store.capacity := by
  unfold remove
  split <;> rfl

theorem remove_reports_sublist (id : TaskId) :
    (store.remove id).1.reports.Sublist store.reports := by
  unfold remove
  split
  · exact List.Sublist.refl _
  · exact List.eraseIdx_sublist _ _

theorem mem_reports_remove (h : store.Consistent) {id : TaskId} {report : Report} :
    report ∈ (store.remove id).1.reports ↔ report ∈ store.reports ∧ report.taskId ≠ id := by
  rw [remove]
  cases hplace : store.position? id with
  | none =>
    have hother (hmem : report ∈ store.reports) : report.taskId ≠ id := by
      intro hid
      obtain ⟨position, hreport⟩ := List.getElem?_of_mem hmem
      rw [(h id position).2 ⟨report, hreport, hid⟩] at hplace
      contradiction
    exact ⟨fun hmem => ⟨hmem, hother hmem⟩, And.left⟩
  | some place =>
    simp only [List.mem_eraseIdx_iff_getElem?]
    constructor
    · rintro ⟨position, hne, hreport⟩
      refine ⟨List.mem_of_getElem? hreport, ?_⟩
      intro hid
      rw [(h id position).2 ⟨report, hreport, hid⟩] at hplace
      cases hplace
      contradiction
    · rintro ⟨hmem, hother⟩
      obtain ⟨position, hreport⟩ := List.getElem?_of_mem hmem
      refine ⟨position, ?_, hreport⟩
      rintro rfl
      obtain ⟨gone, hgone, hid⟩ := (h id position).1 hplace
      rw [hreport] at hgone
      cases hgone
      contradiction

theorem report?_remove (h : store.Consistent) (id other : TaskId) :
    (store.remove id).1.report? other = if other = id then none else store.report? other := by
  have hafter := remove_consistent h id
  apply Option.ext
  intro report
  rw [hafter.report?_eq_some_iff, mem_reports_remove h]
  by_cases hother : other = id
  · subst hother
    simp
  · rw [if_neg hother, h.report?_eq_some_iff]
    constructor
    · rintro ⟨⟨hmem, -⟩, hid⟩
      exact ⟨hmem, hid⟩
    · rintro ⟨hmem, rfl⟩
      exact ⟨⟨hmem, hother⟩, rfl⟩

/-! ## The index -/

/-- No task has two positions, also as a later one that a lookup does not reach. -/
def UniqueKeys (store : ReportStore) : Prop := (store.positions.map Prod.fst).Nodup

theorem empty_uniqueKeys (resultsPerTask : Nat) : (empty resultsPerTask).UniqueKeys :=
  List.nodup_nil

theorem record_uniqueKeys (h : store.Consistent) (hkeys : store.UniqueKeys) (id : TaskId)
    (time : Instant) (result : RunResult) : (store.record id time result).1.UniqueKeys := by
  cases hposition : store.position? id with
  | none =>
    rw [record_of_absent hposition]
    rw [position?, List.lookup_eq_none_iff] at hposition
    refine List.nodup_cons.2 ⟨?_, hkeys⟩
    intro hmem
    obtain ⟨⟨key, position⟩, hentry, rfl⟩ := List.mem_map.1 hmem
    simpa using hposition _ hentry
  | some position =>
    obtain ⟨_, -, -, hrecord⟩ := record_of_position? h hposition time result
    rw [hrecord]
    exact hkeys

theorem remove_uniqueKeys (hkeys : store.UniqueKeys) (id : TaskId) :
    (store.remove id).1.UniqueKeys := by
  rw [remove]
  cases store.position? id with
  | none => exact hkeys
  | some place =>
    unfold UniqueKeys
    rw [List.map_map]
    exact (List.filter_sublist.map Prod.fst).nodup hkeys

theorem UniqueKeys.mem_positions_iff (hkeys : store.UniqueKeys) {id : TaskId} {position : Nat} :
    (id, position) ∈ store.positions ↔ store.position? id = some position := by
  unfold UniqueKeys position? at *
  generalize store.positions = positions at hkeys
  induction positions with
  | nil => simp
  | cons entry rest ih =>
    obtain ⟨key, place⟩ := entry
    obtain ⟨hnew, hrest⟩ := List.nodup_cons.1 hkeys
    rw [List.mem_cons, List.lookup_cons, ih hrest]
    by_cases hid : id = key
    · subst hid
      have habsent : rest.lookup id ≠ some position := by
        intro hlookup
        exact hnew (List.mem_map.2 ⟨_, (ih hrest).2 hlookup, rfl⟩)
      simp [habsent, eq_comm]
    · simp [hid, show (id == key) = false by simpa using hid]

end ProbeAgent.ReportStore
