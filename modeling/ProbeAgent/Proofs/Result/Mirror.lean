import ProbeAgent.Result.Feed
import ProbeAgent.Proofs.Result.Log

/-!
# Mirrors of a report store

A subscriber starts with the reports that a store has at some moment, and from then on puts the
report of each event in its place in a list of its own.  As long as it has missed no event, every
event fits, and the events that it has not taken yet lead from its list to the reports of the store
(`mirror_catches_up`).
-/

namespace ProbeAgent

namespace ReportEvent

/-- The reports after an event.  An event does not fit other reports than those it is about: a
report is added at their end, or takes the place of one of the same task. -/
def applyTo? (event : ReportEvent) (reports : List Report) : Option (List Report) :=
  match event with
  | added position report =>
    if position = reports.length then some (reports ++ [report]) else none
  | modified position report => do
    let old ← reports[position]?
    if old.taskId = report.taskId then some (reports.set position report) else none

/-- The reports after a list of events, oldest first. -/
def applyAll? (events : List ReportEvent) (reports : List Report) : Option (List Report) :=
  events.foldlM (fun reports event => event.applyTo? reports) reports

@[simp] theorem applyAll?_nil : applyAll? [] = some := rfl

theorem applyAll?_concat (events : List ReportEvent) (event : ReportEvent) :
    applyAll? (events ++ [event]) = fun reports =>
      (applyAll? events reports).bind event.applyTo? := by
  funext reports
  unfold applyAll?
  rw [List.foldlM_append]
  simp

end ReportEvent

/-- A push that is not missed is the last one to be taken. -/
theorem Feed.pending_push {α : Type} {feed : Feed α} {event : α}
    (h : (feed.push event).missed = 0) :
    feed.missed = 0 ∧ (feed.push event).pending = feed.pending ++ [event] := by
  unfold push at *
  simp only at h ⊢
  by_cases hfull : capacity < (feed.pending ++ [event]).length
  · rw [if_pos hfull] at h
    exact absurd h (Nat.succ_ne_zero feed.missed)
  · rw [if_neg hfull] at h ⊢
    exact ⟨h, rfl⟩

namespace ReportStore

/-- The event of a record leads from the reports before it to those after it. -/
theorem applyTo?_record {store : ReportStore} (h : store.Consistent) (id : TaskId)
    (time : Instant) (result : RunResult) :
    (store.record id time result).2.applyTo? store.reports =
      some (store.record id time result).1.reports := by
  cases hposition : store.position? id with
  | none =>
    rw [record_of_absent hposition]
    simp [ReportEvent.applyTo?]
  | some position =>
    -- The report in that place is of the same task, and stays so when it is extended.
    obtain ⟨report, hreport, -, hrecord⟩ := record_of_position? h hposition time result
    rw [hrecord]
    simp [ReportEvent.applyTo?, hreport, extend]

/-- A store with one of its subscribers. -/
structure Subscription where
  store : ReportStore
  feed : Feed ReportEvent
  -- What the subscriber has made of the events that it has taken; `none` once one did not fit.
  mirror : Option (List Report)

namespace Subscription

inductive Step where
  -- A result is recorded, by whichever producer.
  | record (id : TaskId) (time : Instant) (result : RunResult)
  -- The subscriber takes the oldest event that it has not taken, if there is one.
  | take

def Step.call? : Step → Option Call
  | record id time result => some (.record id time result)
  | take => none

/-- The subscriber has asked for the reports, and taken no event. -/
def ofStore (store : ReportStore) : Subscription := ⟨store, .empty, some store.reports⟩

def after (s : Subscription) : Step → Subscription
  | .record id time result =>
    let (store, event) := s.store.record id time result
    { s with store := store, feed := s.feed.push event }
  | .take =>
    match s.feed.pending with
    | [] => s
    | event :: rest =>
      { s with feed := { s.feed with pending := rest }, mirror := s.mirror.bind event.applyTo? }

def afterAll (s : Subscription) (steps : List Step) : Subscription := steps.foldl after s

/-! ## Catching up -/

/-- Unless the subscriber has missed something, the events that it has not taken lead from its
mirror to the reports of the store. -/
structure CatchesUp (s : Subscription) : Prop where
  consistent : s.store.Consistent
  applyAll? : s.feed.missed = 0 →
    s.mirror.bind (ReportEvent.applyAll? s.feed.pending) = some s.store.reports

variable {s : Subscription}

theorem ofStore_catchesUp {store : ReportStore} (h : store.Consistent) :
    (ofStore store).CatchesUp where
  consistent := h
  applyAll? := fun _ => rfl

theorem CatchesUp.record (h : s.CatchesUp) (id : TaskId) (time : Instant) (result : RunResult) :
    (s.after (.record id time result)).CatchesUp where
  consistent := record_consistent h.consistent id time result
  applyAll? := by
    intro hmissed
    obtain ⟨hbefore, hpending⟩ := Feed.pending_push hmissed
    show s.mirror.bind (ReportEvent.applyAll? (s.feed.push _).pending) = _
    rw [hpending]
    -- The new event comes after those that lead to the reports before the record.
    calc s.mirror.bind
          (ReportEvent.applyAll? (s.feed.pending ++ [(s.store.record id time result).2]))
      _ = (s.mirror.bind (ReportEvent.applyAll? s.feed.pending)).bind
            (s.store.record id time result).2.applyTo? := by
        rw [Option.bind_assoc, ReportEvent.applyAll?_concat]
      _ = (s.store.record id time result).2.applyTo? s.store.reports := by
        rw [h.applyAll? hbefore, Option.bind_some]
      _ = some (s.store.record id time result).1.reports :=
        applyTo?_record h.consistent id time result

theorem CatchesUp.take (h : s.CatchesUp) : (s.after .take).CatchesUp := by
  unfold after
  cases hpending : s.feed.pending with
  | nil =>
    simp only
    exact h
  | cons event rest =>
    refine ⟨h.consistent, fun hmissed => ?_⟩
    have hbefore := h.applyAll? hmissed
    rw [hpending] at hbefore
    show (s.mirror.bind event.applyTo?).bind (ReportEvent.applyAll? rest) = _
    rw [Option.bind_assoc]
    exact hbefore

theorem CatchesUp.after (h : s.CatchesUp) (step : Step) : (s.after step).CatchesUp := by
  cases step with
  | record id time result => exact h.record id time result
  | take => exact h.take

theorem CatchesUp.afterAll (h : s.CatchesUp) (steps : List Step) :
    (s.afterAll steps).CatchesUp := by
  induction steps generalizing s with
  | nil => exact h
  | cons step steps ih => exact ih (h.after step)

/-- Taking events leaves the store as it is. -/
theorem store_after (s : Subscription) (step : Step) :
    (s.after step).store = step.call?.toList.foldl ReportStore.after s.store := by
  cases step with
  | record id time result => rfl
  | take =>
    show (s.after .take).store = s.store
    unfold after
    cases s.feed.pending <;> rfl

theorem store_afterAll (s : Subscription) (steps : List Step) :
    (s.afterAll steps).store = (steps.filterMap Step.call?).foldl ReportStore.after s.store := by
  induction steps generalizing s with
  | nil => rfl
  | cons step steps ih =>
    show ((s.after step).afterAll steps).store = _
    rw [ih, store_after]
    cases hcall : step.call? <;> simp [hcall]

/-- A subscriber of any store that starts with its reports and has missed nothing of what was
recorded since, in whatever order events were taken in between: all events that it has taken fitted,
those that it has not taken lead to the reports of the store, and once there are none its mirror is
these reports. -/
theorem mirror_catches_up (resultsPerTask : Nat) (calls : List Call) (steps : List Step)
    (hmissed : ((ofStore (ofCalls resultsPerTask calls)).afterAll steps).feed.missed = 0) :
    let s := (ofStore (ofCalls resultsPerTask calls)).afterAll steps
    s.store = ofCalls resultsPerTask (calls ++ steps.filterMap Step.call?) ∧
      (∃ mirror, s.mirror = some mirror ∧
        ReportEvent.applyAll? s.feed.pending mirror = some s.store.reports) ∧
      (s.feed.pending = [] → s.mirror = some s.store.reports) := by
  intro s
  have hstart := ofStore_catchesUp (Follows.ofCalls resultsPerTask calls).consistent
  have hcatches := (hstart.afterAll steps).applyAll? hmissed
  refine ⟨?_, Option.bind_eq_some_iff.1 hcatches, fun hnone => ?_⟩
  · show Subscription.store (afterAll _ steps) = _
    rw [store_afterAll]
    unfold ofCalls
    rw [List.foldl_append]
    rfl
  · change s.mirror.bind (ReportEvent.applyAll? s.feed.pending) = some s.store.reports at hcatches
    rw [hnone, ReportEvent.applyAll?_nil, Option.bind_fun_some] at hcatches
    exact hcatches

/-- A store of one result for each task: the first report is gone before the subscriber comes, and
the second is replaced while it looks. -/
def twoTasks : List Call := [
  .record ⟨1⟩ .epoch (.snmp ⟨[]⟩), .record ⟨2⟩ .epoch (.snmp ⟨[]⟩), .remove ⟨1⟩]

def twoRecords : List Step := [
  .record ⟨2⟩ .epoch (.snmp ⟨[⟨.v4 ⟨1⟩, "public", 7⟩]⟩), .record ⟨1⟩ .epoch (.snmp ⟨[]⟩), .take,
  .take]

theorem twoRecords_mirrored :
    ((ofStore (ofCalls 1 twoTasks)).afterAll twoRecords).feed.missed = 0 ∧
      ((ofStore (ofCalls 1 twoTasks)).afterAll twoRecords).mirror =
        some [⟨⟨2⟩, .epoch, [.snmp ⟨[⟨.v4 ⟨1⟩, "public", 7⟩]⟩]⟩, ⟨⟨1⟩, .epoch, [.snmp ⟨[]⟩]⟩] ∧
      ((ofStore (ofCalls 1 twoTasks)).afterAll twoRecords).store.reports =
        [⟨⟨2⟩, .epoch, [.snmp ⟨[⟨.v4 ⟨1⟩, "public", 7⟩]⟩]⟩, ⟨⟨1⟩, .epoch, [.snmp ⟨[]⟩]⟩] := by
  have hmissed : ((ofStore (ofCalls 1 twoTasks)).afterAll twoRecords).feed.missed = 0 := rfl
  have hmirror := (mirror_catches_up 1 twoTasks twoRecords hmissed).2.2 rfl
  have hreports : ((ofStore (ofCalls 1 twoTasks)).afterAll twoRecords).store.reports =
      [⟨⟨2⟩, .epoch, [.snmp ⟨[⟨.v4 ⟨1⟩, "public", 7⟩]⟩]⟩, ⟨⟨1⟩, .epoch, [.snmp ⟨[]⟩]⟩] := rfl
  exact ⟨hmissed, hreports ▸ hmirror, hreports⟩

end Subscription

end ReportStore

end ProbeAgent
