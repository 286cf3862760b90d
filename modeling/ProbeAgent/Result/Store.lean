import ProbeAgent.Result.Report
import ProbeAgent.Text.Uppercase

/-!
# The store of reports

One report for each task, in the order of first results, with the position of each by task.  Every
result that is recorded gives an event, from which others can follow the store.
-/

namespace ProbeAgent

inductive ReportEvent where
  -- The first result of a task added a report at the end.
  | added (position : Nat) (report : Report)
  -- The report at a position has a further result.
  | modified (position : Nat) (report : Report)

namespace ReportEvent

def report : ReportEvent → Report
  | added _ r => r
  | modified _ r => r

def position : ReportEvent → Nat
  | added p _ => p
  | modified p _ => p

def taskId (e : ReportEvent) : TaskId := e.report.taskId

end ReportEvent

structure ReportStore where
  -- The most results that a report keeps.
  capacity : Nat
  capacity_pos : 0 < capacity
  reports : List Report
  -- Where the report of each task is.
  positions : List (TaskId × Nat)

namespace ReportStore

def defaultCapacity : Nat := 100

/-- A store without reports; each will keep at least one result. -/
def empty (resultsPerTask : Nat) : ReportStore where
  capacity := max 1 resultsPerTask
  capacity_pos := by omega
  reports := []
  positions := []

def position? (store : ReportStore) (id : TaskId) : Option Nat := store.positions.lookup id

def report? (store : ReportStore) (id : TaskId) : Option Report := do
  store.reports[← store.position? id]?

def extend (store : ReportStore) (report : Report) (time : Instant) (result : RunResult) : Report :=
  -- The oldest results beyond the capacity are dropped.
  let results := report.results ++ [result]
  { report with reportTime := time, results := results.drop (results.length - store.capacity) }

/-- Adds the result of a task's run at `time`. -/
def record (store : ReportStore) (id : TaskId) (time : Instant) (result : RunResult) :
    ReportStore × ReportEvent :=
  match store.position? id, store.report? id with
  | some position, some report =>
    let report := store.extend report time result
    ({ store with reports := store.reports.set position report }, .modified position report)
  | _, _ =>
    let report : Report := ⟨id, time, [result]⟩
    let position := store.reports.length
    ({ store with
        reports := store.reports ++ [report]
        positions := (id, position) :: store.positions },
      .added position report)

def remove (store : ReportStore) (id : TaskId) : ReportStore × Option Report :=
  match store.position? id with
  | none => (store, none)
  | some position =>
    -- Later reports move up.
    let positions := store.positions.filter fun (other, _) => other ≠ id
    ({ store with
        reports := store.reports.eraseIdx position
        positions := positions.map fun (other, p) => (other, if position < p then p - 1 else p) },
      store.reports[position]?)

end ReportStore

/-! ## Rows for display -/

def maxLabel : Nat := 35

def keptLabel : Nat := 32

/-- A target, shortened to 32 characters and an ellipsis if it is too long. -/
def targetLabel (target : String) : String :=
  let characters := target.toList
  if maxLabel < characters.length then String.ofList (characters.take keptLabel) ++ "..."
  else target

structure ReportRow where
  taskId : TaskId
  reportTime : Instant
  -- In upper case.
  method : String
  target : String

namespace ReportStore

/-- A row for each report; what is not known of a task is left empty. -/
def rows (store : ReportStore) (lookup : TaskId → Option TaskSpec) : List ReportRow :=
  store.reports.map fun report =>
    let task := lookup report.taskId
    { taskId := report.taskId
      reportTime := report.reportTime
      method := ((task.map (·.method)).map Text.uppercase).getD ""
      target := ((task.bind (·.target)).map targetLabel).getD "" }

end ReportStore

def ReportRow.toJson (row : ReportRow) : Json := .obj [
  ("task_id", row.taskId.toJson),
  ("report_time", row.reportTime.toJson),
  ("method", .str row.method),
  ("target", .str row.target)]

end ProbeAgent
