import ProbeAgent.Measurement.Report
import ProbeAgent.Task.Spec

/-!
# Reports of tasks

The results of a task's runs, oldest first, with the time of the latest run.
-/

namespace ProbeAgent

structure Report where
  taskId : TaskId
  reportTime : Instant
  results : List RunResult

namespace Report

def toJson (r : Report) : Json := .obj [
  ("task_id", r.taskId.toJson),
  ("report_time", r.reportTime.toJson),
  ("results", .arr (r.results.map RunResult.toJson))]

def rules : List Doc.FieldRule := [
  .of "task_id" .refused TaskId.ofDoc,
  .of "report_time" .refused Doc.instant,
  .of "results" .refused (Doc.list RunResult.ofDoc)]

def ofDoc (source : DocSource) (d : Doc) : Decoded Report := do
  let fields ← d.record source "Report" rules
  return {
    taskId := ← fields.require "task_id" TaskId.ofDoc
    reportTime := ← fields.require "report_time" Doc.instant
    results := ← fields.require "results" (Doc.list RunResult.ofDoc) }

end Report

end ProbeAgent
