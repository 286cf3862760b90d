import ProbeAgent.Json.Printer
import ProbeAgent.Result.Store
import ProbeAgent.Text.Fixed

/-!
# Results as users read them

Each function gives the lines of a text.  Times are in milliseconds with three decimal places.
-/

namespace ProbeAgent

def millisText (micros : Float) : String := Text.fixedDouble 3 (micros / 1000.0)

def microsText (micros : UInt64) : String := millisText micros.toFloat

def PingResponse.label : PingResponse → String
  | ttlExceeded => "TtlExceeded"
  | destinationUnreachable => "DestinationUnreachable"
  | timeout => "Timeout"
  | udpResponse => "UdpResponse"
  | error => "Error"

namespace PingReport

def probeLine (sequence : Nat) (probe : PingProbe) : String :=
  let head := "seq=" ++ toString sequence
  match probe.rtt?, probe.error with
  | some rtt, _ => head ++ " " ++ probe.response.label ++ " time=" ++ microsText rtt ++ " ms"
  | none, some error => head ++ " error: " ++ error
  | none, none => head ++ " " ++ probe.response.label

def summary (report : PingReport) : String :=
  let s := report.statistics
  toString report.probes.length ++ " probes, " ++ toString s.count.toNat
    ++ " answered, rtt min/avg/max/stdev = " ++ microsText s.min ++ "/" ++ millisText s.average
    ++ "/" ++ microsText s.max ++ "/" ++ millisText s.deviation ++ " ms"

def lines (report : PingReport) : List String :=
  report.probes.mapIdx probeLine ++ [report.summary]

end PingReport

def HopReport.line (hop : HopReport) : String :=
  let address := (hop.address.map IpAddress.render).getD "*"
  let head := Text.spacedNat 2 hop.ttl.toNat ++ " " ++ address
  if hop.rttCount = 0 then head
  else
    head ++ " " ++ millisText hop.rttAverage ++ " ms (" ++ toString hop.rttCount.toNat ++ "/"
      ++ toString hop.pings.length ++ " answered)"

def SnmpDevice.line (device : SnmpDevice) : String :=
  device.address.render ++ " " ++ device.community ++ " " ++ microsText device.rtt ++ " ms"

namespace RunResult

def lines : RunResult → List String
  | ping report => report.lines
  | traceroute report => report.results.map HopReport.line
  | snmp report => report.devices.map SnmpDevice.line

def display (result : RunResult) (json : Bool) : List String :=
  if json then [result.toJson.pretty] else result.lines

end RunResult

namespace ReportEvent

def verb : ReportEvent → String
  | added .. => "added"
  | modified .. => "modified"

/-- One line for a new result; of a task that is gone, method and target are left empty. -/
def line (event : ReportEvent) (task : Option TaskSpec) : String :=
  let report := event.report
  let method := ((task.map (·.method)).map Text.uppercase).getD ""
  let target := ((task.bind (·.target)).map targetLabel).getD ""
  event.verb ++ " task " ++ report.taskId.render ++ " " ++ method ++ " " ++ target ++ " at "
    ++ report.reportTime.renderSpaced ++ " (" ++ toString report.results.length ++ " results)"

def display (event : ReportEvent) (task : Option TaskSpec) (json : Bool) : String :=
  if json then event.report.toJson.compact else event.line task

end ReportEvent

/-- The next runs of a task, under a headline.  If there are fewer than asked for, the last line says
so. -/
def TaskSpec.preview (spec : TaskSpec) (start : Instant) (count : Nat) :
    Checked (List String) := do
  let headline := "task " ++ spec.id.render ++ " (" ++ spec.method ++ ", "
    ++ spec.timing.schedule.typeName ++ "):"
  let (runs, _) ← spec.timing.upcoming start count
  let ending := if runs.length < count then ["  (no further runs)"] else []
  return headline :: runs.map (fun t => "  " ++ t.renderWithWeekday) ++ ending

end ProbeAgent
