import ProbeAgent.CommandLine.Work
import ProbeAgent.Net.Target
import Std.Time.Zoned

/-!
# The program

Reads the arguments, does the work of the command with the files and the clock of this machine, and
prints what there is to print.  There are no sockets for probes here, so each probe fails with the
reason.
-/

namespace ProbeAgent.Program

open ProbeAgent.CommandLine

/-! ## The machine -/

def fileFault : IO.Error → String
  | .noFileOrDirectory .. => "No such file or directory (os error 2)"
  | .permissionDenied .. => "Permission denied (os error 13)"
  | .inappropriateType .. => "Is a directory (os error 21)"
  | e => toString e

def readFile (path : String) : IO (Except String String) := do
  try return .ok (← IO.FS.readFile path) catch e => return .error (fileFault e)

def now : IO Instant := do
  let t ← Std.Time.PlainDateTime.now
  let date? := Date.ofYmd? t.date.year.toInt t.date.month.val.toNat t.date.day.val.toNat
  let time := t.time
  let instant? := date?.bind (Instant.ofDateTime? · time.hour.val.toNat time.minute.val.toNat
    time.second.val.toNat time.nanosecond.val.toNat)
  match instant? with
  | some t => return t
  | none => throw (IO.userError "the clock shows no date-time")

def machine : Machine IO := ⟨readFile, now⟩

def sleep (millis : UInt64) : IO Unit := IO.sleep (.ofNat (min millis.toNat (Nat.pow 2 32 - 1)))

def lookup (_ : String) : Except String (List IpAddress) :=
  .error "names cannot be looked up"

def network : Network IO where
  isCancelled := return false
  cancel := pure ()
  openSocket spec := return .error (refuseSocket lookup "this platform" spec)
  send _ := return .ok 0
  looks _ := return 0
  receive := return .ok none
  closeSocket := pure ()
  sleep := sleep
  drawRequestId := return .ofNat (← IO.rand 0 (Nat.pow 2 31 - 1))
  drawPorts := return .ofDraws (← IO.rand 0 65535) (← IO.rand 0 65535)

/-! ## Work -/

def explanation : String := "\n".intercalate [
  "Scheduled UDP ping, traceroute and SNMP discovery",
  "",
  "Usage: probe-agent [--config FILE] [-v] COMMAND",
  "",
  "Commands:",
  "  run --tasks FILE [--json]",
  "  ping HOST [-c COUNT] [--ttl TTL] [--timeout-ms MS] [-i MS] [-p PORT] [--json]",
  "  trace HOST [-c COUNT] [--timeout-ms MS] [--json]",
  "  next-run --tasks FILE [--from TIME] [-n COUNT]"]

def printAll (lines : List String) : IO Unit := lines.forM fun line => IO.println line

def fail (error : CommandError) : IO UInt32 := do
  IO.eprintln ("Error: " ++ error.message)
  return error.exitCode

def surroundings (agent : IO.Ref Agent) (correction : ClockCorrection) (json : Bool) :
    Agent.Surroundings IO where
  step f := agent.modifyGet f
  now := machine.correctedNow correction
  measure _ session := session.run.run network
  emit _ := pure ()
  publish event := do
    let scheduler := (← agent.get).scheduler
    IO.println (event.display (scheduler.lookup event.taskId).toOption.join json)
    (← IO.getStdout).flush

/-- Serves tasks until the program is killed, or a computation leaves the years that have dates. -/
partial def serve (env : Agent.Surroundings IO) (tick : UInt64) : IO UInt32 := do
  let served ← Agent.runPending env
  let agent ← env.step fun a => (a, a)
  let now ← env.now
  match served.bind fun _ => now.bind (agent.waitTime · tick) with
  | .error _ => fail .breakdown
  | .ok millis =>
    sleep millis
    serve env tick

def perform : Work → IO UInt32
  | .list lines => do
    printAll lines
    return 0
  | .once definition json => do
    match onceLines (← (measureOnce definition).run.run network) json with
    | .ok lines =>
      printAll lines
      return 0
    | .error e => fail e
  | .serve agent correction tick json => do
    serve (surroundings (← IO.mkRef agent) correction json) tick

end ProbeAgent.Program

open ProbeAgent ProbeAgent.CommandLine in
def main (arguments : List String) : IO UInt32 := do
  match Invocation.parse arguments with
  | .error .explained =>
    IO.println Program.explanation
    return 0
  | .error .misused =>
    IO.eprintln Program.explanation
    return 2
  | .ok invocation =>
    match ← (invocation.work Program.machine).run with
    | .error e => Program.fail e
    | .ok work => Program.perform work
