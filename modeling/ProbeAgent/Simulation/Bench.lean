import ProbeAgent.Simulation.Script

/-!
# Sessions on simulated networks

A bench has what one measurement needs: a scripted line, a flag that the run is cancelled, and a log
of the sockets that it asked for.  Waiting takes no time.
-/

namespace ProbeAgent.Simulation

structure Bench where
  line : ScriptedLine
  cancelled : Bool
  -- Every attempt to open a socket, latest first.
  log : List SocketSpec
  -- Numbers that were drawn.
  draws : Nat

def Bench.new : Bench := ⟨.unused, false, [], 0⟩

/-- The ports of a draw; later draws have others. -/
def portsOf (draw : Nat) : DrawnPorts := .ofDraws (2 * draw) (2 * draw + 1)

def Bench.network (script : Script) : Network (StateM Bench) where
  isCancelled := return (← get).cancelled
  cancel := modify fun b => { b with cancelled := true }
  openSocket spec := modifyGet fun b =>
    let rule := script.ruleFor b.log.length spec
    let (result, line) := b.line.openSocket rule.reply
    (result, { b with
      line := line
      log := spec :: b.log
      cancelled := b.cancelled || rule.incident.cancel })
  send payload := modifyGet fun b =>
    let (result, line) := b.line.send payload
    (result, { b with line := line })
  looks _ := return (← get).line.looks
  receive := modifyGet fun b =>
    let (result, line) := b.line.receive
    (result, { b with line := line })
  closeSocket := modify fun b => { b with line := b.line.close }
  sleep _ := pure ()
  drawRequestId := modifyGet fun b => (.ofNat (b.draws + 1), { b with draws := b.draws + 1 })
  drawPorts := modifyGet fun b => (portsOf b.draws, { b with draws := b.draws + 1 })

end ProbeAgent.Simulation
