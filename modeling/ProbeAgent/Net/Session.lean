import ProbeAgent.Net.Socket

/-!
# Sessions with a network

A `Session` is what a measurement does, step by step: each act waits for its answer and says how to
go on.  It is plain data, so that what holds of every network, and of every moment at which a run
is cancelled, can be said of all answers.  `Session.run` carries a session out on a `Network`.

A session has at most one socket at a time; sending, receiving and closing are about that socket.
-/

namespace ProbeAgent

open ProbeAgent.Text (Bytes)

/-- The ports that a traceroute without ports of its own draws. -/
structure DrawnPorts where
  destination : UInt16
  source : UInt16
  destination_ge : 1024 ≤ destination
  source_ge : 1024 ≤ source

namespace DrawnPorts

/-- A port that no system service has. -/
def port (n : Nat) : UInt16 := .ofNat (1024 + n % 64512)

theorem le_port (n : Nat) : 1024 ≤ port n := by
  have : 1024 + n % 64512 < 65536 := by omega
  rw [UInt16.le_iff_toNat_le, port, UInt16.toNat_ofNat_of_lt' this]
  show 1024 ≤ _
  omega

def ofDraws (a b : Nat) : DrawnPorts := ⟨port a, port b, le_port a, le_port b⟩

end DrawnPorts

inductive Session (α : Type) where
  -- The session has ended.
  | done (a : α)
  -- Asks whether the run has been cancelled.
  | isCancelled (next : Bool → Session α)
  -- Cancels the run.
  | cancel (next : Session α)
  | openSocket (spec : SocketSpec) (next : Except TransportError Unit → Session α)
  -- Sends a datagram; the answer is the time of sending.
  | send (payload : Bytes) (next : Except IoError UInt64 → Session α)
  -- Asks how often it can be looked for events before a timeout in milliseconds.
  | looks (timeout : UInt64) (next : Nat → Session α)
  -- Looks for an event; there may be none yet.
  | receive (next : Except IoError (Option ReceiveEvent) → Session α)
  | closeSocket (next : Session α)
  -- Waits for some milliseconds, or less if the run is cancelled.
  | sleep (millis : UInt64) (next : Session α)
  -- Draws an identity for a request.
  | drawRequestId (next : Int64 → Session α)
  | drawPorts (next : DrawnPorts → Session α)

namespace Session

variable {α β : Type}

protected def bind (session : Session α) (f : α → Session β) : Session β :=
  match session with
  | done a => f a
  | isCancelled next => isCancelled fun b => (next b).bind f
  | cancel next => cancel (next.bind f)
  | openSocket spec next => openSocket spec fun r => (next r).bind f
  | send payload next => send payload fun r => (next r).bind f
  | looks timeout next => looks timeout fun n => (next n).bind f
  | receive next => receive fun r => (next r).bind f
  | closeSocket next => closeSocket (next.bind f)
  | sleep millis next => sleep millis (next.bind f)
  | drawRequestId next => drawRequestId fun id => (next id).bind f
  | drawPorts next => drawPorts fun ports => (next ports).bind f

instance : Monad Session where
  pure := done
  bind := Session.bind

theorem bind_done (session : Session α) : session.bind done = session := by
  induction session with
  | done => rfl
  | _ => simp_all only [Session.bind]

theorem bind_assoc {γ : Type} (session : Session α) (f : α → Session β) (g : β → Session γ) :
    (session.bind f).bind g = session.bind fun a => (f a).bind g := by
  induction session with
  | done => rfl
  | _ => simp_all only [Session.bind]

instance : LawfulMonad Session :=
  LawfulMonad.mk' Session bind_done (fun _ _ => rfl) bind_assoc

end Session

/-- Answers for the acts of a session, with whatever effects they have. -/
structure Network (m : Type → Type) where
  isCancelled : m Bool
  cancel : m Unit
  openSocket : SocketSpec → m (Except TransportError Unit)
  send : Bytes → m (Except IoError UInt64)
  looks : UInt64 → m Nat
  receive : m (Except IoError (Option ReceiveEvent))
  closeSocket : m Unit
  sleep : UInt64 → m Unit
  drawRequestId : m Int64
  drawPorts : m DrawnPorts

def Session.run {m : Type → Type} [Monad m] {α : Type} (net : Network m) : Session α → m α
  | done a => pure a
  | isCancelled next => do (next (← net.isCancelled)).run net
  | cancel next => do net.cancel; next.run net
  | openSocket spec next => do (next (← net.openSocket spec)).run net
  | send payload next => do (next (← net.send payload)).run net
  | looks timeout next => do (next (← net.looks timeout)).run net
  | receive next => do (next (← net.receive)).run net
  | closeSocket next => do net.closeSocket; next.run net
  | sleep millis next => do net.sleep millis; next.run net
  | drawRequestId next => do (next (← net.drawRequestId)).run net
  | drawPorts next => do (next (← net.drawPorts)).run net

end ProbeAgent
