import ProbeAgent.Measurement.Run
import ProbeAgent.Proofs.Net.SocketUse
import ProbeAgent.Simulation.Bench

/-!
# Runs on benches

`Ends` says what a run comes to on a bench, and which bench it leaves.  There is a lemma for each
part that runs are made of, for a bench on which nothing is cancelled.  A script answers the
attempts to open a socket with a list of replies (`Script.Answers`); any list can be scripted
(`Script.answers_ofReplies`).
-/

namespace ProbeAgent

open ProbeAgent.Text (Bytes)

/-- A session that goes on as another one: the second has the state that the first one leaves. -/
theorem Session.run_bind {α β σ : Type} (net : Network (StateM σ)) (session : Session α)
    (f : α → Session β) (s : σ) :
    (session.bind f).run net s = (f (session.run net s).1).run net (session.run net s).2 := by
  induction session generalizing s with
  | done a => rfl
  | isCancelled next ih => exact ih _ _
  | cancel next ih => exact ih _
  | openSocket spec next ih => exact ih _ _
  | send payload next ih => exact ih _ _
  | looks timeout next ih => exact ih _ _
  | receive next ih => exact ih _ _
  | closeSocket next ih => exact ih _
  | sleep millis next ih => exact ih _
  | drawRequestId next ih => exact ih _ _
  | drawPorts next ih => exact ih _ _

theorem Session.run_map {α β σ : Type} (net : Network (StateM σ)) (session : Session α) (f : α → β)
    (s : σ) :
    (f <$> session).run net s = (f (session.run net s).1, (session.run net s).2) :=
  run_bind net session _ s

theorem Session.run_openSocket {α σ : Type} (net : Network (StateM σ)) (spec : SocketSpec)
    (next : Except TransportError Unit → Session α) (s : σ) :
    (openSocket spec next).run net s =
      (next (net.openSocket spec s).1).run net (net.openSocket spec s).2 := rfl

namespace Simulation

/-! ## Scripts of replies -/

namespace Script

/-- From this attempt on, the attempts to open a socket get these replies, one each, and none of
them cancels the run. -/
inductive Answers (script : Script) (spec : SocketSpec) : Nat → List ScriptedReply → Prop where
  | nil {call : Nat} : Answers script spec call []
  | cons {call : Nat} {reply : ScriptedReply} {replies : List ScriptedReply}
      (hreply : (script.ruleFor call spec).reply = reply)
      (hquiet : (script.ruleFor call spec).incident.cancel = false)
      (h : Answers script spec (call + 1) replies) : Answers script spec call (reply :: replies)

/-- The rule for one attempt. -/
def ruleAt (call : Nat) (reply : ScriptedReply) : Rule :=
  ⟨⟨none, none, none, some call⟩, .quiet, reply⟩

/-- One rule for each attempt, from the first on. -/
def ofReplies (first : Nat) : List ScriptedReply → Script
  | [] => []
  | reply :: replies => ruleAt first reply :: ofReplies (first + 1) replies

section

variable {script : Script} {spec : SocketSpec} {call other : Nat} {reply : ScriptedReply}

theorem ruleAt_holds : (ruleAt other reply).condition.holds call spec = decide (other = call) :=
  rfl

theorem ruleFor_cons_self : ruleFor (ruleAt call reply :: script) call spec = ruleAt call reply := by
  rw [ruleFor, List.find?_cons_of_pos (by rw [ruleAt_holds, decide_eq_true rfl])]
  rfl

theorem ruleFor_cons_of_ne (hne : other ≠ call) :
    ruleFor (ruleAt other reply :: script) call spec = script.ruleFor call spec := by
  rw [ruleFor, List.find?_cons_of_neg (by rw [ruleAt_holds, decide_eq_false hne]; exact nofun)]
  rfl

/-- A rule for an earlier attempt makes no difference. -/
theorem Answers.cons_rule {replies : List ScriptedReply} (h : script.Answers spec call replies)
    (hlt : other < call) : Answers (ruleAt other reply :: script) spec call replies := by
  induction h with
  | nil => exact .nil
  | cons hreply hquiet _ ih =>
    rw [← ruleFor_cons_of_ne (Nat.ne_of_lt hlt)] at hreply hquiet
    exact .cons hreply hquiet (ih (by omega))

end

/-- Every list of replies is played by some script. -/
theorem answers_ofReplies (spec : SocketSpec) (first : Nat) (replies : List ScriptedReply) :
    (ofReplies first replies).Answers spec first replies := by
  induction replies generalizing first with
  | nil => exact .nil
  | cons reply replies ih =>
    refine .cons ?_ ?_ ((ih (first + 1)).cons_rule (Nat.lt_succ_self first))
    · rw [ofReplies, ruleFor_cons_self]
      rfl
    · rw [ofReplies, ruleFor_cons_self]
      rfl

end Script

/-! ## Runs -/

theorem Bench.network_isScripted (script : Script) :
    (network script).IsScripted line := by
  intro b act next hdoes
  cases hdoes with
  | openSocket spec => exact .openSocket spec _
  | send payload => exact .send payload
  | receive => exact .receive
  | closeSocket => exact .closeSocket
  | _ => exact .aside rfl

section

variable {α β : Type} {script : Script} {b c c' : Bench}

/-- On the bench `b` the run gets to its end with `a`, and it leaves the bench `c`. -/
def Ends (script : Script) (run : Run α) (b : Bench) (a : α) (c : Bench) : Prop :=
  run.run.run (Bench.network script) b = (.ok a, c)

theorem ends_pure (a : α) : Ends script (pure a) b a b := rfl

theorem ends_lift {session : Session α} {a : α}
    (h : session.run (Bench.network script) b = (a, c)) : Ends script (liftM session) b a c := by
  show (Session.bind session _).run (Bench.network script) b = _
  rw [Session.run_bind, h]
  rfl

/-- The parts of a run end one after the other. -/
theorem Ends.bind {run : Run α} {f : α → Run β} {a : α} {r : β} (h : Ends script run b a c)
    (hf : Ends script (f a) c r c') : Ends script (run >>= f) b r c' := by
  show (Session.bind run.run _).run (Bench.network script) b = _
  rw [Session.run_bind, h]
  exact hf

theorem ends_checkCancelled (hb : b.cancelled = false) :
    Ends script Run.checkCancelled b () b := by
  refine Ends.bind (a := b.cancelled) (ends_lift rfl) ?_
  rw [hb]
  exact ends_pure ()

theorem ends_pause (hb : b.cancelled = false) (millis : UInt64) :
    Ends script (Run.pause millis) b () b := by
  refine (ends_checkCancelled hb).bind ?_
  by_cases hzero : millis = 0
  · rw [hzero]
    exact ends_pure ()
  · rw [if_neg hzero]
    exact (ends_lift rfl).bind (ends_checkCancelled hb)

/-! ## Waiting -/

/-- What a look for an event comes to if this happens next. -/
def lookAt (sentAt : UInt64) (payload : Bytes) :
    ScriptedReply → Except IoError (Option ReceiveEvent)
  | .receiveError => .error ⟨.connectionRefused, "scripted receive failure"⟩
  | reply => .ok (reply.arrival sentAt payload)

/-- What a wait makes of this if it happens next: `none` if the wait goes on. -/
def heard (decide : ReceiveEvent → Option α) (failed : IoError → α) (sentAt : UInt64)
    (payload : Bytes) (reply : ScriptedReply) : Option α :=
  match lookAt sentAt payload reply with
  | .error e => some (failed e)
  | .ok event => event.bind decide

/-- The bench while the datagram of its socket waits for an answer. -/
def waiting (b : Bench) (pending : List ScriptedReply) (sentAt : UInt64) (payload : Bytes) : Bench :=
  { b with line := { b.line with channel := some ⟨pending, some sentAt, payload⟩ } }

theorem receive_waiting (script : Script) (b : Bench) (reply : ScriptedReply)
    (pending : List ScriptedReply) (sentAt : UInt64) (payload : Bytes) :
    (Session.receive .done).run (Bench.network script)
        (waiting b (reply :: pending) sentAt payload) =
      (lookAt sentAt payload reply, waiting b pending sentAt payload) := by
  cases reply <;> rfl

/-- A wait that looks for everything that is pending, and once more, ends with the first thing that
ends it. -/
theorem ends_await (script : Script) (hb : b.cancelled = false)
    (decide : ReceiveEvent → Option α) (failed : IoError → α) (late : α) (sentAt : UInt64)
    (payload : Bytes) (pending : List ScriptedReply) :
    ∃ rest, Ends script (Run.await decide failed late (pending.length + 1))
      (waiting b pending sentAt payload)
      ((pending.findSome? (heard decide failed sentAt payload)).getD late)
      (waiting b rest sentAt payload) := by
  have hcheck : ∀ pending, Ends script Run.checkCancelled (waiting b pending sentAt payload) ()
      (waiting b pending sentAt payload) := fun _ => ends_checkCancelled hb
  induction pending with
  | nil =>
    refine ⟨[], (hcheck []).bind ((ends_lift rfl).bind ?_)⟩
    exact (hcheck []).bind (ends_pure late)
  | cons reply pending ih =>
    have hreceive := ends_lift (receive_waiting script b reply pending sentAt payload)
    rw [List.findSome?_cons, heard]
    cases hlook : lookAt sentAt payload reply with
    | error e =>
      rw [hlook] at hreceive
      exact ⟨pending, (hcheck _).bind (hreceive.bind (ends_pure (failed e)))⟩
    | ok event =>
      rw [hlook] at hreceive
      dsimp only
      cases hdecide : event.bind decide with
      | some a =>
        refine ⟨pending, (hcheck _).bind (hreceive.bind ?_)⟩
        dsimp only
        rw [hdecide]
        exact ends_pure a
      | none =>
        obtain ⟨rest, hrest⟩ := ih
        refine ⟨rest, (hcheck _).bind (hreceive.bind ?_)⟩
        dsimp only
        rw [hdecide]
        exact hrest

/-! ## Sockets -/

/-- The bench once a socket with this reply has been opened. -/
def opened (b : Bench) (spec : SocketSpec) (reply : ScriptedReply) : Bench :=
  { b with
    line := ⟨{ b.line.transport with opened := b.line.transport.opened + 1 },
      some ⟨reply.queue, none, []⟩⟩
    log := spec :: b.log }

/-- The bench once a datagram has been sent: the clock of its transport has moved. -/
def sent (b : Bench) : Bench :=
  { b with line := { b.line with transport := { b.line.transport with
      clock := b.line.transport.clock + ScriptedTransport.sendStep
      sent := b.line.transport.sent + 1 } } }

/-- The bench once its socket has been closed. -/
def closed (b : Bench) : Bench := { b with line := b.line.close }

/-- An attempt that does not cancel the run opens a socket of the line, or fails to. -/
theorem openSocket_eq {spec : SocketSpec} {reply : ScriptedReply}
    (hreply : (script.ruleFor b.log.length spec).reply = reply)
    (hquiet : (script.ruleFor b.log.length spec).incident.cancel = false) :
    (Bench.network script).openSocket spec b = ((b.line.openSocket reply).1,
      { b with line := (b.line.openSocket reply).2, log := spec :: b.log }) := by
  calc (Bench.network script).openSocket spec b
    _ = ((b.line.openSocket (script.ruleFor b.log.length spec).reply).1,
          { b with
            line := (b.line.openSocket (script.ruleFor b.log.length spec).reply).2
            log := spec :: b.log
            cancelled := b.cancelled || (script.ruleFor b.log.length spec).incident.cancel }) := rfl
    _ = _ := by rw [hreply, hquiet, Bool.or_false]

theorem ends_withSocket_refused {spec : SocketSpec} {refused : TransportError → α} {use : Run α}
    (hreply : (script.ruleFor b.log.length spec).reply = .openError)
    (hquiet : (script.ruleFor b.log.length spec).incident.cancel = false) :
    Ends script (Run.withSocket spec refused use) b
      (refused (.io "socket" ⟨.permissionDenied, "scripted open failure"⟩))
      { b with log := spec :: b.log } := by
  show (Session.openSocket spec _).run (Bench.network script) b = _
  rw [Session.run_openSocket, openSocket_eq hreply hquiet]
  rfl

theorem ends_withSocket {spec : SocketSpec} {refused : TransportError → α} {use : Run α}
    {reply : ScriptedReply} {a : α} (hreply : (script.ruleFor b.log.length spec).reply = reply)
    (hquiet : (script.ruleFor b.log.length spec).incident.cancel = false)
    (hopen : reply ≠ .openError) (huse : Ends script use (opened b spec reply) a c) :
    Ends script (Run.withSocket spec refused use) b a (closed c) := by
  have hopened : (Bench.network script).openSocket spec b = (.ok (), opened b spec reply) := by
    rw [openSocket_eq hreply hquiet]
    cases reply with
    | openError => exact absurd rfl hopen
    | _ => rfl
  show (Session.openSocket spec _).run (Bench.network script) b = _
  rw [Session.run_openSocket, hopened]
  dsimp only
  rw [Session.run_bind, huse]
  rfl

theorem send_opened_of_sendError {spec : SocketSpec} {reply : ScriptedReply}
    {rest : List ScriptedReply} (hqueue : reply.queue = .sendError :: rest) (payload : Bytes) :
    (Session.send payload .done).run (Bench.network script) (opened b spec reply) =
      (.error ⟨.networkUnreachable, "scripted send failure"⟩, opened b spec reply) := by
  unfold opened
  rw [hqueue]
  rfl

theorem send_opened {spec : SocketSpec} {reply : ScriptedReply}
    (hqueue : ∀ rest, reply.queue ≠ .sendError :: rest) (payload : Bytes) :
    (Session.send payload .done).run (Bench.network script) (opened b spec reply) =
      (.ok b.line.transport.clock,
        waiting (sent (opened b spec reply)) reply.queue b.line.transport.clock payload) := by
  unfold opened
  generalize reply.queue = queue at hqueue
  cases queue with
  | nil => rfl
  | cons first rest =>
    cases first with
    | sendError => exact absurd rfl (hqueue rest)
    | _ => rfl

end

end Simulation

end ProbeAgent
