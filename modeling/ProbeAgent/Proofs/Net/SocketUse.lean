import ProbeAgent.Net.Scripted
import ProbeAgent.Proofs.Net.Session

/-!
# How sockets are used

A session keeps to `SocketUse` if it opens a socket only when none is open, sends on it at most once,
and closes it.  Played on a scripted line, such acts keep the counts of the transport in balance: at
every moment all sockets but the last are closed (`Balanced.afterAll`).
-/

namespace ProbeAgent

/-- The socket of a session: there is none, or it has not been sent on yet, or it has. -/
inductive SocketUse where
  | closed
  | fresh
  | spent
  deriving DecidableEq

/-- Whether the act is about a socket. -/
def Act.usesSocket : Act → Bool
  | openSocket .. | send .. | receive _ | closeSocket => true
  | _ => false

namespace SocketUse

/-- What an act makes of the socket; `none` if it must not be done now. -/
def after : SocketUse → Act → Option SocketUse
  | closed, .openSocket _ (.ok _) => some fresh
  | closed, .openSocket _ (.error _) => some closed
  | fresh, .send _ _ => some spent
  | fresh, .receive _ => some fresh
  | spent, .receive _ => some spent
  | fresh, .closeSocket => some closed
  | spent, .closeSocket => some closed
  | use, act => if act.usesSocket then none else some use

def afterAll (use : SocketUse) (acts : List Act) : Option SocketUse :=
  acts.foldlM after use

@[simp] theorem afterAll_nil (use : SocketUse) : use.afterAll [] = some use := rfl

@[simp] theorem afterAll_cons (use : SocketUse) (act : Act) (acts : List Act) :
    use.afterAll (act :: acts) = (use.after act).bind (·.afterAll acts) := rfl

theorem afterAll_append (use : SocketUse) (first rest : List Act) :
    use.afterAll (first ++ rest) = (use.afterAll first).bind (·.afterAll rest) :=
  List.foldlM_append

theorem after_aside {act : Act} (h : act.usesSocket = false) (use : SocketUse) :
    use.after act = some use := by
  cases use <;> cases act <;> first | rfl | contradiction

end SocketUse

/-! ## Scripted lines -/

namespace ScriptedTransport

/-- So many sockets were opened and closed, and so many datagrams sent, between two moments. -/
structure Counts (start now : ScriptedTransport) (opened closed sent : Nat) : Prop where
  opened_eq : now.opened = start.opened + opened
  closed_eq : now.closed = start.closed + closed
  sent_eq : now.sent = start.sent + sent

variable {start now : ScriptedTransport} {opened closed sent : Nat}

theorem counts_self (start : ScriptedTransport) : start.Counts start 0 0 0 := ⟨rfl, rfl, rfl⟩

theorem Counts.opening (h : start.Counts now opened closed sent) :
    start.Counts { now with opened := now.opened + 1 } (opened + 1) closed sent where
  opened_eq := by simp [h.opened_eq, Nat.add_assoc]
  closed_eq := h.closed_eq
  sent_eq := h.sent_eq

theorem Counts.closing (h : start.Counts now opened closed sent) :
    start.Counts now.close opened (closed + 1) sent where
  opened_eq := h.opened_eq
  closed_eq := by simp [close, h.closed_eq, Nat.add_assoc]
  sent_eq := h.sent_eq

/-- A datagram is counted if it is sent. -/
theorem Counts.sending (h : start.Counts now opened closed sent) (channel : ScriptedChannel)
    (payload : Text.Bytes) : ∃ more ≤ 1,
      start.Counts (channel.send now payload).2.2 opened closed (sent + more) := by
  unfold ScriptedChannel.send
  split
  · exact ⟨0, Nat.zero_le 1, h⟩
  · exact ⟨1, Nat.le_refl 1, h.opened_eq, h.closed_eq, by simp [h.sent_eq, Nat.add_assoc]⟩

end ScriptedTransport

namespace ScriptedLine

/-- An act on a scripted line, and the line that it leaves.  A socket that is opened may behave in
any way, and the line has no part in acts that are about something else. -/
inductive Does (line : ScriptedLine) : Act → ScriptedLine → Prop where
  | openSocket (spec) (reply) :
      Does line (.openSocket spec (line.openSocket reply).1) (line.openSocket reply).2
  | send (payload) : Does line (.send payload (line.send payload).1) (line.send payload).2
  | receive : Does line (.receive line.receive.1) line.receive.2
  | closeSocket : Does line .closeSocket line.close
  | aside {act} (h : act.usesSocket = false) : Does line act line

/-- The sockets that were opened since the start are closed, but for the last one if it is in use,
and at most one datagram was sent on each. -/
inductive Balanced (start : ScriptedTransport) : SocketUse → ScriptedLine → Prop where
  | closed {transport n sent} (h : start.Counts transport n n sent) (hsent : sent ≤ n) :
      Balanced start .closed ⟨transport, none⟩
  | fresh {transport channel n sent} (h : start.Counts transport (n + 1) n sent)
      (hsent : sent ≤ n) : Balanced start .fresh ⟨transport, some channel⟩
  | spent {transport channel n sent} (h : start.Counts transport (n + 1) n sent)
      (hsent : sent ≤ n + 1) : Balanced start .spent ⟨transport, some channel⟩

variable {start transport : ScriptedTransport} {line : ScriptedLine} {use : SocketUse}

theorem openSocket_cases (line : ScriptedLine) (reply : ScriptedReply) :
    (∃ e, line.openSocket reply = (.error e, line)) ∨ ∃ channel, line.openSocket reply =
      (.ok (), ⟨{ line.transport with opened := line.transport.opened + 1 }, some channel⟩) := by
  cases reply with
  | openError => exact .inl ⟨_, rfl⟩
  | _ => exact .inr ⟨_, rfl⟩

/-- One act keeps the balance. -/
theorem Balanced.after {act : Act} {line' : ScriptedLine} {use' : SocketUse}
    (h : Balanced start use line) (hdoes : line.Does act line') (huse : use.after act = some use') :
    Balanced start use' line' := by
  -- `huse` leaves those sockets with which the act may be done.
  cases hdoes with
  | openSocket spec reply =>
    cases h with
    | @closed transport n sent h hsent =>
      rcases openSocket_cases ⟨transport, none⟩ reply with ⟨e, heq⟩ | ⟨channel, heq⟩
      · rw [heq] at huse ⊢
        cases huse
        exact .closed h hsent
      · rw [heq] at huse ⊢
        cases huse
        exact .fresh h.opening hsent
    | fresh | spent => contradiction
  | send payload =>
    cases h with
    | @fresh transport channel n sent h hsent =>
      cases huse
      obtain ⟨more, hmore, hcounts⟩ := h.sending channel payload
      exact .spent hcounts (by omega)
    | closed | spent => contradiction
  | receive =>
    cases h with
    | fresh h hsent =>
      cases huse
      exact .fresh h hsent
    | spent h hsent =>
      cases huse
      exact .spent h hsent
    | closed => contradiction
  | closeSocket =>
    cases h with
    | fresh h hsent =>
      cases huse
      exact .closed h.closing (by omega)
    | spent h hsent =>
      cases huse
      exact .closed h.closing hsent
    | closed => contradiction
  | aside haside =>
    rw [SocketUse.after_aside haside] at huse
    cases huse
    exact h

theorem Balanced.afterAll {acts : List Act} {line' : ScriptedLine} {use' : SocketUse}
    (h : Balanced start use line) (hplays : Plays Does line acts line')
    (huse : use.afterAll acts = some use') : Balanced start use' line' := by
  induction hplays generalizing use with
  | nil =>
    cases huse
    exact h
  | cons hdoes _ ih =>
    rw [SocketUse.afterAll_cons, Option.bind_eq_some_iff] at huse
    obtain ⟨mid, hmid, hrest⟩ := huse
    exact ih (h.after hdoes hmid) hrest

/-- At most one of the sockets that were opened since the start is not closed, which is then the one
in use, and no more datagrams were sent than sockets opened. -/
def OneAtMost (start : ScriptedTransport) (line : ScriptedLine) : Prop :=
  ∃ opened closed sent, start.Counts line.transport opened closed sent ∧ closed ≤ opened ∧
    opened ≤ closed + 1 ∧ (line.channel.isSome = true ↔ opened = closed + 1) ∧ sent ≤ opened

/-- All of the sockets that were opened since the start are closed. -/
def AllClosed (start : ScriptedTransport) (line : ScriptedLine) : Prop :=
  line.channel = none ∧ ∃ n sent, start.Counts line.transport n n sent ∧ sent ≤ n

theorem Balanced.oneAtMost (h : Balanced start use line) : OneAtMost start line := by
  cases h with
  | closed h hsent => exact ⟨_, _, _, h, Nat.le_refl _, Nat.le_succ _, by simp, hsent⟩
  | fresh h hsent => exact ⟨_, _, _, h, Nat.le_succ _, Nat.le_refl _, by simp, by omega⟩
  | spent h hsent => exact ⟨_, _, _, h, Nat.le_succ _, Nat.le_refl _, by simp, hsent⟩

theorem Balanced.allClosed (h : Balanced start .closed line) : AllClosed start line := by
  cases h with
  | closed h hsent => exact ⟨rfl, _, _, h, hsent⟩

/-- Acts that use one socket after the other leave all of them closed, and at no moment in between
is there more than one open. -/
theorem oneAtMost_of_afterAll {acts : List Act} {line line' : ScriptedLine}
    (hidle : line.channel = none) (hplays : Plays Does line acts line')
    (huse : SocketUse.afterAll .closed acts = some .closed) :
    AllClosed line.transport line' ∧ ∀ first rest mid, acts = first ++ rest →
      Plays Does line first mid → OneAtMost line.transport mid := by
  have hstart : Balanced line.transport .closed line := by
    obtain ⟨transport, channel⟩ := line
    cases hidle
    exact .closed (ScriptedTransport.counts_self transport) (Nat.le_refl 0)
  refine ⟨(hstart.afterAll hplays huse).allClosed, ?_⟩
  rintro first rest mid rfl hfirst
  rw [SocketUse.afterAll_append, Option.bind_eq_some_iff] at huse
  obtain ⟨use, hmid, -⟩ := huse
  exact (hstart.afterAll hfirst hmid).oneAtMost

end ScriptedLine

/-- A network whose sockets are those of a scripted line, with any replies, also such that depend on
what was done before.  When it says that a run is cancelled is up to the network. -/
def Network.IsScripted {σ : Type} (net : Network (StateM σ)) (line : σ → ScriptedLine) : Prop :=
  ∀ s act next, net.Does s act next → (line s).Does act (line next)

end ProbeAgent
