import ProbeAgent.Proofs.Measurement.Cancellation
import ProbeAgent.Proofs.Measurement.Run

/-!
# Exchanges

An exchange is one attempt to open a socket, with the probe that the answers of the network make of
it.  `exchanges` reads them off the acts of a run.  A ping that is not cancelled has one exchange
for each of its cycles, and its probes are those of the exchanges, in order (`logs_probes`).
-/

namespace ProbeAgent

structure Exchange where
  spec : SocketSpec
  probe : PingProbe
  deriving DecidableEq

/-- What the acts on an open socket make of a probe. -/
def PingProbe.read (probe : PingProbe) : List Act → PingProbe
  | [] => probe
  | .send _ (.error e) :: _ => probe.failed ("send: " ++ e.message)
  | .send _ (.ok time) :: rest => read { probe with sendTime := some time } rest
  | .receive (.error e) :: _ => probe.failed ("receive: " ++ e.message)
  | .receive (.ok event) :: rest =>
    match event.bind probe.decided with
    | some decided => decided
    | none => read probe rest
  | .closeSocket :: _ => probe
  | _ :: rest => read probe rest

def exchanges : List Act → List Exchange
  | [] => []
  | .openSocket spec (.error e) :: rest =>
    ⟨spec, PingProbe.unanswered.failed e.message⟩ :: exchanges rest
  | .openSocket spec (.ok _) :: rest => ⟨spec, PingProbe.unanswered.read rest⟩ :: exchanges rest
  | _ :: rest => exchanges rest

theorem map_spec_exchanges (acts : List Act) :
    (exchanges acts).map Exchange.spec = acts.filterMap Act.opens? := by
  induction acts with
  | nil => rfl
  | cons act acts ih =>
    cases act with
    | openSocket spec answer => cases answer <;> exact congrArg (spec :: ·) ih
    | _ => exact ih

/-- No attempt to open a socket. -/
def OpensNothing (acts : List Act) : Prop := ∀ spec answer, .openSocket spec answer ∉ acts

theorem OpensNothing.exchanges_append {acts : List Act} (h : OpensNothing acts) (rest : List Act) :
    exchanges (acts ++ rest) = exchanges rest := by
  induction acts with
  | nil => rfl
  | cons act acts ih =>
    have htail : OpensNothing acts := fun spec answer hmem =>
      h spec answer (List.mem_cons_of_mem _ hmem)
    cases act with
    | openSocket spec answer => exact absurd List.mem_cons_self (h spec answer)
    | _ => exact ih htail

/-! ## Runs and their exchanges -/

namespace Run

variable {α β : Type}

/-- Unless the run is told that it has been cancelled, it comes to a value, which stands in this
relation to its exchanges. -/
def Logs (run : Run α) (R : α → List Exchange → Prop) : Prop :=
  ∀ acts result, run.run.Yields acts result → ¬ WasTold acts →
    ∃ a log, result = .ok a ∧ R a log ∧ ∀ rest, exchanges (acts ++ rest) = log ++ exchanges rest

variable {R : α → List Exchange → Prop}

theorem logs_pure {a : α} (h : R a []) : Logs (pure a) R := by
  intro acts result hyields _
  obtain ⟨rfl, rfl⟩ := yields_pure hyields
  exact ⟨a, [], rfl, h, fun _ => rfl⟩

theorem Logs.bind {run : Run β} {f : β → Run α} {S : β → List Exchange → Prop} (h : Logs run S)
    (hf : ∀ b log, S b log → Logs (f b) fun a more => R a (log ++ more)) : Logs (run >>= f) R := by
  intro acts result hyields htold
  rcases yields_bind hyields with ⟨e, hrun, rfl⟩ | ⟨first, b, second, hrun, hrest, rfl⟩
  · obtain ⟨b, log, heq, -⟩ := h _ _ hrun htold
    cases heq
  · rw [wasTold_append, not_or] at htold
    obtain ⟨b', log, heq, hS, hlog⟩ := h _ _ hrun htold.1
    cases heq
    obtain ⟨a, more, rfl, hR, hmore⟩ := hf b log hS _ _ hrest htold.2
    refine ⟨a, log ++ more, rfl, hR, fun rest => ?_⟩
    rw [List.append_assoc, hlog, hmore, List.append_assoc]

theorem logs_lift {session : Session α}
    (h : ∀ acts a, session.Yields acts a → OpensNothing acts) :
    Logs (liftM session) fun _ log => log = [] := by
  intro acts result hyields _
  obtain ⟨a, hsession, rfl⟩ := yields_lift hyields
  exact ⟨a, [], rfl, rfl, (h acts a hsession).exchanges_append⟩

theorem yields_checkCancelled_bind {f : Unit → Run α} {acts : List Act}
    {result : Except MeasurementError α} (h : (checkCancelled >>= f).run.Yields acts result)
    (htold : ¬ WasTold acts) :
    ∃ rest, acts = .isCancelled false :: rest ∧ (f ()).run.Yields rest result := by
  rcases yields_bind h with ⟨e, hcheck, -⟩ | ⟨first, _, second, hcheck, hrest, rfl⟩
  · obtain ⟨answer, rfl, heq⟩ := yields_checkCancelled hcheck
    cases answer with
    | false => cases heq
    | true => exact absurd List.mem_cons_self htold
  · obtain ⟨answer, rfl, heq⟩ := yields_checkCancelled hcheck
    cases answer with
    | false => exact ⟨second, rfl, hrest⟩
    | true => cases heq

theorem logs_checkCancelled : Logs checkCancelled fun _ log => log = [] := by
  intro acts result hyields htold
  obtain ⟨answer, rfl, rfl⟩ := yields_checkCancelled hyields
  cases answer with
  | false => exact ⟨(), [], rfl, rfl, fun _ => rfl⟩
  | true => exact absurd List.mem_cons_self htold

theorem logs_pause (millis : UInt64) : Logs (pause millis) fun _ log => log = [] := by
  unfold pause
  refine logs_checkCancelled.bind ?_
  rintro _ _ rfl
  split
  · exact logs_pure rfl
  · refine (logs_lift fun acts _ hsleep => ?_).bind ?_
    · cases Session.yields_sleep hsleep
      simp [OpensNothing]
    · rintro _ _ rfl
      exact logs_checkCancelled

/-! ## Open sockets -/

/-- Unless the run is told that it has been cancelled, it uses the socket that is open, and comes to
what its acts make of the probe. -/
def Reads (run : Run PingProbe) (probe : PingProbe) : Prop :=
  ∀ acts result, run.run.Yields acts result → ¬ WasTold acts →
    OpensNothing acts ∧ ∃ found, result = .ok found ∧
      ∀ rest, probe.read (acts ++ .closeSocket :: rest) = found

theorem reads_await (probe : PingProbe) (left : Nat) :
    Reads (await probe.decided (fun e => probe.failed ("receive: " ++ e.message)) probe left)
      probe := by
  induction left with
  | zero =>
    intro acts result hyields htold
    obtain ⟨rest, rfl, hrest⟩ := yields_checkCancelled_bind hyields htold
    obtain ⟨rfl, rfl⟩ := yields_pure hrest
    exact ⟨by simp [OpensNothing], probe, rfl, fun _ => rfl⟩
  | succ left ih =>
    intro acts result hyields htold
    obtain ⟨rest, rfl, hrest⟩ := yields_checkCancelled_bind hyields htold
    obtain ⟨_, answer, more, hreceive, hmore, rfl⟩ := yields_lift_bind hrest
    cases Session.yields_receive hreceive
    cases answer with
    | error e =>
      obtain ⟨rfl, rfl⟩ := yields_pure hmore
      exact ⟨by simp [OpensNothing], _, rfl, fun _ => rfl⟩
    | ok event =>
      dsimp only at hmore
      cases hdecided : event.bind probe.decided with
      | some decided =>
        rw [hdecided] at hmore
        obtain ⟨rfl, rfl⟩ := yields_pure hmore
        refine ⟨by simp [OpensNothing], decided, rfl, fun rest => ?_⟩
        simp [PingProbe.read, hdecided]
      | none =>
        rw [hdecided] at hmore
        obtain ⟨hquiet, found, rfl, hfound⟩ := ih _ _ hmore fun hmem =>
          htold (List.mem_cons_of_mem _ (List.mem_cons_of_mem _ hmem))
        refine ⟨fun spec answer hmem => hquiet spec answer (by simpa using hmem), found, rfl, ?_⟩
        intro rest
        simpa [PingProbe.read, hdecided] using hfound rest

theorem reads_awaitReply (d : PingDefinition) (probe : PingProbe) :
    Reads (d.awaitReply probe) probe := by
  intro acts result hyields htold
  obtain ⟨looking, left, waiting, hlooks, hawait, rfl⟩ := yields_lift_bind hyields
  have hwaiting : ¬ WasTold waiting := fun hmem => htold (List.mem_append_right looking hmem)
  obtain ⟨hquiet, found, rfl, hfound⟩ := reads_await probe left _ _ hawait hwaiting
  -- The question how often to look is no event.
  rcases Session.yields_looks hlooks with rfl | rfl
  · exact ⟨hquiet, found, rfl, hfound⟩
  · exact ⟨fun spec answer hmem => hquiet spec answer (by simpa using hmem), found, rfl, hfound⟩

/-- A socket that is opened makes one exchange, and so does one that is not. -/
theorem Reads.withSocket {use : Run PingProbe} (h : Reads use PingProbe.unanswered)
    (spec : SocketSpec) :
    Logs (withSocket spec (fun e => PingProbe.unanswered.failed e.message) use)
      fun probe log => log = [⟨spec, probe⟩] := by
  intro acts result hyields htold
  rcases yields_withSocket hyields with ⟨e, rfl, rfl⟩ | ⟨inner, huse, rfl⟩
  · exact ⟨_, _, rfl, rfl, fun _ => rfl⟩
  · have hinner : ¬ WasTold inner := fun hmem =>
      htold (List.mem_cons_of_mem _ (List.mem_append_left _ hmem))
    obtain ⟨hquiet, found, rfl, hfound⟩ := h _ _ huse hinner
    refine ⟨found, _, rfl, rfl, fun rest => ?_⟩
    calc exchanges (.openSocket spec (.ok ()) :: (inner ++ [.closeSocket]) ++ rest)
      _ = ⟨spec, PingProbe.unanswered.read (inner ++ [.closeSocket] ++ rest)⟩ ::
          exchanges (inner ++ [.closeSocket] ++ rest) := rfl
      _ = [⟨spec, found⟩] ++ exchanges rest := by
        rw [List.append_assoc, List.singleton_append, hfound, hquiet.exchanges_append]
        rfl

end Run

/-! ## Pings -/

open Run

namespace PingDefinition

theorem logs_probeOnce (d : PingDefinition) :
    Logs d.probeOnce fun probe log => log = [⟨d.socketSpec, probe⟩] := by
  refine logs_checkCancelled.bind ?_
  rintro _ _ rfl
  refine Reads.withSocket ?_ d.socketSpec
  intro acts result hyields htold
  obtain ⟨_, answer, waiting, hsend, hrest, rfl⟩ := yields_lift_bind hyields
  cases Session.yields_send hsend
  cases answer with
  | error e =>
    obtain ⟨rfl, rfl⟩ := yields_pure hrest
    exact ⟨by simp [OpensNothing], _, rfl, fun _ => rfl⟩
  | ok time =>
    have hwaiting : ¬ WasTold waiting := fun hmem => htold (List.mem_cons_of_mem _ hmem)
    obtain ⟨hquiet, found, rfl, hfound⟩ := reads_awaitReply d _ _ _ hrest hwaiting
    exact ⟨fun spec answer hmem => hquiet spec answer (by simpa using hmem), found, rfl, hfound⟩

/-- One exchange for each cycle. -/
theorem logs_probeAgain (d : PingDefinition) (left : Nat) :
    Logs (d.probeAgain left) fun probes log =>
      probes.length = left ∧ log = probes.map (Exchange.mk d.socketSpec) := by
  induction left with
  | zero => exact logs_pure ⟨rfl, rfl⟩
  | succ left ih =>
    refine (logs_pause d.interval).bind ?_
    rintro _ _ rfl
    refine d.logs_probeOnce.bind ?_
    rintro probe _ rfl
    refine ih.bind ?_
    rintro probes _ ⟨hlength, rfl⟩
    exact logs_pure ⟨by rw [List.length_cons, hlength], by rw [List.append_nil]; rfl⟩

theorem logs_probes (d : PingDefinition) :
    Logs d.probes fun probes log =>
      probes.length = d.count.toNat ∧ log = probes.map (Exchange.mk d.socketSpec) := by
  unfold probes
  split
  · rename_i hzero
    exact logs_pure ⟨hzero.symm, rfl⟩
  · rename_i left hleft
    refine d.logs_probeOnce.bind ?_
    rintro probe _ rfl
    refine (d.logs_probeAgain left).bind ?_
    rintro probes _ ⟨hlength, rfl⟩
    exact logs_pure ⟨by rw [List.length_cons, hlength, hleft], by rw [List.append_nil]; rfl⟩

end PingDefinition

end ProbeAgent
