import ProbeAgent.Measurement.Run
import ProbeAgent.Proofs.Net.Session

/-!
# What runs may do

The ways that a run may go are those of its parts, one after the other.  One lemma for each part
that runs are made of.
-/

namespace ProbeAgent

open ProbeAgent.Text (Bytes)

/-! ## Single acts -/

namespace Session

variable {α : Type} {acts : List Act}

-- For the sessions of one act, which end in the answer to it.
theorem yields_of_does {session : Session α} {a : α} (act : α → Act)
    (hacts : ∀ b, session ≠ done b)
    (hends : ∀ first next, session.Does first next → ∃ b, first = act b ∧ next = done b)
    (h : session.Yields acts a) : acts = [act a] := by
  cases h with
  | done => exact absurd rfl (hacts a)
  | act hdoes hrest =>
    obtain ⟨b, rfl, rfl⟩ := hends _ _ hdoes
    obtain ⟨rfl, rfl⟩ := hrest.of_done
    rfl

theorem yields_isCancelled {answer : Bool} (h : (isCancelled done).Yields acts answer) :
    acts = [.isCancelled answer] :=
  yields_of_does .isCancelled (fun _ h => by cases h)
    (fun _ _ h => by cases h; exact ⟨_, rfl, rfl⟩) h

theorem yields_send {payload : Bytes} {answer : Except IoError UInt64}
    (h : (send payload done).Yields acts answer) : acts = [.send payload answer] :=
  yields_of_does (.send payload) (fun _ h => by cases h)
    (fun _ _ h => by cases h; exact ⟨_, rfl, rfl⟩) h

theorem yields_receive {answer : Except IoError (Option ReceiveEvent)}
    (h : (receive done).Yields acts answer) : acts = [.receive answer] :=
  yields_of_does .receive (fun _ h => by cases h)
    (fun _ _ h => by cases h; exact ⟨_, rfl, rfl⟩) h

theorem yields_sleep {millis : UInt64} {u : Unit} (h : (sleep millis (done ())).Yields acts u) :
    acts = [.sleep millis] :=
  yields_of_does (fun _ => .sleep millis) (fun _ h => by cases h)
    (fun _ _ h => by cases h; exact ⟨(), rfl, rfl⟩) h

theorem yields_drawRequestId {id : Int64} (h : (drawRequestId done).Yields acts id) :
    acts = [.drawRequestId id] :=
  yields_of_does .drawRequestId (fun _ h => by cases h)
    (fun _ _ h => by cases h; exact ⟨_, rfl, rfl⟩) h

theorem yields_drawPorts {ports : DrawnPorts} (h : (drawPorts done).Yields acts ports) :
    acts = [.drawPorts ports] :=
  yields_of_does .drawPorts (fun _ h => by cases h)
    (fun _ _ h => by cases h; exact ⟨_, rfl, rfl⟩) h

/-- Events are looked for if there is any time. -/
theorem yields_looks {timeout : UInt64} {left : Nat} (h : (Run.looks timeout).Yields acts left) :
    acts = [] ∨ acts = [.looks timeout left] := by
  unfold Run.looks at h
  split at h
  · obtain ⟨rfl, -⟩ := h.of_done
    exact .inl rfl
  · exact .inr (yields_of_does (.looks timeout) (fun _ h => by cases h)
      (fun _ _ h => by cases h; exact ⟨_, rfl, rfl⟩) h)

end Session

/-! ## Parts of runs -/

namespace Run

variable {α β : Type} {acts : List Act} {result : Except MeasurementError α}

theorem yields_pure {a : α} (h : (pure a : Run α).run.Yields acts result) :
    acts = [] ∧ result = .ok a :=
  Session.Yields.of_done h

theorem yields_lift {session : Session α} (h : (liftM session : Run α).run.Yields acts result) :
    ∃ a, session.Yields acts a ∧ result = .ok a :=
  Session.Yields.of_map h

/-- An error ends the run; otherwise it goes on with what it got. -/
theorem yields_bind {run : Run β} {f : β → Run α} (h : (run >>= f).run.Yields acts result) :
    (∃ e, run.run.Yields acts (.error e) ∧ result = .error e) ∨
      ∃ first b second, run.run.Yields first (.ok b) ∧ (f b).run.Yields second result ∧
        acts = first ++ second := by
  obtain ⟨first, outcome, second, hfirst, hsecond, rfl⟩ := Session.Yields.of_bind h
  cases outcome with
  | error e =>
    obtain ⟨rfl, rfl⟩ := Session.Yields.of_done hsecond
    exact .inl ⟨e, by rwa [List.append_nil], rfl⟩
  | ok b => exact .inr ⟨first, b, second, hfirst, hsecond, rfl⟩

/-- A run that does one thing first, which cannot fail. -/
theorem yields_lift_bind {session : Session β} {f : β → Run α}
    (h : ((liftM session : Run β) >>= f).run.Yields acts result) :
    ∃ first b second, session.Yields first b ∧ (f b).run.Yields second result ∧
      acts = first ++ second := by
  rcases yields_bind h with ⟨e, hlift, rfl⟩ | ⟨first, b, second, hlift, hrest, rfl⟩
  · obtain ⟨b, -, heq⟩ := yields_lift hlift
    cases heq
  · obtain ⟨b', hsession, heq⟩ := yields_lift hlift
    cases heq
    exact ⟨first, b, second, hsession, hrest, rfl⟩

theorem yields_checkCancelled {result : Except MeasurementError Unit}
    (h : checkCancelled.run.Yields acts result) :
    ∃ answer, acts = [.isCancelled answer] ∧
      result = if answer then .error .cancelled else .ok () := by
  obtain ⟨_, answer, _, hask, hrest, rfl⟩ := yields_lift_bind h
  cases Session.yields_isCancelled hask
  refine ⟨answer, ?_⟩
  cases answer with
  | false =>
    obtain ⟨rfl, rfl⟩ := Session.Yields.of_done hrest
    exact ⟨rfl, rfl⟩
  | true =>
    obtain ⟨rfl, rfl⟩ := Session.Yields.of_done hrest
    exact ⟨rfl, rfl⟩

/-- Either no socket is opened, or it is used and closed. -/
theorem yields_withSocket {spec : SocketSpec} {refused : TransportError → α} {use : Run α}
    (h : (withSocket spec refused use).run.Yields acts result) :
    (∃ e, acts = [.openSocket spec (.error e)] ∧ result = .ok (refused e)) ∨
      ∃ inner, use.run.Yields inner result ∧
        acts = .openSocket spec (.ok ()) :: (inner ++ [.closeSocket]) := by
  cases h with
  | act hdoes hrest =>
    cases hdoes with
    | openSocket answer =>
      cases answer with
      | error e =>
        obtain ⟨rfl, rfl⟩ := Session.Yields.of_done hrest
        exact .inl ⟨e, rfl, rfl⟩
      | ok _ =>
        obtain ⟨inner, outcome, last, huse, hclose, rfl⟩ := Session.Yields.of_bind hrest
        cases hclose with
        | act hdoes hdone =>
          cases hdoes
          obtain ⟨rfl, rfl⟩ := hdone.of_done
          exact .inr ⟨inner, huse, rfl⟩

end Run

end ProbeAgent
