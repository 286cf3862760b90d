import ProbeAgent.Net.Session

/-!
# What sessions may do

`Session.Yields` says that a session may do a list of acts, with their answers, and end in a value.
It leaves all answers open, so what holds of every way that a session may go holds on every network
(`Session.exists_yields_run`).
-/

namespace ProbeAgent

open ProbeAgent.Text (Bytes)

/-- An act of a session, with the answer to it. -/
inductive Act where
  | isCancelled (answer : Bool)
  | cancel
  | openSocket (spec : SocketSpec) (answer : Except TransportError Unit)
  | send (payload : Bytes) (answer : Except IoError UInt64)
  | looks (timeout : UInt64) (answer : Nat)
  | receive (answer : Except IoError (Option ReceiveEvent))
  | closeSocket
  | sleep (millis : UInt64)
  | drawRequestId (answer : Int64)
  | drawPorts (answer : DrawnPorts)

/-- The socket that an act tries to open. -/
def Act.opens? : Act → Option SocketSpec
  | openSocket spec _ => some spec
  | _ => none

namespace Session

variable {α β : Type}

/-- The session starts with an act and goes on as another one. -/
inductive Does {α : Type} : Session α → Act → Session α → Prop where
  | isCancelled {next} (answer) : Does (.isCancelled next) (.isCancelled answer) (next answer)
  | cancel {next} : Does (.cancel next) .cancel next
  | openSocket {spec next} (answer) :
      Does (.openSocket spec next) (.openSocket spec answer) (next answer)
  | send {payload next} (answer) : Does (.send payload next) (.send payload answer) (next answer)
  | looks {timeout next} (answer) : Does (.looks timeout next) (.looks timeout answer) (next answer)
  | receive {next} (answer) : Does (.receive next) (.receive answer) (next answer)
  | closeSocket {next} : Does (.closeSocket next) .closeSocket next
  | sleep {millis next} : Does (.sleep millis next) (.sleep millis) next
  | drawRequestId {next} (answer) : Does (.drawRequestId next) (.drawRequestId answer) (next answer)
  | drawPorts {next} (answer) : Does (.drawPorts next) (.drawPorts answer) (next answer)

/-- The session may do these acts, one after the other, and end in a value. -/
inductive Yields {α : Type} : Session α → List Act → α → Prop where
  | done {a} : Yields (.done a) [] a
  | act {session act next acts a} (hdoes : session.Does act next) (h : Yields next acts a) :
      Yields session (act :: acts) a

theorem Does.of_bind {session : Session α} {f : α → Session β} {act : Act} {next : Session β}
    (h : (session.bind f).Does act next) :
    (∃ a, session = .done a) ∨ ∃ rest, session.Does act rest ∧ next = rest.bind f := by
  cases session with
  | done a => exact .inl ⟨a, rfl⟩
  | _ =>
    cases h
    exact .inr ⟨_, by constructor, rfl⟩

/-- A session that goes on as another one does the acts of both. -/
theorem Yields.of_bind {session : Session α} {f : α → Session β} {acts : List Act} {b : β}
    (h : (session.bind f).Yields acts b) :
    ∃ first a second, session.Yields first a ∧ (f a).Yields second b ∧ acts = first ++ second := by
  induction acts generalizing session with
  | nil =>
    -- Only a session that has ended does nothing.
    cases session with
    | done a => exact ⟨[], a, [], .done, h, rfl⟩
    | _ => cases h
  | cons act acts ih =>
    generalize hwhole : session.bind f = whole at h
    cases h with
    | act hdoes hrest =>
      subst hwhole
      rcases hdoes.of_bind with ⟨a, rfl⟩ | ⟨rest, hstep, rfl⟩
      · exact ⟨[], a, act :: acts, .done, .act hdoes hrest, rfl⟩
      · obtain ⟨first, a, second, hfirst, hsecond, rfl⟩ := ih hrest
        exact ⟨act :: first, a, second, .act hstep hfirst, hsecond, rfl⟩

theorem Yields.of_done {acts : List Act} {a b : α} (h : (Session.done a).Yields acts b) :
    acts = [] ∧ b = a := by
  cases h with
  | done => exact ⟨rfl, rfl⟩
  | act hdoes hrest => cases hdoes

theorem Yields.of_cancel_done {acts : List Act} {a b : α}
    (h : (Session.cancel (.done a)).Yields acts b) : acts = [.cancel] ∧ b = a := by
  cases h with
  | act hdoes hrest =>
    cases hdoes
    obtain ⟨rfl, rfl⟩ := hrest.of_done
    exact ⟨rfl, rfl⟩

theorem Yields.of_map {session : Session α} {f : α → β} {acts : List Act} {b : β}
    (h : (f <$> session).Yields acts b) : ∃ a, session.Yields acts a ∧ b = f a := by
  obtain ⟨first, a, second, hfirst, hsecond, rfl⟩ := Yields.of_bind h
  obtain ⟨rfl, hb⟩ := Yields.of_done hsecond
  exact ⟨a, by rwa [List.append_nil], hb⟩

end Session

/-! ## Networks with a state -/

variable {σ τ : Type}

/-- An act on a network, and the state that it leaves. -/
inductive Network.Does (net : Network (StateM σ)) (s : σ) : Act → σ → Prop where
  | isCancelled : Does net s (.isCancelled (net.isCancelled s).1) (net.isCancelled s).2
  | cancel : Does net s .cancel (net.cancel s).2
  | openSocket (spec) :
      Does net s (.openSocket spec (net.openSocket spec s).1) (net.openSocket spec s).2
  | send (payload) : Does net s (.send payload (net.send payload s).1) (net.send payload s).2
  | looks (timeout) : Does net s (.looks timeout (net.looks timeout s).1) (net.looks timeout s).2
  | receive : Does net s (.receive (net.receive s).1) (net.receive s).2
  | closeSocket : Does net s .closeSocket (net.closeSocket s).2
  | sleep (millis) : Does net s (.sleep millis) (net.sleep millis s).2
  | drawRequestId : Does net s (.drawRequestId (net.drawRequestId s).1) (net.drawRequestId s).2
  | drawPorts : Does net s (.drawPorts (net.drawPorts s).1) (net.drawPorts s).2

/-- The acts lead from one state to another, one after the other. -/
inductive Plays (does : σ → Act → σ → Prop) : σ → List Act → σ → Prop where
  | nil {s} : Plays does s [] s
  | cons {s act mid acts last} (hdoes : does s act mid) (h : Plays does mid acts last) :
      Plays does s (act :: acts) last

/-- There is a state between any two acts. -/
theorem Plays.of_append {does : σ → Act → σ → Prop} {first rest : List Act} {s last : σ}
    (h : Plays does s (first ++ rest) last) :
    ∃ mid, Plays does s first mid ∧ Plays does mid rest last := by
  induction first generalizing s with
  | nil => exact ⟨s, .nil, h⟩
  | cons act first ih =>
    cases h with
    | cons hdoes hrest =>
      obtain ⟨mid, hfirst, hlast⟩ := ih hrest
      exact ⟨mid, .cons hdoes hfirst, hlast⟩

/-- What holds of each act also holds of what is seen of it. -/
theorem Plays.map {does : σ → Act → σ → Prop} {sees : τ → Act → τ → Prop} {f : σ → τ}
    (hsees : ∀ s act next, does s act next → sees (f s) act (f next)) {s last : σ}
    {acts : List Act} (h : Plays does s acts last) : Plays sees (f s) acts (f last) := by
  induction h with
  | nil => exact .nil
  | cons hdoes _ ih => exact .cons (hsees _ _ _ hdoes) ih

/-- On a network with a state a session goes one of these ways. -/
theorem Session.exists_yields_run {α : Type} (net : Network (StateM σ)) (session : Session α)
    (s : σ) : ∃ acts, session.Yields acts (session.run net s).1 ∧
      Plays net.Does s acts (session.run net s).2 := by
  induction session generalizing s with
  | done a => exact ⟨[], .done, .nil⟩
  | isCancelled next ih =>
    obtain ⟨acts, h, hplays⟩ := ih (net.isCancelled s).1 (net.isCancelled s).2
    exact ⟨_, .act (.isCancelled _) h, .cons .isCancelled hplays⟩
  | cancel next ih =>
    obtain ⟨acts, h, hplays⟩ := ih (net.cancel s).2
    exact ⟨_, .act .cancel h, .cons .cancel hplays⟩
  | openSocket spec next ih =>
    obtain ⟨acts, h, hplays⟩ := ih (net.openSocket spec s).1 (net.openSocket spec s).2
    exact ⟨_, .act (.openSocket _) h, .cons (.openSocket spec) hplays⟩
  | send payload next ih =>
    obtain ⟨acts, h, hplays⟩ := ih (net.send payload s).1 (net.send payload s).2
    exact ⟨_, .act (.send _) h, .cons (.send payload) hplays⟩
  | looks timeout next ih =>
    obtain ⟨acts, h, hplays⟩ := ih (net.looks timeout s).1 (net.looks timeout s).2
    exact ⟨_, .act (.looks _) h, .cons (.looks timeout) hplays⟩
  | receive next ih =>
    obtain ⟨acts, h, hplays⟩ := ih (net.receive s).1 (net.receive s).2
    exact ⟨_, .act (.receive _) h, .cons .receive hplays⟩
  | closeSocket next ih =>
    obtain ⟨acts, h, hplays⟩ := ih (net.closeSocket s).2
    exact ⟨_, .act .closeSocket h, .cons .closeSocket hplays⟩
  | sleep millis next ih =>
    obtain ⟨acts, h, hplays⟩ := ih (net.sleep millis s).2
    exact ⟨_, .act .sleep h, .cons (.sleep millis) hplays⟩
  | drawRequestId next ih =>
    obtain ⟨acts, h, hplays⟩ := ih (net.drawRequestId s).1 (net.drawRequestId s).2
    exact ⟨_, .act (.drawRequestId _) h, .cons .drawRequestId hplays⟩
  | drawPorts next ih =>
    obtain ⟨acts, h, hplays⟩ := ih (net.drawPorts s).1 (net.drawPorts s).2
    exact ⟨_, .act (.drawPorts _) h, .cons .drawPorts hplays⟩

end ProbeAgent
