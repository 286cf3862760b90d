import ProbeAgent.Proofs.Measurement.Cancellation
import ProbeAgent.Proofs.Measurement.Definition
import ProbeAgent.Proofs.Measurement.Preparation
import ProbeAgent.Proofs.Text.Folded

/-!
# Registries as maps

A registry that was made by any calls knows the names that are the same, up to case, as one with which
it was called, and has for each of them what the last such call gave it (`MethodRegistry.Follows`).
What the built-in registry makes of the options of a method is a definition that its measurement of
that method takes.
-/

namespace ProbeAgent.MethodRegistry

open ProbeAgent.Text (SameName HasNoCapital folded folded_eq_folded_iff eq_folded_iff)

/-! ## One call -/

structure Call where
  name : String
  registration : Registration

def after (registry : MethodRegistry) (call : Call) : MethodRegistry :=
  registry.register call.name call.registration

section Entries

variable {entries : List (String × Registration)} {key : String}

theorem lookup_cons_eq_ite (registration : Registration) (other : String) :
    ((key, registration) :: entries).lookup other =
      if other = key then some registration else entries.lookup other := by
  rw [List.lookup_cons]
  by_cases h : other = key
  · rw [if_pos h, h, beq_self_eq_true]
  · rw [if_neg h, beq_false_of_ne h]

theorem lookup_insertEntry (registration : Registration) (other : String) :
    (insertEntry key registration entries).lookup other =
      if other = key then some registration else entries.lookup other := by
  induction entries with
  | nil => exact lookup_cons_eq_ite registration other
  | cons first rest ih =>
    obtain ⟨name, r⟩ := first
    rw [insertEntry]
    split
    · rename_i heq
      rw [lookup_cons_eq_ite, lookup_cons_eq_ite, ← heq]
      split <;> rfl
    · split
      · exact lookup_cons_eq_ite registration other
      · rename_i hne _
        rw [lookup_cons_eq_ite, lookup_cons_eq_ite, ih]
        -- The first entry has another key.
        by_cases h : other = name
        · rw [if_pos h, if_neg fun hkey => hne (hkey.symm.trans h)]
          exact (if_pos h).symm
        · rw [if_neg h, if_neg h]

theorem mem_keys_insertEntry {registration : Registration} {other : String} :
    other ∈ (insertEntry key registration entries).map (·.1) ↔
      other = key ∨ other ∈ entries.map (·.1) := by
  induction entries with
  | nil => exact List.mem_cons
  | cons first rest ih =>
    obtain ⟨name, r⟩ := first
    rw [insertEntry]
    split
    · rename_i heq
      subst heq
      simp
    · split
      · exact List.mem_cons
      · rw [List.map_cons, List.mem_cons, ih, List.map_cons, List.mem_cons]
        exact or_left_comm

theorem ascending_insertEntry (h : (entries.map (·.1)).Pairwise (· < ·))
    (registration : Registration) :
    ((insertEntry key registration entries).map (·.1)).Pairwise (· < ·) := by
  induction entries with
  | nil => exact List.pairwise_singleton ..
  | cons first rest ih =>
    obtain ⟨name, r⟩ := first
    obtain ⟨hfirst, hrest⟩ := List.pairwise_cons.1 h
    rw [insertEntry]
    split
    · rename_i heq
      subst heq
      exact h
    · rename_i hne
      split
      · rename_i hlt
        refine List.pairwise_cons.2 ⟨fun other hother => ?_, h⟩
        rcases List.mem_cons.1 hother with rfl | hmem
        · exact hlt
        · exact String.lt_trans hlt (hfirst other hmem)
      · rename_i hge
        have hgt : name < key := Std.lt_of_le_of_ne (String.not_lt.1 hge) (Ne.symm hne)
        refine List.pairwise_cons.2 ⟨fun other hother => ?_, ih hrest⟩
        rcases mem_keys_insertEntry.1 hother with rfl | hmem
        · exact hgt
        · exact hfirst other hmem

end Entries

theorem find?_after (registry : MethodRegistry) (call : Call) (name : String) :
    (registry.after call).find? name =
      if SameName call.name name then some call.registration else registry.find? name := by
  unfold find? after register
  rw [lookup_insertEntry]
  simp only [eq_comm (a := folded name), folded_eq_folded_iff]

/-! ## All calls -/

def afterAll (registry : MethodRegistry) (calls : List Call) : MethodRegistry :=
  calls.foldl after registry

/-- The last call with a name that is the same up to case. -/
def lastCall? (calls : List Call) (name : String) : Option Call :=
  (calls.filter (SameName ·.name name)).getLast?

/-- The calls that make the built-in registry. -/
def builtInCalls : List Call :=
  [Method.udpPing, .traceroute, .snmp].map fun method => ⟨method.name, .ofMethod method⟩

theorem builtIn_eq : builtIn = empty.afterAll builtInCalls := rfl

variable {calls : List Call} {name : String}

theorem lastCall?_concat (calls : List Call) (call : Call) (name : String) :
    lastCall? (calls ++ [call]) name =
      if SameName call.name name then some call else lastCall? calls name := by
  unfold lastCall?
  rw [List.filter_append]
  by_cases h : SameName call.name name
  · rw [if_pos h, List.filter_cons_of_pos (by simpa using h), List.filter_nil,
      List.getLast?_concat]
  · rw [if_neg h, List.filter_cons_of_neg (by simpa using h), List.filter_nil, List.append_nil]

theorem lastCall?_eq_none_iff :
    lastCall? calls name = none ↔ ∀ call ∈ calls, ¬ SameName call.name name := by
  unfold lastCall?
  rw [List.getLast?_eq_none_iff, List.filter_eq_nil_iff]
  simp

theorem lastCall?_append_cons {call : Call} {later : List Call} (h : SameName call.name name)
    (hlater : ∀ other ∈ later, ¬ SameName other.name name) (earlier : List Call) :
    lastCall? (earlier ++ call :: later) name = some call := by
  have hnone : later.filter (SameName ·.name name) = [] :=
    List.filter_eq_nil_iff.2 fun other hother => by simpa using hlater other hother
  unfold lastCall?
  rw [List.filter_append, List.filter_cons_of_pos (by simpa using h), hnone, List.getLast?_concat]

/-- What is to be known of a registry that was made by some calls. -/
structure Follows (registry : MethodRegistry) (calls : List Call) : Prop where
  find?_eq : ∀ name, registry.find? name = (lastCall? calls name).map (·.registration)
  ascending : registry.names.Pairwise (· < ·)
  mem_names : ∀ key, key ∈ registry.names ↔ ∃ call ∈ calls, key = folded call.name

namespace Follows

theorem empty : Follows empty [] :=
  ⟨fun _ => rfl, .nil, fun _ => by simp [names, MethodRegistry.empty]⟩

theorem after {registry : MethodRegistry} (h : Follows registry calls) (call : Call) :
    Follows (registry.after call) (calls ++ [call]) where
  find?_eq name := by
    rw [find?_after, lastCall?_concat, h.find?_eq name]
    split <;> rfl
  ascending := ascending_insertEntry h.ascending _
  mem_names key := by
    show key ∈ (insertEntry (folded call.name) call.registration registry.entries).map (·.1) ↔ _
    rw [mem_keys_insertEntry]
    have hold : key ∈ registry.entries.map (·.1) ↔ _ := h.mem_names key
    rw [hold]
    simp only [List.mem_append, List.mem_singleton, or_and_right, exists_or, exists_eq_left]
    exact or_comm

theorem afterAll {registry : MethodRegistry} (h : Follows registry calls) (more : List Call) :
    Follows (registry.afterAll more) (calls ++ more) := by
  induction more generalizing registry calls with
  | nil =>
    rw [List.append_nil]
    exact h
  | cons call more ih =>
    have hrest := ih (h.after call)
    rwa [List.append_assoc] at hrest

theorem builtIn : Follows builtIn builtInCalls := by
  rw [builtIn_eq]
  exact Follows.empty.afterAll builtInCalls

theorem contains_iff {registry : MethodRegistry} (h : Follows registry calls) :
    registry.contains name = true ↔ ∃ call ∈ calls, SameName call.name name := by
  unfold contains
  rw [h.find?_eq, Option.isSome_map, Option.isSome_iff_ne_none, Ne, lastCall?_eq_none_iff]
  simp

end Follows

/-! ## What a registry answers -/

theorem measurement_of_find? {registry : MethodRegistry} {registration : Registration}
    (h : registry.find? name = some registration) :
    registry.measurement name = .ok registration.fresh := by
  rw [measurement, h]
  rfl

theorem definition_of_find? {registry : MethodRegistry} {registration : Registration}
    (h : registry.find? name = some registration) (options : Json) :
    registry.definition name options =
      (registration.parse options).mapError (.invalidOptions (folded name)) := by
  rw [definition, h]
  dsimp only
  cases registration.parse options <;> rfl

theorem measurement_of_unknown {registry : MethodRegistry} (h : registry.find? name = none) :
    registry.measurement name = .error (.unknownMethod name) := by
  rw [measurement, h]
  rfl

theorem definition_of_unknown {registry : MethodRegistry} (h : registry.find? name = none)
    (options : Json) : registry.definition name options = .error (.unknownMethod name) := by
  rw [definition, h]
  rfl

/-- The registry knows the names of the calls, up to case.  Definitions and measurements of such a
name are made by one registration, which is that of the last call with the name. -/
structure LastWins (registry : MethodRegistry) (calls : List Call) : Prop where
  contains_iff : ∀ name, registry.contains name = true ↔ ∃ call ∈ calls, SameName call.name name
  unknown : ∀ name, (∀ call ∈ calls, ¬ SameName call.name name) →
    registry.measurement name = .error (.unknownMethod name) ∧
      ∀ options, registry.definition name options = .error (.unknownMethod name)
  known : ∀ name earlier call later, calls = earlier ++ call :: later →
    SameName call.name name → (∀ other ∈ later, ¬ SameName other.name name) →
    registry.measurement name = .ok call.registration.fresh ∧
      ∀ options, registry.definition name options =
        (call.registration.parse options).mapError (.invalidOptions (folded name))
  names_ascending : registry.names.Pairwise (· < ·)
  mem_names : ∀ key, key ∈ registry.names ↔
    HasNoCapital key ∧ ∃ call ∈ calls, SameName call.name key

theorem Follows.lastWins {registry : MethodRegistry} (h : Follows registry calls) :
    registry.LastWins calls where
  contains_iff _ := h.contains_iff
  unknown name hnone := by
    have hfind : registry.find? name = none := by
      rw [h.find?_eq, lastCall?_eq_none_iff.2 hnone]
      rfl
    exact ⟨measurement_of_unknown hfind, definition_of_unknown hfind⟩
  known name earlier call later hcalls hsame hlater := by
    have hfind : registry.find? name = some call.registration := by
      rw [h.find?_eq, hcalls, lastCall?_append_cons hsame hlater]
      rfl
    exact ⟨measurement_of_find? hfind, definition_of_find? hfind⟩
  names_ascending := h.ascending
  mem_names key := by
    rw [h.mem_names]
    simp only [eq_folded_iff]
    constructor
    · rintro ⟨call, hcall, hkey, hsame⟩
      exact ⟨hkey, call, hcall, hsame⟩
    · rintro ⟨hkey, call, hcall, hsame⟩
      exact ⟨call, hcall, hkey, hsame⟩

/-! ## Definitions and measurements of built-in methods -/

theorem builtIn_measurement_of_definition {options : Json} {d : Definition}
    (h : builtIn.definition name options = .ok d) :
    builtIn.measurement name = .ok (.unprepared d.method) :=
  measurement_of_find? (builtIn_find?_method d.method (builtIn_definition_eq_ok.1 h).1)

theorem method_unprepared (method : Method) : (Measurement.unprepared method).method = method := by
  cases method <;> rfl

/-- Whatever calls are made of an empty registry or of the built-in one, the last call for a name
counts.  For options of which the built-in registry makes a definition it has a measurement of that
method, which does not take the definition for one of another method. -/
theorem last_call_wins (calls : List Call) :
    (empty.afterAll calls).LastWins calls ∧
      (builtIn.afterAll calls).LastWins (builtInCalls ++ calls) ∧
      ∀ name options d, builtIn.definition name options = .ok d →
        ∃ measurement, builtIn.measurement name = .ok measurement ∧
          measurement.method = d.method ∧
          (∀ ports expected found,
            measurement.prepare ports d ≠ .error (.wrongDefinition expected found)) ∧
          ∀ acts outcome next, (measurement.prepareInPlace d).Yields acts (outcome, next) →
            ∀ expected found, outcome ≠ .error (.wrongDefinition expected found) := by
  refine ⟨(Follows.empty.afterAll calls).lastWins, (Follows.builtIn.afterAll calls).lastWins, ?_⟩
  intro name options d hdefinition
  have hmethod := method_unprepared d.method
  have hrefuses := Measurement.prepare_onlyRefuses hmethod
  refine ⟨_, builtIn_measurement_of_definition hdefinition, hmethod,
    fun ports expected found => (hrefuses ports).ne_wrongDefinition expected found, ?_⟩
  intro acts outcome next hyields expected found
  rcases Measurement.prepareInPlace_yields hyields with ⟨e, -, rfl, -, hrefused⟩ | ⟨ports, -, rfl, -⟩
  · have hne := (hrefuses (.ofDraws 0 0)).ne_wrongDefinition expected found
    rw [hrefused] at hne
    exact fun heq => hne (by cases heq; rfl)
  · exact nofun

end ProbeAgent.MethodRegistry
