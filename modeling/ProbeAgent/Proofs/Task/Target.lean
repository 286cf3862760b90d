import ProbeAgent.CommandLine.Display
import ProbeAgent.Proofs.Measurement.Definition

/-!
# The target that is shown for a task

The options of a task are read twice: as a definition, which says where the probes go, and by their
keys, for the target that is shown.  Both find the same host in an object.  A list of options has no
keys, so that the definition has a host and nothing is shown.
-/

namespace ProbeAgent

open Doc

/-! ## The host of a definition -/

theorem eq_str_of_text {value : Json} {s : String} (h : text (ofJson value) = .ok s) :
    value = .str s := by
  cases value with
  | str => cases h; rfl
  | null | bool | int | float | arr | obj => cases h

theorem answersTo_hostRule {key : String} :
    hostRule.answersTo key = true ↔ key = "host" ∨ key = "url" := by
  have haliases : hostRule.aliases = ["url"] := rfl
  rw [FieldRule.answersTo, Bool.or_eq_true, beq_iff_eq, List.contains_iff_mem, haliases,
    List.mem_singleton]
  exact or_congr_left eq_comm

theorem find?_hostRule {rules : List FieldRule} {key : String} (h : key = "host" ∨ key = "url") :
    (hostRule :: rules).find? (·.answersTo key) = some hostRule :=
  List.find?_cons_of_pos (answersTo_hostRule.2 h)

section Record

variable {rules : List FieldRule} {fields : Json.Fields} {type host : String} {values : FieldValues}
  (hrecord : record .value type (hostRule :: rules) (ofJson (.obj fields)) = .ok values)

include hrecord

/-- What is written under a name of the host is the host. -/
theorem eq_host_of_lookup (hhost : values.require "host" text = .ok host) {key : String}
    {value : Json} (hkey : key = "host" ∨ key = "url") (h : fields.lookup key = some value) :
    value = .str host := by
  have hlookup := lookup_of_mem_visitFields (record_eq_ok hrecord).1 (Json.mem_of_lookup h)
    (find?_hostRule hkey)
  rw [FieldValues.require, show values.lookup "host" = _ from hlookup] at hhost
  exact eq_str_of_text hhost

/-- The host is there under one of its names. -/
theorem exists_lookup_host (hrules : Separate (hostRule :: rules)) :
    ∃ key value, (key = "host" ∨ key = "url") ∧ fields.lookup key = some value := by
  obtain ⟨field, hmem, rule, hfind, hname⟩ :=
    exists_field_of_record hrecord List.mem_cons_self rfl
  have hsome : (fields.lookup field.1).isSome = true :=
    List.lookup_isSome_iff.2 ⟨field, hmem, beq_self_eq_true _⟩
  obtain ⟨value, hvalue⟩ := Option.isSome_iff_exists.1 hsome
  refine ⟨field.1, value, answersTo_hostRule.1 ?_, hvalue⟩
  -- A later rule would have to have the name of the first one.
  rcases List.find?_cons_eq_some.1 hfind with ⟨hanswers, rfl⟩ | ⟨-, hlater⟩
  · exact hanswers
  · have hseparate := (List.pairwise_cons.1 hrules).1 rule (List.mem_of_find?_eq_some hlater)
    rw [hname, answersTo_name] at hseparate
    cases hseparate

theorem or_get?_eq_host (hrules : Separate (hostRule :: rules))
    (hhost : values.require "host" text = .ok host) :
    ((Json.obj fields).get? "host").or ((Json.obj fields).get? "url") = some (.str host) := by
  simp only [Json.get?]
  cases hfirst : fields.lookup "host" with
  | some value =>
    rw [eq_host_of_lookup hrecord hhost (.inl rfl) hfirst]
    rfl
  | none =>
    obtain ⟨key, value, rfl | rfl, hvalue⟩ := exists_lookup_host hrecord hrules
    · rw [hfirst] at hvalue
      cases hvalue
    · rw [hvalue, eq_host_of_lookup hrecord hhost (.inr rfl) hvalue]
      rfl

end Record

/-- Options that a definition with a host can be made from are an object that names the host, or a
list. -/
theorem host_of_record {rules : List FieldRule} {options : Json} {type host : String}
    {values : FieldValues} (hrules : Separate (hostRule :: rules))
    (hrecord : record .value type (hostRule :: rules) (ofJson options) = .ok values)
    (hhost : values.require "host" text = .ok host) :
    (∃ items, options = .arr items) ∨ (∃ fields, options = .obj fields) ∧
      (options.get? "host").or (options.get? "url") = some (.str host) := by
  cases options with
  | arr items => exact .inl ⟨items, rfl⟩
  | obj fields => exact .inr ⟨⟨fields, rfl⟩, or_get?_eq_host hrecord hrules hhost⟩
  | null | bool | int | float | str => cases hrecord

theorem PingDefinition.record_of_ofDoc {d : Doc} {ping : PingDefinition} (h : ofDoc d = .ok ping) :
    ∃ values, record .value "UdpPingDefinition" rules d = .ok values ∧
      values.require "host" text = .ok ping.host := by
  obtain ⟨values, hrecord, h⟩ := exists_of_bind_eq_ok h
  obtain ⟨host, hhost, h⟩ := exists_of_bind_eq_ok h
  iterate 7 obtain ⟨_, -, h⟩ := exists_of_bind_eq_ok h
  cases h
  exact ⟨values, hrecord, hhost⟩

theorem TracerouteDefinition.record_of_ofDoc {d : Doc} {route : TracerouteDefinition}
    (h : ofDoc d = .ok route) :
    ∃ values, record .value "TracerouteDefinition" rules d = .ok values ∧
      values.require "host" text = .ok route.host := by
  obtain ⟨values, hrecord, h⟩ := exists_of_bind_eq_ok h
  obtain ⟨host, hhost, h⟩ := exists_of_bind_eq_ok h
  iterate 7 obtain ⟨_, -, h⟩ := exists_of_bind_eq_ok h
  cases h
  exact ⟨values, hrecord, hhost⟩

theorem host_of_definition {method : Method} {options : Json} {d : Definition} {host : String}
    (h : Definition.ofOptions method options = .ok d) (hd : d.host = some host) :
    (∃ items, options = .arr items) ∨ (∃ fields, options = .obj fields) ∧
      (options.get? "host").or (options.get? "url") = some (.str host) := by
  cases method with
  | udpPing =>
    obtain ⟨ping, hping, rfl⟩ := exists_of_map_eq_ok h
    obtain ⟨values, hrecord, hhost⟩ := PingDefinition.record_of_ofDoc hping
    cases hd
    exact host_of_record PingDefinition.separate_rules hrecord hhost
  | traceroute =>
    obtain ⟨route, hroute, rfl⟩ := exists_of_map_eq_ok h
    obtain ⟨values, hrecord, hhost⟩ := TracerouteDefinition.record_of_ofDoc hroute
    cases hd
    exact host_of_record TracerouteDefinition.separate_rules hrecord hhost
  | snmp =>
    obtain ⟨scan, -, rfl⟩ := exists_of_map_eq_ok h
    cases hd

/-! ## What is shown -/

namespace TaskSpec

/-- The rows of the task's reports and the lines about its results have this text as the target. -/
structure Shows (spec : TaskSpec) (label : String) : Prop where
  row : ∀ (store : ReportStore) (lookup : TaskId → Option TaskSpec) (position : Nat)
    (report : Report), store.reports[position]? = some report →
    lookup report.taskId = some spec →
    ∃ row, (store.rows lookup)[position]? = some row ∧ row.taskId = report.taskId ∧
      row.target = label
  line : ∀ event : ReportEvent, event.line (some spec) =
    event.verb ++ " task " ++ event.report.taskId.render ++ " " ++ Text.uppercase spec.method ++
      " " ++ label ++ " at " ++ event.report.reportTime.renderSpaced ++ " (" ++
      toString event.report.results.length ++ " results)"

theorem shows_target (spec : TaskSpec) : spec.Shows ((spec.target.map targetLabel).getD "") where
  row := by
    intro store lookup position report hreport hlookup
    rw [ReportStore.rows, List.getElem?_map, hreport]
    refine ⟨_, rfl, rfl, ?_⟩
    show (((lookup report.taskId).bind (·.target)).map targetLabel).getD "" = _
    rw [hlookup]
    rfl
  line _ := rfl

/-- A task of a method with a host shows the host that its probes go to, unless its options are a
list: then it shows none. -/
theorem target_of_definition {spec : TaskSpec} {d : Definition}
    (hmethod : Text.folded spec.method ∈ [Method.udpPing.name, Method.traceroute.name])
    (h : MethodRegistry.builtIn.definition spec.method spec.options = .ok d) :
    ∃ host, d.host = some host ∧
      (((∃ fields, spec.options = .obj fields) ∧ spec.target = some host ∧
          spec.Shows (targetLabel host)) ∨
        ((∃ items, spec.options = .arr items) ∧ spec.target = none ∧ spec.Shows "")) := by
  obtain ⟨hname, hoptions⟩ := MethodRegistry.builtIn_definition_eq_ok.1 h
  have hhost : ∃ host, d.host = some host := by
    cases d with
    | udpPing d => exact ⟨d.host, rfl⟩
    | traceroute d => exact ⟨d.host, rfl⟩
    | snmp d =>
      rw [hname] at hmethod
      simp [Definition.method, Method.name] at hmethod
  obtain ⟨host, hhost⟩ := hhost
  refine ⟨host, hhost, ?_⟩
  have hshows := spec.shows_target
  rcases host_of_definition hoptions hhost with ⟨items, hitems⟩ | ⟨hobject, hnamed⟩
  · have htarget : spec.target = none := by
      rw [target, hitems]
      rfl
    rw [htarget] at hshows
    exact .inr ⟨⟨items, hitems⟩, htarget, hshows⟩
  · have htarget : spec.target = some host := by
      rw [target, hnamed]
      rfl
    rw [htarget] at hshows
    exact .inl ⟨hobject, htarget, hshows⟩

/-- A ping to a host that is named as a URL. -/
def namedHost : TaskSpec where
  id := .ofNat 1
  method := "UDPping"
  options := .obj [("count", .int 1), ("url", .str "192.0.2.1")]
  timing := Schedule.immediate.fresh

theorem namedHost_shown :
    ∃ d, MethodRegistry.builtIn.definition namedHost.method namedHost.options = .ok d ∧
      d.host = some "192.0.2.1" ∧ namedHost.target = some "192.0.2.1" ∧
      namedHost.Shows "192.0.2.1" := by
  have h : MethodRegistry.builtIn.definition namedHost.method namedHost.options =
      .ok (.udpPing { PingDefinition.ofHost "192.0.2.1" with count := 1 }) := rfl
  obtain ⟨host, hhost, ⟨-, htarget, hshows⟩ | ⟨⟨items, hitems⟩, -⟩⟩ :=
    target_of_definition (by decide) h
  · cases hhost
    exact ⟨_, h, rfl, htarget, hshows⟩
  · cases hitems

/-- A ping to the same host, with its options as a list. -/
def listedHost : TaskSpec :=
  { namedHost with options := .arr [.str "192.0.2.1", .int 1] }

theorem listedHost_not_shown :
    ∃ d, MethodRegistry.builtIn.definition listedHost.method listedHost.options = .ok d ∧
      d.host = some "192.0.2.1" ∧ listedHost.target = none ∧
      (((ReportStore.empty 100).record listedHost.id .epoch (.ping (.ofProbes [.unanswered]))).1.rows
        fun _ => some listedHost).map (·.target) = [""] :=
  ⟨.udpPing { PingDefinition.ofHost "192.0.2.1" with count := 1 }, rfl, rfl, rfl, rfl⟩

end TaskSpec

end ProbeAgent
