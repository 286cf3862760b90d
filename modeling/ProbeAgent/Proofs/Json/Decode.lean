import ProbeAgent.Json.Decode
import ProbeAgent.Proofs.Json.Value
import ProbeAgent.Proofs.Time.Text

/-!
# Decoding what was written

Numbers, strings, lists and optional values that were written are read back from the value in memory.
So is a record whose fields were written in the order of their declaration (`record_kept`), whatever
the order of their keys.
-/

namespace ProbeAgent

namespace Doc

/-! ## Plain values -/

/-- A value in memory, as it is decoded. -/
def kept (value : Json) : Doc := ofJson value.sorted

theorem kept_arr (items : List Json) : kept (.arr items) = .arr (items.map kept) none := by
  rw [kept, Json.sorted, ofJson, Json.sortedItems_eq_map, ofItems_eq_map, List.map_map]
  rfl

theorem kept_eq_null {value : Json} (h : kept value = .null) : value = .null := by
  cases value with
  | null => rfl
  | bool | int | float | str | arr | obj => cases h

theorem int?_kept {name : String} {low high n : Int} (hlow : low ≤ n) (hhigh : n ≤ high) :
    int? name low high (kept (.int n)) = .ok n :=
  if_pos ⟨hlow, hhigh⟩

@[simp] theorem uint8_kept (n : UInt8) : uint8 (kept (.int n.toNat)) = .ok n := by
  have := n.toNat_lt
  rw [uint8, int?_kept (by omega) (by omega)]
  exact congrArg Except.ok (UInt8.ofNat_toNat)

@[simp] theorem uint16_kept (n : UInt16) : uint16 (kept (.int n.toNat)) = .ok n := by
  have := n.toNat_lt
  rw [uint16, int?_kept (by omega) (by omega)]
  exact congrArg Except.ok (UInt16.ofNat_toNat)

@[simp] theorem uint32_kept (n : UInt32) : uint32 (kept (.int n.toNat)) = .ok n := by
  have := n.toNat_lt
  rw [uint32, int?_kept (by omega) (by omega)]
  exact congrArg Except.ok (UInt32.ofNat_toNat)

@[simp] theorem uint64_kept (n : UInt64) : uint64 (kept (.int n.toNat)) = .ok n := by
  have := n.toNat_lt
  rw [uint64, int?_kept (by omega) (by omega)]
  exact congrArg Except.ok (UInt64.ofNat_toNat)

@[simp] theorem count_kept (n : UInt64) : count (kept (.int n.toNat)) = .ok n := by
  have := n.toNat_lt
  rw [count, int?_kept (by omega) (by omega)]
  exact congrArg Except.ok (UInt64.ofNat_toNat)

theorem double_kept {x : Float} (h : x.isFinite = true) : double (kept (.ofFloat x)) = .ok x := by
  rw [Json.ofFloat, if_pos h]
  rfl

@[simp] theorem text_kept (s : String) : text (kept (.str s)) = .ok s := rfl

@[simp] theorem instant_kept (t : Instant) : instant (kept (.str t.render)) = .ok t := by
  have hkept : kept (.str t.render) = .str t.render := rfl
  rw [hkept, instant, t.parse_render]
  rfl

theorem jsonValue_kept (value : Json) : jsonValue (kept value) = .ok value.sorted := by
  have hordered : value.sorted.Ordered := ordered_of_json (ofJson value) (json_ofJson value)
  rw [jsonValue, kept, json_ofJson, Json.sorted_eq_self _ hordered]
  rfl

theorem ordered_of_jsonValue {d : Doc} {value : Json} (h : jsonValue d = .ok value) :
    value.Ordered := by
  rw [jsonValue] at h
  cases hjson : d.json with
  | ok read =>
    rw [hjson] at h
    cases h
    exact ordered_of_json d hjson
  | error fault =>
    rw [hjson] at h
    cases h

/-! ## Lists and optional values -/

variable {α : Type} {decode : Doc → Decoded α} {encode : α → Json}

theorem list_kept {items : List α} (h : ∀ a ∈ items, decode (kept (encode a)) = .ok a) :
    list decode (kept (.arr (items.map encode))) = .ok items := by
  have hitems : ((items.map encode).map kept).mapM decode = .ok items := by
    induction items with
    | nil => rfl
    | cons a rest ih =>
      rw [List.map_cons, List.map_cons, List.mapM_cons, h a List.mem_cons_self,
        ih fun b hb => h b (List.mem_cons_of_mem _ hb)]
      rfl
  rw [kept_arr, list, hitems]
  rfl

theorem option_of_ne_null {d : Doc} (h : d ≠ .null) : option decode d = some <$> decode d := by
  cases d with
  | null => exact absurd rfl h
  | _ => rfl

/-- A value that may be missing is read where it is written, unless it is written as `null`. -/
theorem option_kept {a : α} (h : decode (kept (encode a)) = .ok a) (hnull : encode a ≠ .null) :
    option decode (kept (encode a)) = .ok (some a) := by
  rw [option_of_ne_null fun hkept => hnull (kept_eq_null hkept), h]
  rfl

theorem option_ofOption {a : Option α} (h : ∀ b ∈ a, decode (kept (encode b)) = .ok b)
    (hnull : ∀ b, encode b ≠ .null) :
    option decode (kept (.ofOption (a.map encode))) = .ok a := by
  cases a with
  | none => rfl
  | some b => exact option_kept (h b rfl) (hnull b)

/-! ## Fields that were written -/

@[simp] theorem ok_bind {α β : Type} (a : α) (next : α → Decoded β) :
    (Except.ok a >>= next) = next a := rfl

@[simp] theorem ok_map {α β : Type} (a : α) (f : α → β) :
    (f <$> Except.ok a : Decoded β) = .ok (f a) := rfl

theorem discard_ok {d : Doc} {a : α} (h : decode d = .ok a) : discard (decode d) = .ok () := by
  rw [h]
  rfl

/-- Fields in the order of their rules, each of which can be read; some may be left out. -/
inductive Written : List FieldRule → Json.Fields → Prop where
  | nil : Written [] []
  | field {rule : FieldRule} {rules : List FieldRule} {value : Json} {fields : Json.Fields}
      (check : rule.check (kept value) = .ok ()) (rest : Written rules fields) :
      Written (rule :: rules) ((rule.name, value) :: fields)
  | leftOut {rule : FieldRule} {rules : List FieldRule} {fields : Json.Fields}
      (absent : rule.absent ≠ .refused) (rest : Written rules fields) :
      Written (rule :: rules) fields

theorem Written.optional {name : String} {absent : Absent} {rules : List FieldRule}
    {fields : Json.Fields} {a : Option α}
    (h : ∀ b ∈ a, option decode (kept (encode b)) = .ok (some b)) (habsent : absent ≠ .refused)
    (rest : Written rules fields) :
    Written (.of name absent (option decode) :: rules)
      (Json.optionalField name (a.map encode) ++ fields) := by
  cases a with
  | none => exact .leftOut habsent rest
  | some b => exact .field (discard_ok (h b rfl)) rest

@[simp] theorem lookup_optionalField (key name : String) (value : Option Json) :
    (Json.optionalField key value).lookup name = if name = key then value else none := by
  cases value with
  | none => simp [Json.optionalField]
  | some value =>
    by_cases h : name = key
    · simp [Json.optionalField, h]
    · simp [Json.optionalField, h, List.lookup_cons, beq_false_of_ne h]

theorem FieldValues.get_optional {values : FieldValues} {name : String} {a : Option α}
    (hlookup : values.lookup name = (a.map encode).map kept)
    (h : ∀ b ∈ a, option decode (kept (encode b)) = .ok (some b)) :
    values.get name none (option decode) = .ok a := by
  rw [get, hlookup]
  cases a with
  | none => rfl
  | some b => exact h b rfl

/-! ## Rules -/

/-- No rule answers to the name of a later one. -/
def Separate (rules : List FieldRule) : Prop :=
  rules.Pairwise fun a b => a.answersTo b.name = false

instance (rules : List FieldRule) : Decidable (Separate rules) :=
  inferInstanceAs (Decidable (List.Pairwise _ _))

theorem answersTo_name (rule : FieldRule) : rule.answersTo rule.name = true := by
  simp [FieldRule.answersTo]

variable {rules : List FieldRule} {fields : Json.Fields}

theorem Separate.find?_name (h : Separate rules) {rule : FieldRule} (hmem : rule ∈ rules) :
    rules.find? (·.answersTo rule.name) = some rule := by
  induction rules with
  | nil => cases hmem
  | cons first rest ih =>
    obtain ⟨hfirst, hrest⟩ := List.pairwise_cons.1 h
    rcases List.mem_cons.1 hmem with rfl | hmem
    · exact List.find?_cons_of_pos (answersTo_name rule)
    · rw [List.find?_cons_of_neg (Bool.not_eq_true _ ▸ hfirst rule hmem), ih hrest hmem]

theorem Separate.nodup_names (h : Separate rules) : (rules.map (·.name)).Nodup := by
  refine List.pairwise_map.2 (h.imp ?_)
  intro a b hanswers heq
  rw [← heq, answersTo_name] at hanswers
  cases hanswers

theorem Written.keys_sublist (h : Written rules fields) :
    (Json.keys fields).Sublist (rules.map (·.name)) := by
  induction h with
  | nil => exact .slnil
  | field check rest ih => exact ih.cons_cons _
  | leftOut absent rest ih => exact ih.cons _

theorem Written.exists_rule (h : Written rules fields) :
    ∀ field ∈ fields, ∃ rule ∈ rules, rule.name = field.1 ∧ rule.check (kept field.2) = .ok () := by
  induction h with
  | nil => intro field hfield; cases hfield
  | @field rule _ _ _ check rest ih =>
    intro field hfield
    rcases List.mem_cons.1 hfield with rfl | hrest
    · exact ⟨rule, List.mem_cons_self, rfl, check⟩
    · obtain ⟨rule, hmem, hrule⟩ := ih field hrest
      exact ⟨rule, List.mem_cons_of_mem _ hmem, hrule⟩
  | leftOut absent rest ih =>
    intro field hfield
    obtain ⟨rule, hmem, hrule⟩ := ih field hfield
    exact ⟨rule, List.mem_cons_of_mem _ hmem, hrule⟩

theorem Written.mem_keys (h : Written rules fields) :
    ∀ rule ∈ rules, rule.absent = .refused → rule.name ∈ Json.keys fields := by
  induction h with
  | nil => intro rule hrule; cases hrule
  | field check rest ih =>
    intro rule hrule habsent
    rcases List.mem_cons.1 hrule with rfl | hrest
    · exact List.mem_cons_self
    · exact List.mem_cons_of_mem _ (ih rule hrest habsent)
  | leftOut absent rest ih =>
    intro rule hrule habsent
    rcases List.mem_cons.1 hrule with rfl | hrest
    · exact absurd habsent absent
    · exact ih rule hrest habsent

/-! ## Reading the fields of a record -/

theorem visitFields_of_rule {values : FieldValues} {name : String} {value : Doc}
    {rest : List (Doc × Doc)} {rule : FieldRule}
    (hfind : rules.find? (·.answersTo name) = some rule) :
    visitFields rules values ((.str name, value) :: rest) =
      if (values.lookup rule.name).isSome then throw (.duplicateField rule.name)
      else rule.check value >>= fun _ =>
        visitFields rules (values ++ [(rule.name, value)]) rest := by
  have hkey : ofFault (Doc.str name).key = .ok name := rfl
  rw [visitFields, hkey, ok_bind, hfind]
  cases hlookup : values.lookup rule.name with
  | none => simp only [hlookup]; rfl
  | some d => simp only [hlookup]; rfl

theorem visitFields_of_unknown {values : FieldValues} {name : String} {value : Doc}
    {rest : List (Doc × Doc)} (hfind : rules.find? (·.answersTo name) = none) :
    visitFields rules values ((.str name, value) :: rest) =
      ofFault value.skip >>= fun _ => visitFields rules values rest := by
  have hkey : ofFault (Doc.str name).key = .ok name := rfl
  rw [visitFields, hkey, ok_bind, hfind]

theorem lookup_append_singleton {values : FieldValues} {name other : String} (h : other ≠ name)
    (value : Doc) : (values ++ [(name, value)]).lookup other = values.lookup other := by
  have hlast : [(name, value)].lookup other = none := by
    simp [List.lookup_eq_none_iff, h]
  rw [List.lookup_append, hlast, Option.or_none]

/-- Fields that can be read are read in their order. -/
theorem visitFields_ofFields (hrules : Separate rules) {values : FieldValues}
    (h : ∀ field ∈ fields, ∃ rule ∈ rules, rule.name = field.1 ∧
      rule.check (ofJson field.2) = .ok ())
    (hkeys : (Json.keys fields).Nodup) (hnew : ∀ key ∈ Json.keys fields, values.lookup key = none) :
    visitFields rules values (ofFields fields) =
      .ok (values ++ fields.map fun field => (field.1, ofJson field.2)) := by
  induction fields generalizing values with
  | nil => exact congrArg Except.ok (List.append_nil values).symm
  | cons field rest ih =>
    obtain ⟨rule, hmem, hname, hcheck⟩ := h field List.mem_cons_self
    have hfind : rules.find? (·.answersTo field.1) = some rule := hname ▸ hrules.find?_name hmem
    obtain ⟨hfirst, hrest⟩ := List.nodup_cons.1 hkeys
    have hlater : ∀ key ∈ Json.keys rest,
        (values ++ [(field.1, ofJson field.2)]).lookup key = none := by
      intro key hkey
      have hne : key ≠ field.1 := by
        rintro rfl
        exact hfirst hkey
      rw [lookup_append_singleton hne]
      exact hnew key (List.mem_cons_of_mem _ hkey)
    rw [ofFields, visitFields_of_rule hfind, hname, hnew field.1 List.mem_cons_self,
      Option.isSome_none, if_neg Bool.false_ne_true, hcheck]
    exact (ih (fun other hother => h other (List.mem_cons_of_mem _ hother)) hrest hlater).trans
      (congrArg Except.ok (List.append_assoc ..))

theorem requireFields_eq_ok {values : FieldValues}
    (h : ∀ rule ∈ rules, rule.absent = .refused → (values.lookup rule.name).isSome = true) :
    requireFields values rules = .ok () := by
  induction rules with
  | nil => rfl
  | cons rule rest ih =>
    have hrule : ¬ (rule.absent = .refused ∧ (values.lookup rule.name).isNone = true) := by
      rintro ⟨habsent, hnone⟩
      have hsome := h rule List.mem_cons_self habsent
      rw [Option.isNone_iff_eq_none.1 hnone] at hsome
      cases hsome
    rw [requireFields, if_neg hrule]
    exact ih fun other hother => h other (List.mem_cons_of_mem _ hother)

/-- A record that was written is read with its fields, in the order of their keys. -/
theorem record_kept (rules : List FieldRule) (value : Json) (hvalue : value = .obj fields)
    (hrules : Separate rules) (h : Written rules fields) (source : DocSource) (type : String) :
    ∃ values, record source type rules (kept value) = .ok values ∧
      ∀ name, values.lookup name = (value.get? name).map kept := by
  subst hvalue
  let sorted := Json.insertFields [] (Json.sortedFields fields)
  let values : FieldValues := sorted.map fun field => (field.1, ofJson field.2)
  have hnodup : (Json.keys fields).Nodup := h.keys_sublist.nodup hrules.nodup_names
  have hperm : sorted.Perm (Json.sortedFields fields) := Json.perm_sortedFields hnodup
  have hsorted : (Json.keys sorted).Nodup := by
    rw [← Json.keys_sortedFields] at hnodup
    exact (hperm.map Prod.fst).nodup_iff.2 hnodup
  have hrule : ∀ field ∈ sorted, ∃ rule ∈ rules, rule.name = field.1 ∧
      rule.check (ofJson field.2) = .ok () := by
    intro field hfield
    rw [hperm.mem_iff, Json.sortedFields_eq_map] at hfield
    obtain ⟨written, hmem, rfl⟩ := List.mem_map.1 hfield
    exact h.exists_rule written hmem
  have hvisit : visitFields rules [] (ofFields sorted) = .ok values :=
    visitFields_ofFields hrules hrule hsorted fun _ _ => rfl
  have hlookup : ∀ name, values.lookup name = ((Json.obj fields).get? name).map kept := by
    intro name
    rw [Json.get?, Json.lookup_map, Json.lookup_sortedFields hnodup, Option.map_map]
    rfl
  have hrequire : requireFields values rules = .ok () := by
    refine requireFields_eq_ok fun rule hmem habsent => ?_
    obtain ⟨field, hfield, hname⟩ := List.mem_map.1 (h.mem_keys rule hmem habsent)
    rw [hlookup, Option.isSome_map, Json.get?, List.lookup_isSome_iff]
    exact ⟨field, hfield, beq_iff_eq.2 hname.symm⟩
  refine ⟨values, ?_, hlookup⟩
  show (visitFields rules [] (ofFields sorted) >>= fun values => _) = _
  rw [hvisit]
  show (requireFields values rules >>= fun _ => _) = _
  rw [hrequire]
  rfl

/-! ## Tagged values -/

theorem tagged_kept (source : DocSource) (tag : String) (value : Json) :
    tagged source (kept (.obj [(tag, value)])) = .ok ⟨tag, some (kept value), none⟩ := by
  cases source <;> rfl

theorem Tagged.require_eq_ok {tag : String} {d : Doc} {a : α} (h : decode d = .ok a) :
    Tagged.require ⟨tag, some d, none⟩ decode = .ok a := by
  show (decode d >>= fun a => _) = _
  rw [h]
  rfl

/-! ## Fields of a record that was read -/

theorem visitFields_eq_ok {values result : FieldValues} {key : String} {value : Json}
    (h : visitFields rules values (ofFields ((key, value) :: fields)) = .ok result) :
    (rules.find? (·.answersTo key) = none ∧
        visitFields rules values (ofFields fields) = .ok result) ∨
      ∃ rule, rules.find? (·.answersTo key) = some rule ∧ values.lookup rule.name = none ∧
        visitFields rules (values ++ [(rule.name, ofJson value)]) (ofFields fields) =
          .ok result := by
  rw [ofFields] at h
  cases hfind : rules.find? (·.answersTo key) with
  | none =>
    rw [visitFields_of_unknown hfind, skip_ofJson] at h
    exact .inl ⟨rfl, h⟩
  | some rule =>
    rw [visitFields_of_rule hfind] at h
    cases hlookup : values.lookup rule.name with
    | some d =>
      rw [hlookup, Option.isSome_some, if_pos rfl] at h
      cases h
    | none =>
      rw [hlookup, Option.isSome_none, if_neg Bool.false_ne_true] at h
      obtain ⟨_, -, h⟩ := exists_of_bind_eq_ok h
      exact .inr ⟨rule, rfl, hlookup, h⟩

theorem lookup_of_visitFields {values result : FieldValues}
    (h : visitFields rules values (ofFields fields) = .ok result) {name : String} {d : Doc}
    (hd : values.lookup name = some d) : result.lookup name = some d := by
  induction fields generalizing values with
  | nil =>
    cases h
    exact hd
  | cons field rest ih =>
    rcases visitFields_eq_ok h with ⟨-, hrest⟩ | ⟨rule, -, -, hrest⟩
    · exact ih hrest hd
    · refine ih hrest ?_
      rw [List.lookup_append, hd]
      rfl

/-- Each field that a rule answers to is the only one, since a second one is refused. -/
theorem lookup_of_mem_visitFields {values result : FieldValues}
    (h : visitFields rules values (ofFields fields) = .ok result) {field : String × Json}
    (hmem : field ∈ fields) {rule : FieldRule}
    (hfind : rules.find? (·.answersTo field.1) = some rule) :
    result.lookup rule.name = some (ofJson field.2) := by
  induction fields generalizing values with
  | nil => cases hmem
  | cons first rest ih =>
    rcases visitFields_eq_ok h with ⟨hnone, hrest⟩ | ⟨found, hfound, hnew, hrest⟩
    · rcases List.mem_cons.1 hmem with rfl | hmem
      · rw [hfind] at hnone
        cases hnone
      · exact ih hrest hmem
    · rcases List.mem_cons.1 hmem with rfl | hmem
      · rw [hfind] at hfound
        cases hfound
        refine lookup_of_visitFields hrest ?_
        rw [List.lookup_append, hnew, List.lookup_cons_self]
        rfl
      · exact ih hrest hmem

theorem exists_of_lookup_visitFields {values result : FieldValues}
    (h : visitFields rules values (ofFields fields) = .ok result) {name : String} {d : Doc}
    (hd : result.lookup name = some d) : values.lookup name = some d ∨
      ∃ field ∈ fields, ∃ rule, rules.find? (·.answersTo field.1) = some rule ∧
        rule.name = name := by
  induction fields generalizing values with
  | nil =>
    cases h
    exact .inl hd
  | cons first rest ih =>
    rcases visitFields_eq_ok h with ⟨-, hrest⟩ | ⟨rule, hfind, -, hrest⟩
    · refine (ih hrest).imp_right ?_
      rintro ⟨field, hfield, hrule⟩
      exact ⟨field, List.mem_cons_of_mem _ hfield, hrule⟩
    · by_cases hname : rule.name = name
      · exact .inr ⟨first, List.mem_cons_self, rule, hfind, hname⟩
      · rcases ih hrest with hvalues | ⟨field, hfield, hrule⟩
        · rw [lookup_append_singleton (Ne.symm hname)] at hvalues
          exact .inl hvalues
        · exact .inr ⟨field, List.mem_cons_of_mem _ hfield, hrule⟩

theorem isSome_of_requireFields {values : FieldValues} (h : requireFields values rules = .ok ())
    {rule : FieldRule} (hmem : rule ∈ rules) (habsent : rule.absent = .refused) :
    (values.lookup rule.name).isSome = true := by
  induction rules with
  | nil => cases hmem
  | cons first rest ih =>
    rw [requireFields] at h
    split at h
    · cases h
    · rename_i hfirst
      rcases List.mem_cons.1 hmem with rfl | hmem
      · rw [Option.isSome_iff_ne_none]
        intro hnone
        exact hfirst ⟨habsent, Option.isNone_iff_eq_none.2 hnone⟩
      · exact ih h hmem

theorem record_eq_ok {source : DocSource} {type : String} {values : FieldValues}
    (h : record source type rules (ofJson (.obj fields)) = .ok values) :
    visitFields rules [] (ofFields fields) = .ok values ∧ requireFields values rules = .ok () := by
  obtain ⟨visited, hvisit, h⟩ := exists_of_bind_eq_ok h
  obtain ⟨_, hrequire, h⟩ := exists_of_bind_eq_ok h
  cases h
  exact ⟨hvisit, hrequire⟩

/-- A record that cannot do without a field was written with it, by one of its names. -/
theorem exists_field_of_record {source : DocSource} {type : String} {values : FieldValues}
    (h : record source type rules (ofJson (.obj fields)) = .ok values) {rule : FieldRule}
    (hmem : rule ∈ rules) (habsent : rule.absent = .refused) :
    ∃ field ∈ fields, ∃ other, rules.find? (·.answersTo field.1) = some other ∧
      other.name = rule.name := by
  obtain ⟨hvisit, hrequire⟩ := record_eq_ok h
  obtain ⟨d, hd⟩ := Option.isSome_iff_exists.1 (isSome_of_requireFields hrequire hmem habsent)
  exact (exists_of_lookup_visitFields hvisit hd).resolve_left (nomatch ·)

/-- A record that cannot do without a field is not read from fields of which it knows none. -/
theorem record_kept_eq_error (rules : List FieldRule) (value : Json) (names : List String)
    (hvalue : value = .obj fields) (hnames : Json.keys fields = names)
    (hunknown : ∀ name ∈ names, rules.find? (·.answersTo name) = none) {rule : FieldRule}
    (hmem : rule ∈ rules) (habsent : rule.absent = .refused) (source : DocSource) (type : String) :
    ∃ error, record source type rules (kept value) = .error error := by
  subst hvalue hnames
  cases hrecord : record source type rules (kept (.obj fields)) with
  | error error => exact ⟨error, rfl⟩
  | ok values =>
    obtain ⟨field, hfield, other, hfind, -⟩ := exists_field_of_record hrecord hmem habsent
    have hkey : field.1 ∈ Json.keys (Json.sortedFields fields) :=
      List.mem_map_of_mem ((Json.mem_insertFields hfield).resolve_left List.not_mem_nil)
    rw [Json.keys_sortedFields] at hkey
    rw [hunknown field.1 hkey] at hfind
    cases hfind

end Doc

end ProbeAgent
