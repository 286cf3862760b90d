import ProbeAgent.Json.Document

/-!
# Values in memory

A value that is kept has sorted keys.  `Json.sorted` is what becomes of a value, whatever the order
in which it was written (`json_ofJson`), and leaves alone the values that are `Ordered`, which is
every value that has been read (`ordered_of_json`).  Sorting the fields of an object moves them and
nothing else, as long as no key is there twice (`perm_insertFields`).
-/

namespace ProbeAgent

theorem exists_of_bind_eq_ok {ε α β : Type} {x : Except ε α} {f : α → Except ε β} {b : β}
    (h : (x >>= f) = .ok b) : ∃ a, x = .ok a ∧ f a = .ok b := by
  cases x with
  | error e => cases h
  | ok a => exact ⟨a, rfl, h⟩

theorem exists_of_map_eq_ok {ε α β : Type} {x : Except ε α} {f : α → β} {b : β}
    (h : f <$> x = .ok b) : ∃ a, x = .ok a ∧ f a = b := by
  cases x with
  | error e => cases h
  | ok a => exact ⟨a, rfl, Except.ok.inj h⟩

namespace Json

abbrev Fields := List (String × Json)

/-! ## Sorted fields -/

def KeysSorted (fields : Fields) : Prop :=
  fields.Pairwise (·.1 < ·.1)

instance (fields : Fields) : Decidable (KeysSorted fields) :=
  inferInstanceAs (Decidable (List.Pairwise _ _))

def keys (fields : Fields) : List String := fields.map (·.1)

def insertFields (sorted fields : Fields) : Fields :=
  fields.foldl (fun sorted (key, value) => insertField key value sorted) sorted

theorem ofFields_eq (fields : Fields) : ofFields fields = .obj (insertFields [] fields) := rfl

theorem mem_insertField {key : String} {value : Json} {fields : Fields} {field : String × Json}
    (h : field ∈ insertField key value fields) : field = (key, value) ∨ field ∈ fields := by
  induction fields with
  | nil => exact .inl (List.mem_singleton.1 h)
  | cons first rest ih =>
    simp only [insertField] at h
    split at h
    · exact List.mem_cons.1 h
    · split at h
      · exact (List.mem_cons.1 h).imp_right (List.mem_cons_of_mem _)
      · rcases List.mem_cons.1 h with rfl | hrest
        · exact .inr List.mem_cons_self
        · exact (ih hrest).imp_right (List.mem_cons_of_mem _)

theorem mem_insertFields {sorted fields : Fields} {field : String × Json}
    (h : field ∈ insertFields sorted fields) : field ∈ sorted ∨ field ∈ fields := by
  induction fields generalizing sorted with
  | nil => exact .inl h
  | cons first rest ih =>
    rcases ih h with hsorted | hrest
    · rcases mem_insertField hsorted with rfl | hmem
      · exact .inr List.mem_cons_self
      · exact .inl hmem
    · exact .inr (List.mem_cons_of_mem _ hrest)

theorem keysSorted_insertField {fields : Fields} (h : KeysSorted fields) (key : String)
    (value : Json) : KeysSorted (insertField key value fields) := by
  induction fields with
  | nil => exact List.pairwise_singleton ..
  | cons first rest ih =>
    obtain ⟨hfirst, hrest⟩ := List.pairwise_cons.1 h
    simp only [insertField]
    split
    · rename_i hlt
      refine List.pairwise_cons.2 ⟨fun field hfield => ?_, h⟩
      rcases List.mem_cons.1 hfield with rfl | hmem
      · exact hlt
      · exact String.lt_trans hlt (hfirst field hmem)
    · rename_i hge
      split
      · rename_i heq
        exact List.pairwise_cons.2 ⟨fun field hfield => heq ▸ hfirst field hfield, hrest⟩
      · rename_i hne
        have hgt : first.1 < key := Std.lt_of_le_of_ne (String.not_lt.1 hge) (Ne.symm hne)
        refine List.pairwise_cons.2 ⟨fun field hfield => ?_, ih hrest⟩
        rcases mem_insertField hfield with rfl | hmem
        · exact hgt
        · exact hfirst field hmem

theorem keysSorted_insertFields {sorted : Fields} (h : KeysSorted sorted) (fields : Fields) :
    KeysSorted (insertFields sorted fields) := by
  induction fields generalizing sorted with
  | nil => exact h
  | cons field rest ih => exact ih (keysSorted_insertField h field.1 field.2)

theorem perm_insertField {key : String} {fields : Fields} (h : key ∉ keys fields) (value : Json) :
    (insertField key value fields).Perm ((key, value) :: fields) := by
  induction fields with
  | nil => exact .refl _
  | cons first rest ih =>
    have hne : key ≠ first.1 := fun heq => h (heq ▸ List.mem_cons_self)
    simp only [insertField, if_neg hne]
    split
    · exact .refl _
    · exact ((ih fun hmem => h (List.mem_cons_of_mem _ hmem)).cons first).trans (.swap ..)

theorem perm_insertFields {sorted fields : Fields} (h : (keys (sorted ++ fields)).Nodup) :
    (insertFields sorted fields).Perm (sorted ++ fields) := by
  induction fields generalizing sorted with
  | nil => rw [List.append_nil]; exact .refl _
  | cons field rest ih =>
    have hnew : field.1 ∉ keys sorted := by
      intro hmem
      rw [keys, List.map_append, List.nodup_append] at h
      exact h.2.2 _ hmem _ List.mem_cons_self rfl
    have hmove : (insertField field.1 field.2 sorted ++ rest).Perm (sorted ++ field :: rest) :=
      ((perm_insertField hnew field.2).append_right rest).trans List.perm_middle.symm
    have hkeys : (keys (insertField field.1 field.2 sorted ++ rest)).Nodup :=
      (hmove.map Prod.fst).nodup_iff.2 h
    exact (ih hkeys).trans hmove

theorem insertField_of_forall_lt {key : String} {fields : Fields}
    (h : ∀ field ∈ fields, field.1 < key) (value : Json) :
    insertField key value fields = fields ++ [(key, value)] := by
  induction fields with
  | nil => rfl
  | cons first rest ih =>
    have hlt : first.1 < key := h first List.mem_cons_self
    have hne : key ≠ first.1 := by
      intro heq
      rw [heq] at hlt
      exact String.lt_irrefl _ hlt
    rw [insertField, if_neg fun hgt => String.lt_irrefl _ (String.lt_trans hlt hgt), if_neg hne,
      ih fun field hfield => h field (List.mem_cons_of_mem _ hfield), List.cons_append]

theorem insertFields_of_keysSorted {sorted fields : Fields} (h : KeysSorted (sorted ++ fields)) :
    insertFields sorted fields = sorted ++ fields := by
  induction fields generalizing sorted with
  | nil => exact (List.append_nil _).symm
  | cons field rest ih =>
    have hlast := insertField_of_forall_lt (fun first hfirst =>
      (List.pairwise_append.1 h).2.2 first hfirst field List.mem_cons_self) field.2
    have happend : sorted ++ [field] ++ rest = sorted ++ field :: rest := by simp
    show insertFields (insertField field.1 field.2 sorted) rest = _
    rw [hlast]
    exact (ih (happend ▸ h)).trans happend

/-! ## Sorted values -/

mutual

/-- Every object has sorted keys. -/
def Ordered : Json → Prop
  | .arr items => OrderedItems items
  | .obj fields => KeysSorted fields ∧ OrderedFields fields
  | .null | .bool _ | .int _ | .float _ | .str _ => True

def OrderedItems : List Json → Prop
  | [] => True
  | item :: rest => Ordered item ∧ OrderedItems rest

def OrderedFields : Fields → Prop
  | [] => True
  | (_, value) :: rest => Ordered value ∧ OrderedFields rest

end

theorem sortedItems_eq_map (items : List Json) : sortedItems items = items.map sorted := by
  induction items with
  | nil => rfl
  | cons item rest ih => rw [sortedItems, ih, List.map_cons]

theorem sortedFields_eq_map (fields : Fields) :
    sortedFields fields = fields.map fun field => (field.1, field.2.sorted) := by
  induction fields with
  | nil => rfl
  | cons field rest ih => rw [sortedFields, ih, List.map_cons]

theorem keys_sortedFields (fields : Fields) : keys (sortedFields fields) = keys fields := by
  rw [keys, sortedFields_eq_map, List.map_map]
  rfl

theorem perm_sortedFields {fields : Fields} (h : (keys fields).Nodup) :
    (insertFields [] (sortedFields fields)).Perm (sortedFields fields) :=
  perm_insertFields ((keys_sortedFields fields).symm ▸ h)

theorem orderedFields_iff {fields : Fields} :
    OrderedFields fields ↔ ∀ field ∈ fields, field.2.Ordered := by
  induction fields with
  | nil => exact ⟨fun _ _ hmem => absurd hmem List.not_mem_nil, fun _ => trivial⟩
  | cons field rest ih => rw [OrderedFields, ih, List.forall_mem_cons]

theorem ordered_ofFields {fields : Fields} (h : OrderedFields fields) :
    (ofFields fields).Ordered := by
  refine ⟨keysSorted_insertFields List.Pairwise.nil fields, orderedFields_iff.2 ?_⟩
  intro field hfield
  rcases mem_insertFields hfield with hnil | hmem
  · cases hnil
  · exact orderedFields_iff.1 h field hmem

mutual

theorem sorted_eq_self : (value : Json) → value.Ordered → value.sorted = value
  | .arr items, h => by rw [sorted, sortedItems_eq_self items h]
  | .obj fields, h => by
    rw [sorted, sortedFields_eq_self fields h.2, ofFields_eq,
      insertFields_of_keysSorted (show KeysSorted ([] ++ fields) from h.1), List.nil_append]
  | .null, _ | .bool _, _ | .int _, _ | .float _, _ | .str _, _ => rfl

theorem sortedItems_eq_self : (items : List Json) → OrderedItems items → sortedItems items = items
  | [], _ => rfl
  | item :: rest, h => by rw [sortedItems, sorted_eq_self item h.1, sortedItems_eq_self rest h.2]

theorem sortedFields_eq_self :
    (fields : Fields) → OrderedFields fields → sortedFields fields = fields
  | [], _ => rfl
  | (key, value) :: rest, h => by
    rw [sortedFields, sorted_eq_self value h.1, sortedFields_eq_self rest h.2]

end

/-! ## Lookups -/

theorem mem_of_lookup {α : Type} {entries : List (String × α)} {key : String} {value : α}
    (h : entries.lookup key = some value) : (key, value) ∈ entries := by
  obtain ⟨before, after, rfl, -⟩ := List.lookup_eq_some_iff.1 h
  exact List.mem_append_right _ List.mem_cons_self

theorem lookup_eq_of_perm {first second : Fields} (h : first.Perm second)
    (hkeys : (keys first).Nodup) (key : String) : first.lookup key = second.lookup key := by
  induction h with
  | nil => rfl
  | cons entry _ ih => rw [List.lookup_cons, List.lookup_cons, ih (List.nodup_cons.1 hkeys).2]
  | swap a b rest =>
    have hne : b.1 ≠ a.1 := by
      intro heq
      rw [keys, List.map_cons, List.map_cons, heq] at hkeys
      exact (List.nodup_cons.1 hkeys).1 List.mem_cons_self
    rw [List.lookup_cons, List.lookup_cons, List.lookup_cons, List.lookup_cons]
    cases ha : key == a.1
    · rfl
    · rw [eq_of_beq ha, beq_false_of_ne hne.symm]
  | trans hfirst _ ih₁ ih₂ =>
    rw [ih₁ hkeys, ih₂ ((hfirst.map Prod.fst).nodup_iff.1 hkeys)]

theorem lookup_map {α β : Type} (f : α → β) (entries : List (String × α)) (key : String) :
    (entries.map fun entry => (entry.1, f entry.2)).lookup key = (entries.lookup key).map f := by
  induction entries with
  | nil => rfl
  | cons entry rest ih =>
    rw [List.map_cons, List.lookup_cons, List.lookup_cons, ih]
    cases key == entry.1 <;> rfl

/-- Sorting leaves every field under its key. -/
theorem lookup_sortedFields {fields : Fields} (h : (keys fields).Nodup) (key : String) :
    (insertFields [] (sortedFields fields)).lookup key = (fields.lookup key).map sorted := by
  have hkeys : (keys (sortedFields fields)).Nodup := (keys_sortedFields fields).symm ▸ h
  rw [← lookup_eq_of_perm (perm_sortedFields h).symm hkeys, sortedFields_eq_map, lookup_map]

end Json

namespace Doc

theorem ofItems_eq_map (items : List Json) : ofItems items = items.map ofJson := by
  induction items with
  | nil => rfl
  | cons item rest ih => rw [ofItems, ih, List.map_cons]

/-! ## Reading a value -/

mutual

/-- What is read from a value is that value, sorted. -/
theorem json_ofJson : (value : Json) → (ofJson value).json = .ok value.sorted
  | .arr items => by
    rw [ofJson, json, jsonItems_ofItems items]
    rfl
  | .obj fields => by
    rw [ofJson, json, jsonFields_ofFields fields]
    rfl
  | .null | .bool _ | .int _ | .float _ | .str _ => rfl

theorem jsonItems_ofItems :
    (items : List Json) → jsonItems (ofItems items) = .ok (Json.sortedItems items)
  | [] => rfl
  | item :: rest => by
    rw [ofItems, jsonItems, json_ofJson item, jsonItems_ofItems rest]
    rfl

theorem jsonFields_ofFields :
    (fields : Json.Fields) → jsonFields (ofFields fields) = .ok (Json.sortedFields fields)
  | [] => rfl
  | (name, value) :: rest => by
    rw [ofFields, jsonFields, json_ofJson value, jsonFields_ofFields rest]
    rfl

end

mutual

/-- Whatever is read has sorted keys. -/
theorem ordered_of_json : (d : Doc) → {value : Json} → d.json = .ok value → value.Ordered
  | .arr items fault, value, h => by
    rw [json] at h
    obtain ⟨read, hread, h⟩ := exists_of_bind_eq_ok h
    have hordered := orderedItems_of_jsonItems items hread
    cases fault with
    | some fault => cases h
    | none => cases h; exact hordered
  | .obj fields fault, value, h => by
    rw [json] at h
    obtain ⟨read, hread, h⟩ := exists_of_bind_eq_ok h
    have hordered := orderedFields_of_jsonFields fields hread
    cases fault with
    | some fault => cases h
    | none => cases h; exact Json.ordered_ofFields hordered
  | .null, _, h | .bool _, _, h | .int _, _, h | .float _, _, h | .str _, _, h => by
    cases h
    trivial
  | .refused .., _, h | .deep _, _, h | .missing, _, h | .broken .., _, h => by cases h

theorem orderedItems_of_jsonItems :
    (items : List Doc) → {read : List Json} → jsonItems items = .ok read → Json.OrderedItems read
  | [], _, h => by
    cases h
    trivial
  | item :: rest, _, h => by
    rw [jsonItems] at h
    obtain ⟨value, hvalue, h⟩ := exists_of_bind_eq_ok h
    obtain ⟨values, hvalues, h⟩ := exists_of_bind_eq_ok h
    cases h
    exact ⟨ordered_of_json item hvalue, orderedItems_of_jsonItems rest hvalues⟩

theorem orderedFields_of_jsonFields :
    (fields : List (Doc × Doc)) → {read : Json.Fields} → jsonFields fields = .ok read →
      Json.OrderedFields read
  | [], _, h => by
    cases h
    trivial
  | (key, value) :: rest, _, h => by
    rw [jsonFields] at h
    obtain ⟨name, -, h⟩ := exists_of_bind_eq_ok h
    obtain ⟨content, hcontent, h⟩ := exists_of_bind_eq_ok h
    obtain ⟨others, hothers, h⟩ := exists_of_bind_eq_ok h
    cases h
    exact ⟨ordered_of_json value hcontent, orderedFields_of_jsonFields rest hothers⟩

end

mutual

theorem skip_ofJson : (value : Json) → (ofJson value).skip = .ok ()
  | .arr items => by
    rw [ofJson, skip, skipItems_ofItems items]
    rfl
  | .obj fields => by
    rw [ofJson, skip, skipFields_ofFields fields]
    rfl
  | .null | .bool _ | .int _ | .float _ | .str _ => rfl

theorem skipItems_ofItems : (items : List Json) → skipItems (ofItems items) = .ok ()
  | [] => rfl
  | item :: rest => by
    rw [ofItems, skipItems, skip_ofJson item]
    exact skipItems_ofItems rest

theorem skipFields_ofFields : (fields : Json.Fields) → skipFields (ofFields fields) = .ok ()
  | [] => rfl
  | (name, value) :: rest => by
    rw [ofFields, skipFields, skip_ofJson value]
    exact skipFields_ofFields rest

end

end Doc

end ProbeAgent
