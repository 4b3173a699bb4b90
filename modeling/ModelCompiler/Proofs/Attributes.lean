import ModelCompiler.Proofs.Records

/-!
# What the names of a record read

A name of a record stands for the member that every record has under it, or else for the field of that name. A field
reads its value exactly when no common member hides it (`member_eq_value_iff`), and a name reads nothing exactly when it
is neither that of a field nor a common one (`member_eq_error_iff`).

A record that was read from a value therefore gives the members of the value under the names of those fields that are
not hidden (`member_of_fromJson`); the field `model` of a car is hidden by the car's model (`member_model_car`).
-/

namespace ModelCompiler

/-- A car may have the name of its model, and may have a number of wheels. -/
def Sample.car : Model :=
  ⟨"Car", ⟨[⟨"model", ["string", "null"], none, by decide, by decide⟩,
    ⟨"wheels", ["number", "undefined"], none, by decide, by decide⟩], by decide⟩⟩

namespace Record

variable {r : Record} {name : String} {v : Value}

/-! ## Common members -/

theorem nodup_constants : (constants.map Prod.fst).Nodup := by decide

/-- Every record has a member under each of the common names. -/
theorem isSome_common?_iff : (r.common? name).isSome ↔ name ∈ commonNames := by
  simp only [common?, commonNames, List.mem_append, List.mem_cons, List.not_mem_nil, or_false]
  split
  · simp only [Option.isSome_some, true_iff]
    tauto
  split
  · simp [*]
  split
  · simp [*]
  split
  · simp [*]
  · rw [Option.isSome_map, Value.isSome_lookup_iff]
    tauto

theorem common?_eq_none_iff : r.common? name = none ↔ name ∉ commonNames := by
  rw [← isSome_common?_iff, Option.not_isSome_iff_eq_none]

/-- Of the common members only the constants are values. -/
theorem common?_eq_value_iff : r.common? name = some (.value v) ↔ (name, v) ∈ constants := by
  constructor
  · intro h
    unfold common? at h
    split at h
    · cases h
    split at h
    · cases h
    split at h
    · cases h
    split at h
    · cases h
    obtain ⟨w, hw, hv⟩ := Option.map_eq_some_iff.mp h
    obtain rfl := Member.value.inj hv
    exact (Value.lookup_eq_some_iff nodup_constants).mp hw
  · intro h
    simp only [constants, List.mem_cons, Prod.mk.injEq, List.not_mem_nil, or_false] at h
    rcases h with ⟨rfl, rfl⟩ | ⟨rfl, rfl⟩ | ⟨rfl, rfl⟩ | ⟨rfl, rfl⟩ <;> rfl

/-! ## Members -/

theorem member_of_common {x : Member} (h : r.common? name = some x) : r.member name = .ok x := by
  rw [member, h]

theorem exists_member_of_common (h : name ∈ commonNames) : ∃ x, r.common? name = some x ∧ r.member name = .ok x := by
  obtain ⟨x, hx⟩ := Option.isSome_iff_exists.mp (isSome_common?_iff (r := r).mpr h)
  exact ⟨x, hx, member_of_common hx⟩

theorem member_of_field (hcommon : name ∉ commonNames) (h : (name, v) ∈ r.fields) : r.member name = .ok (.value v) := by
  rw [member, common?_eq_none_iff.mpr hcommon, (Value.lookup_eq_some_iff r.nodup_names).mpr h]

/-- A field reads its value exactly when no common member hides it, or when that is a constant of the same value. -/
theorem member_eq_value_iff (h : (name, v) ∈ r.fields) :
    r.member name = .ok (.value v) ↔ name ∉ commonNames ∨ (name, v) ∈ constants := by
  by_cases hcommon : name ∈ commonNames
  · obtain ⟨x, hx, hmember⟩ := exists_member_of_common (r := r) hcommon
    rw [hmember, ← common?_eq_value_iff (r := r), hx]
    simp [hcommon]
  · simp [member_of_field hcommon h, hcommon]

/-- A name reads nothing exactly when it is neither that of a field nor a common one. -/
theorem member_eq_error_iff :
    r.member name = .error (.noMember name) ↔ name ∉ r.model.fields.keys ∧ name ∉ commonNames := by
  by_cases hcommon : name ∈ commonNames
  · obtain ⟨x, -, hmember⟩ := exists_member_of_common (r := r) hcommon
    simp [hmember, hcommon]
  · have hlookup : (r.fields.lookup name).isSome ↔ name ∈ r.model.fields.keys := by
      rw [Value.isSome_lookup_iff, r.map_fst_fields]
    rw [member, common?_eq_none_iff.mpr hcommon]
    cases hv : r.fields.lookup name with
    | some v => simp [← hlookup, hv]
    | none => simp [← hlookup, hv, hcommon]

/-! ## Records that were read -/

theorem mem_fields_ofMembers {m : Model} {value : Value} (h : name ∈ m.fields.keys) :
    (name, value.member name) ∈ (ofMembers m value).fields := by
  rw [fields_ofMembers]
  exact List.mem_map_of_mem h

/-- **What a record that was read gives**: a value without failures is read as a record. Under the name of a field the
record gives the value's member of that name, `missing` where it has none, exactly when no common member hides the
field, or by coincidence, where that is a constant of the same value. A name reads nothing exactly when it is neither
that of a field nor a common one. -/
theorem member_of_fromJson {s : Scope} {m : Model} {value : Value} (h : s.failures m value = .ok []) :
    ∃ r, fromJson s m value = .ok r ∧
      (∀ name ∈ m.fields.keys, r.member name = .ok (.value (value.member name)) ↔
        name ∉ commonNames ∨ (name, value.member name) ∈ constants) ∧
      ∀ name, r.member name = .error (.noMember name) ↔ name ∉ m.fields.keys ∧ name ∉ commonNames :=
  ⟨ofMembers m value, fromJson_of_failures_nil h, fun _ hname => member_eq_value_iff (mem_fields_ofMembers hname),
    fun _ => member_eq_error_iff⟩

theorem member_of_fromJson_car :
    let s : Scope := ⟨⟨⟨[Sample.car], by decide⟩, Keyed.empty⟩, .standard⟩
    let value : Value := .object [("owner", .text "Ada"), ("model", .text "T")]
    s.failures Sample.car value = .ok [] ∧ ∃ r, fromJson s Sample.car value = .ok r ∧
      r.member "wheels" = .ok (.value .missing) ∧ r.member "model" ≠ .ok (.value (.text "T")) ∧
      r.member "owner" = .error (.noMember "owner") := by
  intro s value
  have hfailures : s.failures Sample.car value = .ok [] := rfl
  obtain ⟨r, hr, hfields, hother⟩ := member_of_fromJson hfailures
  refine ⟨hfailures, r, hr, (hfields "wheels" (by decide)).mpr (.inl (by decide)), fun hmodel => ?_,
    (hother "owner").mpr (by decide)⟩
  rcases (hfields "model" (by decide)).mp hmodel with hname | hconstant
  · exact hname (by decide)
  · simp [constants] at hconstant

/-- **A hidden field**: a car conforms and is read, but its field `model` gives the model of cars. -/
theorem member_model_car :
    let s : Scope := ⟨⟨⟨[Sample.car], by decide⟩, Keyed.empty⟩, .standard⟩
    let value : Value := .object [("model", .text "T")]
    s.failures Sample.car value = .ok [] ∧ ∃ r, fromJson s Sample.car value = .ok r ∧
      value.member "model" = .text "T" ∧ r.member "model" = .ok (.model Sample.car) :=
  ⟨rfl, ofMembers _ _, fromJson_of_failures_nil rfl, rfl, rfl⟩

end Record

end ModelCompiler
