import ModelCompiler.Conformance
import ModelCompiler.Proofs.Resolution

/-!
# Values without failures

What it takes for an object to have no failures, in a scope of any kind: the object type accepts it, and of the union of
every field an alternative accepts the field's value (`failures_object_eq_nil_iff`). An object with the same values in
the declared fields has no failures either, whatever else it holds (`failures_object_congr`).

Where the built-in types test values as the standard ones do and the object type accepts exactly the plain objects
(`Universe.StandardTests`), a value without failures is a plain object and the value of a field is no record
(`member_ne_record`).
-/

namespace ModelCompiler

namespace Scope

variable {s : Scope}

/-! ## Unions and fields -/

theorem exists_of_anyAlternative {accepts : String → Except Fault Bool} : ∀ {types : List String},
    anyAlternative accepts types = .ok true → ∃ type ∈ types, accepts type = .ok true
  | type :: types, h => by
    rw [anyAlternative, Results.bind_eq_ok_iff] at h
    obtain ⟨ok, hok, h⟩ := h
    cases ok with
    | true => exact ⟨type, List.mem_cons_self, hok⟩
    | false =>
      obtain ⟨t, ht, h⟩ := exists_of_anyAlternative h
      exact ⟨t, List.mem_cons_of_mem _ ht, h⟩

theorem failing_eq_nil_iff {accepts : Field → Except Fault Bool} {fields : List Field} :
    failing accepts fields = .ok [] ↔ ∀ f ∈ fields, accepts f = .ok true := by
  induction fields with
  | nil => simp [failing]
  | cons f fields ih =>
    rw [failing, Results.bind_eq_ok_iff, List.forall_mem_cons, ← ih]
    constructor
    · rintro ⟨ok, hok, h⟩
      obtain ⟨rest, hrest, h⟩ := Results.bind_eq_ok_iff.mp h
      cases ok with
      | true =>
        obtain rfl : rest = [] := Except.ok.inj h
        exact ⟨hok, hrest⟩
      | false => cases h
    · rintro ⟨hok, hrest⟩
      exact ⟨true, hok, Results.bind_eq_ok_iff.mpr ⟨[], hrest, rfl⟩⟩

/-! ## Values -/

theorem guarded_eq_nil_iff {value : Value} {failures : Except Fault (List String)} :
    s.guarded value failures = .ok [] ↔
      ∃ b, s.builtIns.genericObject? = some b ∧ b.accepts value = true ∧ failures = .ok [] := by
  unfold guarded
  cases s.builtIns.genericObject? with
  | none => simp
  | some b => cases haccepts : b.accepts value <;> simp [haccepts]

/-- The object type accepts a value without failures. -/
theorem accepted_of_failures {m : Model} {value : Value} (h : s.failures m value = .ok []) :
    ∃ b, s.builtIns.genericObject? = some b ∧ b.accepts value = true := by
  have hguarded : ∃ failures, s.failures m value = s.guarded value failures := by
    cases value <;> exact ⟨_, rfl⟩
  obtain ⟨failures, hfailures⟩ := hguarded
  rw [hfailures, guarded_eq_nil_iff] at h
  obtain ⟨b, hb, haccepts, -⟩ := h
  exact ⟨b, hb, haccepts⟩

/-- An object has no failures when the object type accepts it and some alternative of each field does. -/
theorem failures_object_eq_nil_iff {m : Model} {members : List (String × Value)} :
    s.failures m (.object members) = .ok [] ↔
      (∃ b, s.builtIns.genericObject? = some b ∧ b.accepts (.object members) = true) ∧
        ∀ f ∈ m.fields.items, anyAlternative
          (fun type => s.accepts m f.name type ((Value.object members).member f.name)) f.types = .ok true := by
  rw [failures_object, guarded_eq_nil_iff, failing_eq_nil_iff]
  constructor
  · rintro ⟨b, hb, haccepts, h⟩
    exact ⟨⟨b, hb, haccepts⟩, h⟩
  · rintro ⟨⟨b, hb, haccepts⟩, h⟩
    exact ⟨b, hb, haccepts, h⟩

/-- Whether an object has failures depends on the object type and on the values of the declared fields alone. -/
theorem failures_object_congr {m : Model} {members members' : List (String × Value)}
    (h : s.failures m (.object members) = .ok [])
    (haccepts : ∃ b, s.builtIns.genericObject? = some b ∧ b.accepts (.object members') = true)
    (hfields : ∀ f ∈ m.fields.items,
      (Value.object members').member f.name = (Value.object members).member f.name) :
    s.failures m (.object members') = .ok [] := by
  refine failures_object_eq_nil_iff.mpr ⟨haccepts, fun f hf => ?_⟩
  rw [hfields f hf]
  exact (failures_object_eq_nil_iff.mp h).2 f hf

end Scope

/-! ## Standard tests -/

/-- The built-in types test values as standard types do, and the object type accepts exactly the plain objects. -/
structure Universe.StandardTests (u : Universe) : Prop where
  standard : ∀ b ∈ u.scalars.items ++ u.objects.items, ∃ b' ∈ BuiltIn.scalars ++ BuiltIn.objects, b.accepts = b'.accepts
  object : ∀ b, u.genericObject? = some b → ∀ value, b.accepts value = true ↔ ∃ members, value = .object members

theorem BuiltIn.rejects_record (m : Model) (fields : List (String × Value)) :
    ∀ b ∈ BuiltIn.scalars ++ BuiltIn.objects, b.accepts (.record m fields) = false := by
  simp [scalars, objects, unmatched, acceptsString, acceptsNumber, acceptsBoolean, acceptsNull, acceptsUndefined,
    acceptsDate, acceptsSet, acceptsArray, acceptsObject]

theorem Universe.standardTests_standard : Universe.standard.StandardTests where
  standard b hb := ⟨b, hb, rfl⟩
  object b hb value := by
    obtain rfl := Option.some.inj hb
    cases value <;> simp [BuiltIn.acceptsObject]

namespace Universe.StandardTests

variable {s : Scope} (hu : s.builtIns.StandardTests)

include hu

theorem rejects_record {type : String} {b : BuiltIn} (hb : s.builtIns.get? type = some b) (m : Model)
    (fields : List (String × Value)) : b.accepts (.record m fields) = false := by
  obtain ⟨b', hb', heq⟩ := hu.standard b (Universe.mem_of_get? hb).1
  rw [heq, BuiltIn.rejects_record m fields b' hb']

/-- A value without failures is a plain object. -/
theorem exists_object {m : Model} {value : Value} (h : s.failures m value = .ok []) :
    ∃ members, value = .object members := by
  obtain ⟨b, hb, haccepts⟩ := Scope.accepted_of_failures h
  exact (hu.object b hb value).mp haccepts

/-- No alternative of a union accepts a record. -/
theorem not_accepts_record {owner : Model} {field type : String} {m : Model} {fields : List (String × Value)} :
    s.accepts owner field type (.record m fields) ≠ .ok true := by
  intro h
  cases hm : s.model? type with
  | some m' =>
    rw [Scope.accepts_model hm, Scope.conforms] at h
    cases hfailures : s.failures m' (.record m fields) with
    | error e =>
      rw [hfailures] at h
      cases h
    | ok names =>
      obtain rfl : names = [] := by simpa [hfailures, Except.map] using h
      obtain ⟨members, hobject⟩ := hu.exists_object hfailures
      cases hobject
  | none =>
    cases hb : s.builtIns.get? type with
    | none => simp [Scope.accepts, Scope.alternative, hm, hb] at h
    | some b => simp [Scope.accepts, Scope.alternative, hm, hb, hu.rejects_record hb] at h

/-- A declared field of a value without failures holds no record. -/
theorem member_ne_record {m : Model} {value : Value} (h : s.failures m value = .ok []) {f : Field}
    (hf : f ∈ m.fields.items) (m' : Model) (fields : List (String × Value)) :
    value.member f.name ≠ .record m' fields := by
  obtain ⟨members, rfl⟩ := hu.exists_object h
  intro hrecord
  obtain ⟨type, -, haccepts⟩ := Scope.exists_of_anyAlternative ((Scope.failures_object_eq_nil_iff.mp h).2 f hf)
  rw [hrecord] at haccepts
  exact hu.not_accepts_record haccepts

end Universe.StandardTests

end ModelCompiler
