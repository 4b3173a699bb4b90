import ModelCompiler.Conformance
import ModelCompiler.Proofs.Resolution

/-!
# Judging without faults

A model is settled when there is an object type and every name that it lists means something (`Scope.Settles`). In a
scope where the object type accepts plain objects only and the models found by name are settled (`Scope.Closed`), no
judgement of a value by a settled model ends in a fault: `failures` is the total `report`
(`failures_eq_report_of_settles`). A value that is no object reports the root; an object reports the fields of which no
alternative admits the value (`report_object`). A scope is closed when all its models are settled (`Scope.Sound`).

The induction is on the value, through its members (`Value.member_induction`): a model may refer to itself through
others, but its field's value is smaller.
-/

namespace ModelCompiler

/-! ## Members of values -/

namespace Value

theorem sizeOf_lookup_lt (name : String) : ∀ members : List (String × Value),
    sizeOf ((members.lookup name).getD .missing) < 1 + sizeOf members
  | [] => by simp
  | (k, v) :: members => by
    rw [List.lookup_cons]
    cases name == k with
    | true => simp; omega
    | false =>
      have := sizeOf_lookup_lt name members
      simp only [List.cons.sizeOf_spec, Prod.mk.sizeOf_spec]
      omega

theorem sizeOf_member_lt (members : List (String × Value)) (name : String) :
    sizeOf ((Value.object members).member name) < sizeOf (Value.object members) := by
  have := sizeOf_lookup_lt name members
  simpa [member] using this

/-- What holds of an object when it holds of its members, absent ones included, holds of every value. -/
theorem member_induction {P : Value → Prop} (other : ∀ v, (∀ members, v ≠ .object members) → P v)
    (object : ∀ members, (∀ name, P ((Value.object members).member name)) → P (.object members)) (v : Value) : P v := by
  induction hn : sizeOf v using Nat.strongRecOn generalizing v with
  | ind n ih =>
    by_cases h : ∃ members, v = .object members
    · obtain ⟨members, rfl⟩ := h
      exact object members fun name => ih _ (hn ▸ sizeOf_member_lt members name) _ rfl
    · exact other v fun members e => h ⟨members, e⟩

end Value

/-- The object type accepts plain objects only. -/
def Universe.ObjectsOnly (u : Universe) : Prop :=
  ∀ b, u.genericObject? = some b → ∀ value, b.accepts value = true → ∃ members, value = .object members

theorem BuiltIn.acceptsObject_iff {value : Value} :
    BuiltIn.acceptsObject value = true ↔ ∃ members, value = .object members := by
  cases value <;> simp [acceptsObject]

theorem Universe.objectsOnly_standard : Universe.standard.ObjectsOnly := by
  intro b hb value h
  obtain rfl := Option.some.inj hb
  exact BuiltIn.acceptsObject_iff.mp h

namespace Scope

/-- There is an object type, and every name that the model lists means something. -/
structure Settles (s : Scope) (m : Model) : Prop where
  root : ∃ b, s.builtIns.genericObject? = some b
  knows : s.KnowsTypesOf m

/-- A model is settled exactly when it has a class. -/
theorem settles_iff_classText {s : Scope} {m : Model} : s.Settles m ↔ ∃ text, m.classText s = .ok text := by
  rw [Model.exists_classText_iff]
  exact ⟨fun h => ⟨h.root, h.knows⟩, fun h => ⟨h.1, h.2⟩⟩

/-- The object type tests for plain objects, and every model that is found by its name is settled. -/
structure Closed (s : Scope) : Prop where
  objectsOnly : s.builtIns.ObjectsOnly
  settles : ∀ name m, s.model? name = some m → s.Settles m

/-- The object type tests for plain objects, and every name that a model lists means something. -/
structure Sound (s : Scope) : Prop where
  objectsOnly : s.builtIns.ObjectsOnly
  root : ∀ m ∈ s.classification.models, ∃ b, s.builtIns.genericObject? = some b
  knows : ∀ m ∈ s.classification.models, s.KnowsTypesOf m

theorem sound_of_classText {s : Scope} (ho : s.builtIns.ObjectsOnly)
    (h : ∀ m ∈ s.classification.models, ∃ text, m.classText s = .ok text) : s.Sound where
  objectsOnly := ho
  root m hm := (Model.exists_classText_iff.mp (h m hm)).1
  knows m hm := (Model.exists_classText_iff.mp (h m hm)).2

theorem Sound.settles {s : Scope} (hs : s.Sound) {m : Model} (hm : m ∈ s.classification.models) : s.Settles m :=
  ⟨hs.root m hm, hs.knows m hm⟩

theorem Sound.closed {s : Scope} (hs : s.Sound) : s.Closed :=
  ⟨hs.objectsOnly, fun _ _ hm => hs.settles (Classification.mem_of_model? hm).1⟩

/-! ## Alternatives and fields without faults -/

theorem anyAlternative_eq_ok {accepts : String → Except Fault Bool} {p : String → Bool} : ∀ {types : List String},
    (∀ type ∈ types, accepts type = .ok (p type)) → anyAlternative accepts types = .ok (types.any p)
  | [], _ => rfl
  | type :: types, h => by
    rw [anyAlternative, h type List.mem_cons_self, List.any_cons]
    cases p type with
    | true => rfl
    | false => exact anyAlternative_eq_ok fun t ht => h t (List.mem_cons_of_mem _ ht)

theorem failing_eq_ok {accepts : Field → Except Fault Bool} {p : Field → Bool} : ∀ {fields : List Field},
    (∀ f ∈ fields, accepts f = .ok (p f)) →
      failing accepts fields = .ok ((fields.filter fun f => !p f).map Field.name)
  | [], _ => rfl
  | f :: fields, h => by
    rw [failing, h f List.mem_cons_self, failing_eq_ok fun g hg => h g (List.mem_cons_of_mem _ hg), List.filter_cons]
    cases p f <;> rfl

/-! ## Reports -/

/-- The fields of a value that fail, where there is no fault. -/
def report (s : Scope) (m : Model) (value : Value) : List String := (s.failures m value).toOption.getD []

/-- Whether an alternative admits a value, where there is no fault. -/
def admits (s : Scope) (value : Value) (type : String) : Bool :=
  match s.model? type with
  | some m => (s.report m value).isEmpty
  | none => ((s.builtIns.get? type).map fun b => b.accepts value).getD false

variable {s : Scope}

theorem report_eq {m : Model} {value : Value} {names : List String} (h : s.failures m value = .ok names) :
    s.report m value = names := by
  simp [report, h, Except.toOption]

/-- A value that is no object fails as a whole. -/
theorem failures_other (hs : s.Closed) {m : Model} (hm : s.Settles m) {value : Value}
    (hv : ∀ members, value ≠ .object members) : s.failures m value = .ok [rootFailure] := by
  obtain ⟨b, hb⟩ := hm.root
  have hrejects : b.accepts value = false := by
    rw [Bool.eq_false_iff]
    intro h
    obtain ⟨members, rfl⟩ := hs.objectsOnly b hb value h
    exact hv members rfl
  have hother : s.judgement value = s.judgeOther value := by
    cases value with
    | object members => exact absurd rfl (hv members)
    | _ => rfl
  simp [failures, hother, judgeOther, guarded, hb, hrejects]

theorem accepts_eq_ok {owner : Model} {field type : String} {value : Value} (ht : s.Knows type)
    (hf : ∀ m, s.model? type = some m → s.failures m value = .ok (s.report m value)) :
    s.accepts owner field type value = .ok (s.admits value type) := by
  cases hm : s.model? type with
  | some m =>
    rw [accepts_model hm, conforms, hf m hm, admits, hm]
    rfl
  | none =>
    have hnot : s.isModel type = false := Classification.isModel_eq_false_of_model? hm
    obtain ⟨b, hb⟩ := ht.resolve_left (Bool.eq_false_iff.mp hnot)
    simp [accepts, alternative, admits, hm, hb]

/-- An object fails in the fields of which no alternative admits the value. -/
theorem failures_object_of_members {m : Model} (hm : s.Settles m) {members : List (String × Value)} {b : BuiltIn}
    (hb : s.builtIns.genericObject? = some b)
    (hf : ∀ name type m', s.model? type = some m' → s.failures m' ((Value.object members).member name) =
      .ok (s.report m' ((Value.object members).member name))) :
    s.failures m (.object members) = .ok (if b.accepts (.object members) then
      (m.fields.items.filter fun f => !f.types.any (s.admits ((Value.object members).member f.name))).map Field.name
      else [rootFailure]) := by
  have hfields : ∀ f ∈ m.fields.items,
      anyAlternative (fun type => s.accepts m f.name type ((Value.object members).member f.name)) f.types =
        .ok (f.types.any (s.admits ((Value.object members).member f.name))) :=
    fun f hfm => anyAlternative_eq_ok fun type ht => accepts_eq_ok (hm.knows f hfm type ht) (hf f.name type)
  rw [failures_object, guarded, hb]
  simp only [failing_eq_ok hfields]
  cases b.accepts (.object members) <;> rfl

/-- **No fault**: in a closed scope a settled model judges every value. -/
theorem failures_eq_report_of_settles (hs : s.Closed) (value : Value) :
    ∀ m, s.Settles m → s.failures m value = .ok (s.report m value) := by
  induction value using Value.member_induction with
  | other value hv =>
    intro m hm
    rw [report_eq (failures_other hs hm hv), failures_other hs hm hv]
  | object members ih =>
    intro m hm
    obtain ⟨b, hb⟩ := hm.root
    have h := failures_object_of_members hm hb fun name type m' hm' => ih name m' (hs.settles type m' hm')
    rw [report_eq h, h]

/-- A model of a sound scope judges every value. -/
theorem failures_eq_report (hs : s.Sound) (value : Value) :
    ∀ m ∈ s.classification.models, s.failures m value = .ok (s.report m value) :=
  fun m hm => failures_eq_report_of_settles hs.closed value m (hs.settles hm)

theorem report_other (hs : s.Closed) {m : Model} (hm : s.Settles m) {value : Value}
    (hv : ∀ members, value ≠ .object members) : s.report m value = [rootFailure] :=
  report_eq (failures_other hs hm hv)

theorem report_object (hs : s.Closed) {m : Model} (hm : s.Settles m) {b : BuiltIn}
    (hb : s.builtIns.genericObject? = some b) (members : List (String × Value)) :
    s.report m (.object members) = if b.accepts (.object members) then
      (m.fields.items.filter fun f => !f.types.any (s.admits ((Value.object members).member f.name))).map Field.name
      else [rootFailure] :=
  report_eq (failures_object_of_members hm hb fun _ type m' hm' =>
    failures_eq_report_of_settles hs _ m' (hs.settles type m' hm'))

end Scope

end ModelCompiler
