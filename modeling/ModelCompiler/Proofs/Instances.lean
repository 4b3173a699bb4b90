import Mathlib.Data.Set.Lattice
import ModelCompiler.Proofs.Classified
import ModelCompiler.Proofs.Conformity
import ModelCompiler.Proofs.ReferenceGraph
import ModelCompiler.Proofs.Serialisation

/-!
# Models that can have instances

A model is constructible when each of its fields offers a built-in type that some value has, or a constructible model;
the constructible models are the least set of names with this closure (`isLeast_constructible`). The models of a
classified set that some value conforms to are exactly the constructible ones (`exists_conforming_iff`).

* A value that conforms to a model is an object whose members conform to alternatives of the fields, so the name of its
  model is in every closed set: induction on the value (`mem_constructible`).
* The names of the models that some value conforms to are a closed set: an object is put together from one value for
  each field (`exists_distinct_of_fields`).

Models that offer only each other are not constructible (`not_mem_constructible_of_trapped`).
-/

namespace ModelCompiler

/-! ## Values with distinct names -/

namespace Value

mutual

/-- Every object and every record in a value has its members under distinct names. -/
def Distinct : Value → Prop
  | .list items => AllDistinct items
  | .tuple items => AllDistinct items
  | .set _ elements => AllDistinct elements
  | .object members => (members.map Prod.fst).Nodup ∧ MembersDistinct members
  | .record _ fields => (fields.map Prod.fst).Nodup ∧ MembersDistinct fields
  | _ => True

def AllDistinct : List Value → Prop
  | [] => True
  | v :: vs => Distinct v ∧ AllDistinct vs

def MembersDistinct : List (String × Value) → Prop
  | [] => True
  | (_, v) :: members => Distinct v ∧ MembersDistinct members

end

theorem membersDistinct_iff {members : List (String × Value)} :
    MembersDistinct members ↔ ∀ e ∈ members, e.2.Distinct := by
  induction members with
  | nil => simp [MembersDistinct]
  | cons e es ih => rw [MembersDistinct, ih, List.forall_mem_cons]

end Value

/-! ## Built-in types with values -/

namespace BuiltIn

/-- The names of the built-in types that no value has. -/
def unmatchedNames : List String := ["String", "Number", "Boolean", "BigInt", "Symbol"]

/-- A value of each built-in type that has one. -/
def sample : String → Value
  | "string" => .text ""
  | "number" => .int 0
  | "boolean" => .bool false
  | "null" => .null
  | "Date" => .date ⟨2020, 1, 1⟩
  | "Set" => .set false []
  | "Array" => .list []
  | "Object" => .object []
  | _ => .missing

theorem distinct_sample (name : String) : (sample name).Distinct := by
  unfold sample
  split <;> simp [Value.Distinct, Value.AllDistinct, Value.MembersDistinct]

theorem accepts_sample : ∀ b ∈ scalars ++ objects, b.name ∉ unmatchedNames → b.accepts (sample b.name) = true := by
  decide

theorem rejects_of_unmatched (value : Value) :
    ∀ b ∈ scalars ++ objects, b.name ∈ unmatchedNames → b.accepts value = false := by
  simp [scalars, objects, unmatched, unmatchedNames, objectName]

end BuiltIn

/-- A name is that of a built-in type that some value has. -/
def HasValues (name : String) : Prop := Universe.standard.isBuiltIn name = true ∧ name ∉ BuiltIn.unmatchedNames

instance (name : String) : Decidable (HasValues name) := inferInstanceAs (Decidable (_ ∧ _))

theorem hasValues_of_accepts {name : String} {b : BuiltIn} (hb : Universe.standard.get? name = some b) {value : Value}
    (h : b.accepts value = true) : HasValues name := by
  obtain ⟨hmem, rfl⟩ := Universe.mem_of_get? hb
  refine ⟨Universe.isBuiltIn_iff.mpr ⟨b, hb⟩, fun hname => ?_⟩
  rw [BuiltIn.rejects_of_unmatched value b hmem hname] at h
  cases h

theorem HasValues.accepts_sample {name : String} (h : HasValues name) :
    ∃ b, Universe.standard.get? name = some b ∧ b.accepts (BuiltIn.sample name) = true := by
  obtain ⟨b, hb⟩ := Universe.isBuiltIn_iff.mp h.1
  obtain ⟨hmem, rfl⟩ := Universe.mem_of_get? hb
  exact ⟨b, hb, BuiltIn.accepts_sample b hmem h.2⟩

/-! ## Constructible models -/

/-- The set has every model each of whose fields lists a built-in type that some value has, or a name of the set. -/
def ClosedUnderFields (models : List Model) (names : Set String) : Prop :=
  ∀ m ∈ models, (∀ f ∈ m.fields.items, ∃ t ∈ f.types, HasValues t ∨ t ∈ names) → m.name ∈ names

/-- The least set with this closure. -/
def constructible (models : List Model) : Set String := ⋂₀ {names | ClosedUnderFields models names}

theorem constructible_subset {models : List Model} {names : Set String} (h : ClosedUnderFields models names) :
    constructible models ⊆ names := Set.sInter_subset_of_mem h

theorem closed_constructible (models : List Model) : ClosedUnderFields models (constructible models) := by
  intro m hm hfields names hnames
  refine hnames m hm fun f hf => ?_
  obtain ⟨t, ht, hvalues | hmodel⟩ := hfields f hf
  · exact ⟨t, ht, .inl hvalues⟩
  · exact ⟨t, ht, .inr (constructible_subset hnames hmodel)⟩

theorem isLeast_constructible (models : List Model) :
    IsLeast {names | ClosedUnderFields models names} (constructible models) :=
  ⟨closed_constructible models, fun _ => constructible_subset⟩

/-- Models that each have a field which offers only each other are not constructible. -/
theorem not_mem_constructible_of_trapped {models : List Model} {names : Set String}
    (h : ∀ m ∈ models, m.name ∈ names → ∃ f ∈ m.fields.items, ∀ t ∈ f.types, t ∈ names ∧ ¬HasValues t) {name : String}
    (hname : name ∈ names) : name ∉ constructible models := by
  have hclosed : ClosedUnderFields models namesᶜ := by
    intro m hm hfields hmem
    obtain ⟨f, hf, htrapped⟩ := h m hm hmem
    obtain ⟨t, ht, hvalues | hfree⟩ := hfields f hf
    · exact (htrapped t ht).2 hvalues
    · exact hfree (htrapped t ht).1
  exact fun hmem => constructible_subset hclosed hmem hname

/-! ## The scope of a set without structural problems -/

namespace ModelSet.Resolved

variable {set : ModelSet} (h : set.Resolved .standard)

/-- The scope that the models of a classified set are judged in. -/
abbrev scope (set : ModelSet) : Scope := ⟨set.partition .standard, .standard⟩

theorem model?_scope_iff {name : String} {m : Model} :
    (scope set).model? name = some m ↔ m ∈ set.items ∧ m.name = name := by
  rw [Scope.model?, Classification.model?_eq_some_iff (disjoint_partition _ _), mem_models_partition]

include h

theorem sound_scope : (scope set).Sound where
  objectsOnly := Universe.objectsOnly_standard
  root _ _ := ⟨_, rfl⟩
  knows _ hm := h.knowsTypesOf (mem_models_partition.mp hm)

theorem settles {m : Model} (hm : m ∈ set.items) : (scope set).Settles m :=
  h.sound_scope.settles (mem_models_partition.mpr hm)

/-- An alternative admits a value when it is a built-in type that accepts it or a model that reports nothing. -/
theorem admits_iff {value : Value} {t : String} : (scope set).admits value t = true ↔
    (∃ b, Universe.standard.get? t = some b ∧ b.accepts value = true) ∨
      ∃ m ∈ set.items, m.name = t ∧ (scope set).report m value = [] := by
  unfold Scope.admits
  cases hm : (scope set).model? t with
  | some m =>
    obtain ⟨hmem, rfl⟩ := model?_scope_iff.mp hm
    rw [List.isEmpty_iff]
    constructor
    · exact fun hreport => .inr ⟨m, hmem, rfl, hreport⟩
    · rintro (⟨b, hb, -⟩ | ⟨m', hm', hname, hreport⟩)
      · have hfree := h.name_free m hmem
        rw [Universe.isBuiltIn_iff.mpr ⟨b, hb⟩] at hfree
        cases hfree
      · rwa [← Keyed.eq_of_key_eq hm' hmem hname]
  | none =>
    have hnone : ∀ m ∈ set.items, m.name ≠ t := by
      intro m hmem hname
      rw [model?_scope_iff.mpr ⟨hmem, hname⟩] at hm
      cases hm
    cases hb : Universe.standard.get? t with
    | none => simpa [hb] using fun m hmem hname => absurd hname (hnone m hmem)
    | some b => simpa [hb] using fun m hmem hname => absurd hname (hnone m hmem)

/-- A value conforms when it is an object and some alternative of each field admits the field's value. -/
theorem report_eq_nil_iff {m : Model} (hm : m ∈ set.items) {value : Value} : (scope set).report m value = [] ↔
    ∃ members, value = .object members ∧ ∀ f ∈ m.fields.items, ∃ t ∈ f.types,
      (scope set).admits ((Value.object members).member f.name) t = true := by
  by_cases hobject : ∃ members, value = .object members
  · obtain ⟨members, rfl⟩ := hobject
    rw [Scope.report_object h.sound_scope.closed (h.settles hm) rfl]
    simp [BuiltIn.acceptsObject]
  · rw [Scope.report_other h.sound_scope.closed (h.settles hm) fun members e => hobject ⟨members, e⟩]
    simp only [List.cons_ne_nil, false_iff]
    rintro ⟨members, e, -⟩
    exact hobject ⟨members, e⟩

/-! ## Conforming values -/

/-- A model that a value conforms to is constructible. -/
theorem mem_constructible (value : Value) :
    ∀ m ∈ set.items, (scope set).report m value = [] → m.name ∈ constructible set.items := by
  induction value using Value.member_induction with
  | other value hv =>
    intro m hm hreport
    obtain ⟨members, e, -⟩ := (h.report_eq_nil_iff hm).mp hreport
    exact absurd e (hv members)
  | object members ih =>
    intro m hm hreport
    obtain ⟨_, ⟨⟩, hfields⟩ := (h.report_eq_nil_iff hm).mp hreport
    refine closed_constructible set.items m hm fun f hf => ?_
    obtain ⟨t, ht, hadmits⟩ := hfields f hf
    rcases h.admits_iff.mp hadmits with ⟨b, hb, haccepts⟩ | ⟨m', hm', rfl, hreport'⟩
    · exact ⟨t, ht, .inl (hasValues_of_accepts hb haccepts)⟩
    · exact ⟨m'.name, ht, .inr (ih f.name m' hm' hreport')⟩

/-- A value for each field makes an object. -/
theorem exists_distinct_of_fields {m : Model} (hm : m ∈ set.items)
    (hfields : ∀ f ∈ m.fields.items, ∃ value : Value, value.Distinct ∧
      ∃ t ∈ f.types, (scope set).admits value t = true) :
    ∃ value : Value, value.Distinct ∧ (scope set).report m value = [] := by
  choose! choice hdistinct hadmits using hfields
  have hnames : ((m.fields.items.map fun f => (f.name, choice f)).map Prod.fst).Nodup := by
    rw [List.map_map]
    exact m.fields.nodup
  refine ⟨.object (m.fields.items.map fun f => (f.name, choice f)), ⟨hnames, ?_⟩, ?_⟩
  · rw [Value.membersDistinct_iff, List.forall_mem_map]
    exact hdistinct
  · refine (h.report_eq_nil_iff hm).mpr ⟨_, rfl, fun f hf => ?_⟩
    rw [Value.member_of_mem hnames (List.mem_map_of_mem hf)]
    exact hadmits f hf

/-- Some value conforms to a constructible model. -/
theorem exists_distinct {name : String} (hname : name ∈ constructible set.items) :
    ∃ m ∈ set.items, m.name = name ∧ ∃ value : Value, value.Distinct ∧ (scope set).report m value = [] := by
  have hclosed : ClosedUnderFields set.items
      {name | ∃ m ∈ set.items, m.name = name ∧ ∃ value : Value, value.Distinct ∧ (scope set).report m value = []} := by
    intro m hm hfields
    refine ⟨m, hm, rfl, h.exists_distinct_of_fields hm fun f hf => ?_⟩
    obtain ⟨t, ht, hvalues | ⟨m', hm', rfl, value, hdistinct, hreport⟩⟩ := hfields f hf
    · obtain ⟨b, hb, haccepts⟩ := hvalues.accepts_sample
      exact ⟨_, BuiltIn.distinct_sample t, t, ht, h.admits_iff.mpr (.inl ⟨b, hb, haccepts⟩)⟩
    · exact ⟨value, hdistinct, m'.name, ht, h.admits_iff.mpr (.inr ⟨m', hm', rfl, hreport⟩)⟩
  exact constructible_subset hclosed hname

end ModelSet.Resolved

/-- **Which models have instances**: of a list of models that is classified over the standard types, whether or not
cycles are allowed, exactly the constructible ones have a value that conforms to them, and then one with distinct names
in all its objects. -/
theorem exists_conforming_iff {models : List Model} {allowCycles : Bool} {set : ModelSet} {c : Classification}
    (hreg : ModelSet.register models = .ok set) (hc : (set.classify .standard allowCycles).result = .ok c) :
    ∀ m ∈ models, ((∃ value, Scope.failures ⟨c, .standard⟩ m value = .ok []) ↔ m.name ∈ constructible models) ∧
      (m.name ∈ constructible models → ∃ value, value.Distinct ∧ Scope.failures ⟨c, .standard⟩ m value = .ok []) := by
  intro m hm
  obtain ⟨hset, rfl⟩ := ModelSet.resolved_of_classify hc
  obtain rfl := ModelSet.items_register hreg
  have hfailures : ∀ value, Scope.failures ⟨set.partition .standard, .standard⟩ m value =
      .ok (Scope.report ⟨set.partition .standard, .standard⟩ m value) := fun value =>
    Scope.failures_eq_report hset.sound_scope value m (ModelSet.mem_models_partition.mpr hm)
  have hbuild : m.name ∈ constructible set.items →
      ∃ value, value.Distinct ∧ Scope.failures ⟨set.partition .standard, .standard⟩ m value = .ok [] := by
    intro hname
    obtain ⟨m', hm', hname', value, hdistinct, hreport⟩ := hset.exists_distinct hname
    obtain rfl := Keyed.eq_of_key_eq hm' hm hname'
    exact ⟨value, hdistinct, (hfailures value).trans (congrArg _ hreport)⟩
  refine ⟨⟨?_, fun hname => ?_⟩, hbuild⟩
  · rintro ⟨value, hvalue⟩
    exact hset.mem_constructible value m hm (Scope.report_eq hvalue)
  · obtain ⟨value, -, hvalue⟩ := hbuild hname
    exact ⟨value, hvalue⟩

namespace Sample

def hen : Model := ⟨"Hen", ⟨[⟨"shell", ["Egg"], none, by decide, by decide⟩], by decide⟩⟩

def egg : Model := ⟨"Egg", ⟨[⟨"layer", ["Hen", "Symbol"], none, by decide, by decide⟩], by decide⟩⟩

/-- Two cycles, of which the one through the chain can end. -/
def farm : List Model := [hen, egg, link, chain]

end Sample

theorem exists_conforming_iff_farm : ∃ set c, ModelSet.register Sample.farm = .ok set ∧
    (set.classify .standard true).result = .ok c ∧ Sample.hen ∈ Sample.farm ∧ Sample.link ∈ Sample.farm ∧
    (¬∃ value, Scope.failures ⟨c, .standard⟩ Sample.hen value = .ok []) ∧
    ∃ value, Scope.failures ⟨c, .standard⟩ Sample.link value = .ok [] := by
  have hreg : ModelSet.register Sample.farm = .ok ⟨Sample.farm, by decide⟩ := rfl
  have hc : (ModelSet.classify .standard true ⟨Sample.farm, by decide⟩).result =
      .ok (ModelSet.partition .standard ⟨Sample.farm, by decide⟩) := by
    rw [ModelSet.classify_result]
    rfl
  have hhen : Sample.hen ∈ Sample.farm := by simp [Sample.farm]
  have hlink : Sample.link ∈ Sample.farm := by simp [Sample.farm]
  have htrapped : ∀ m ∈ Sample.farm, m.name ∈ {name | name ∈ ["Hen", "Egg", "Symbol"]} →
      ∃ f ∈ m.fields.items, ∀ t ∈ f.types, t ∈ {name | name ∈ ["Hen", "Egg", "Symbol"]} ∧ ¬HasValues t := by decide
  have hundefined : HasValues "undefined" := by decide
  have hnumber : HasValues "number" := by decide
  have hchain : "Chain" ∈ constructible Sample.farm :=
    closed_constructible _ Sample.chain (by simp [Sample.farm]) (by simp [Sample.chain, hundefined])
  have hends : "Link" ∈ constructible Sample.farm :=
    closed_constructible _ Sample.link hlink (by simp [Sample.link, hchain, hnumber])
  have h := exists_conforming_iff hreg hc
  exact ⟨_, _, hreg, hc, hhen, hlink, mt (h _ hhen).1.mp (not_mem_constructible_of_trapped htrapped (by decide)),
    (h _ hlink).1.mpr hends⟩

end ModelCompiler
