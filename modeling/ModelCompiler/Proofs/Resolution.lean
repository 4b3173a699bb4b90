import ModelCompiler.Emission.SourceModule
import ModelCompiler.Proofs.Results
import ModelCompiler.Proofs.Tables

/-!
# Resolving names

A name means something in a scope when it is a model of the classification or a built-in type (`Scope.Knows`). The class
of a model has a text exactly when there is an object type for its guard and every name that its fields list means
something (`exists_classText_iff`). The text is that of the validator with one clause for each field and one rejection
for each name (`ofModel_eq_ok_iff`, `ofField_eq_ok_iff`).
-/

namespace ModelCompiler

/-! ## Models of a classification -/

namespace Classification

/-- No name is both simple and complex. -/
def Disjoint (c : Classification) : Prop := ∀ name, ¬(c.simple.contains name = true ∧ c.complex.contains name = true)

variable {c : Classification}

theorem mem_models {m : Model} : m ∈ c.models ↔ m ∈ c.simple.items ∨ m ∈ c.complex.items := List.mem_append

theorem isModel_iff {name : String} : c.isModel name = true ↔ ∃ m ∈ c.models, m.name = name := by
  simp only [isModel, Bool.or_eq_true, Keyed.contains_iff_exists, mem_models, or_and_right, exists_or]

theorem model?_eq (c : Classification) (name : String) :
    c.model? name = (c.complex.get? name).or (c.simple.get? name) := by
  simp [model?]

theorem mem_of_model? {name : String} {m : Model} (h : c.model? name = some m) : m ∈ c.models ∧ m.name = name := by
  rw [model?_eq, Option.or_eq_some_iff, Keyed.get?_eq_some_iff, Keyed.get?_eq_some_iff] at h
  rw [mem_models]
  tauto

/-- In a classification without clashes a model is found by its name. -/
theorem model?_eq_some_iff (hd : c.Disjoint) {name : String} {m : Model} :
    c.model? name = some m ↔ m ∈ c.models ∧ m.name = name := by
  refine ⟨mem_of_model?, ?_⟩
  rintro ⟨hm, rfl⟩
  rw [model?_eq, Option.or_eq_some_iff]
  rcases mem_models.mp hm with hm | hm
  · refine .inr ⟨?_, Keyed.get?_eq_some_iff.mpr ⟨hm, rfl⟩⟩
    rw [Option.eq_none_iff_forall_ne_some]
    intro m' h
    exact hd m.name ⟨Keyed.contains_of_mem hm, Keyed.contains_iff_get?.mpr ⟨m', h⟩⟩
  · exact .inl (Keyed.get?_eq_some_iff.mpr ⟨hm, rfl⟩)

theorem isModel_iff_model? {name : String} : c.isModel name = true ↔ ∃ m, c.model? name = some m := by
  rw [isModel, Bool.or_eq_true, Keyed.contains_iff_get?, Keyed.contains_iff_get?, model?_eq]
  cases c.complex.get? name <;> simp

/-- A name by which no model is found is not that of a model. -/
theorem isModel_eq_false_of_model? {name : String} (h : c.model? name = none) : c.isModel name = false := by
  rw [Bool.eq_false_iff]
  intro hmodel
  obtain ⟨m, hm⟩ := isModel_iff_model?.mp hmodel
  rw [h] at hm
  cases hm

end Classification

/-! ## Types of a universe -/

/-- A type that is found by a name is in one of the catalogs and has that name. -/
theorem Universe.mem_of_get? {u : Universe} {name : String} {b : BuiltIn} (h : u.get? name = some b) :
    b ∈ u.scalars.items ++ u.objects.items ∧ b.name = name := by
  rw [get?, Option.orElse_eq_orElse, Option.orElse_eq_or, Option.or_eq_some_iff, Keyed.get?_eq_some_iff,
    Keyed.get?_eq_some_iff] at h
  rw [List.mem_append]
  rcases h with h | ⟨-, h⟩
  · exact ⟨.inl h.1, h.2⟩
  · exact ⟨.inr h.1, h.2⟩

/-! ## Names that mean something -/

namespace Scope

/-- A name is that of a model or of a built-in type. -/
def Knows (s : Scope) (type : String) : Prop := s.isModel type = true ∨ ∃ b, s.builtIns.get? type = some b

/-- Every name that a field of the model lists means something. -/
def KnowsTypesOf (s : Scope) (m : Model) : Prop := ∀ f ∈ m.fields.items, ∀ type ∈ f.types, s.Knows type

end Scope

variable {s : Scope}

theorem Rejection.exists_resolve_iff {type model field : String} :
    (∃ r, Rejection.resolve s type model field = .ok r) ↔ s.Knows type := by
  unfold Rejection.resolve Scope.Knows
  cases hm : s.isModel type with
  | true => simp
  | false => cases hb : s.builtIns.get? type <;> simp

namespace Clause

theorem ofField_eq_ok_iff {model : String} {f : Field} {c : Clause} : Clause.ofField s model f = .ok c ↔
    c.field = f.name ∧ List.Forall₂ (fun t r => Rejection.resolve s t model f.name = .ok r) f.types c.rejections := by
  rw [ofField, Results.bind_eq_ok_iff]
  constructor
  · rintro ⟨rs, hrs, h⟩
    cases h
    exact ⟨rfl, Results.mapM_eq_ok_iff.mp hrs⟩
  · rintro ⟨hname, hrs⟩
    refine ⟨c.rejections, Results.mapM_eq_ok_iff.mpr hrs, ?_⟩
    rw [← hname]
    rfl

theorem exists_ofField_iff {model : String} {f : Field} :
    (∃ c, Clause.ofField s model f = .ok c) ↔ ∀ type ∈ f.types, s.Knows type := by
  have hknows : ∀ type, s.Knows type ↔ ∃ r, Rejection.resolve s type model f.name = .ok r :=
    fun _ => Rejection.exists_resolve_iff.symm
  simp only [ofField_eq_ok_iff, hknows, ← Results.exists_forall₂_iff]
  constructor
  · rintro ⟨c, -, hrs⟩
    exact ⟨c.rejections, hrs⟩
  · rintro ⟨rs, hrs⟩
    exact ⟨⟨f.name, rs⟩, rfl, hrs⟩

end Clause

namespace Validator

/-- The validator of a model: the guard of the object type and a clause for each field. -/
theorem ofModel_eq_ok_iff {m : Model} {v : Validator} : Validator.ofModel s m = .ok v ↔
    s.builtIns.genericObject? = some v.root ∧
      List.Forall₂ (fun f c => Clause.ofField s m.name f = .ok c) m.fields.items v.clauses := by
  unfold ofModel
  cases hroot : s.builtIns.genericObject? with
  | none => simp
  | some root =>
    simp only [Results.bind_eq_ok_iff, Results.mapError_eq_ok_iff, Results.mapM_eq_ok_iff]
    constructor
    · rintro ⟨cs, hcs, h⟩
      cases h
      exact ⟨rfl, hcs⟩
    · rintro ⟨h, hcs⟩
      cases h
      exact ⟨v.clauses, hcs, rfl⟩

theorem exists_ofModel_iff {m : Model} : (∃ v, Validator.ofModel s m = .ok v) ↔
    (∃ root, s.builtIns.genericObject? = some root) ∧ s.KnowsTypesOf m := by
  have hknows : ∀ f : Field, (∀ type ∈ f.types, s.Knows type) ↔ ∃ c, Clause.ofField s m.name f = .ok c :=
    fun _ => Clause.exists_ofField_iff.symm
  simp only [ofModel_eq_ok_iff, Scope.KnowsTypesOf, hknows, ← Results.exists_forall₂_iff]
  constructor
  · rintro ⟨v, hroot, hcs⟩
    exact ⟨⟨v.root, hroot⟩, v.clauses, hcs⟩
  · rintro ⟨⟨root, hroot⟩, cs, hcs⟩
    exact ⟨⟨root, cs⟩, hroot, hcs⟩

end Validator

namespace Model

theorem classText_eq_ok_iff {m : Model} {text : String} : m.classText s = .ok text ↔
    ∃ v, Validator.ofModel s m = .ok v ∧ Layout.document [m.classLayout v] = text := by
  rw [classText, Results.bind_eq_ok_iff]
  exact exists_congr fun v => and_congr_right fun _ => ⟨Except.ok.inj, congrArg _⟩

/-- A class has a text when its guard has an object type and all its names mean something. -/
theorem exists_classText_iff {m : Model} : (∃ text, m.classText s = .ok text) ↔
    (∃ root, s.builtIns.genericObject? = some root) ∧ s.KnowsTypesOf m := by
  rw [← Validator.exists_ofModel_iff]
  constructor
  · rintro ⟨text, h⟩
    obtain ⟨v, hv, -⟩ := classText_eq_ok_iff.mp h
    exact ⟨v, hv⟩
  · rintro ⟨v, hv⟩
    exact ⟨_, classText_eq_ok_iff.mpr ⟨v, hv, rfl⟩⟩

end Model

end ModelCompiler
