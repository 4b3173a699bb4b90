import ModelCompiler.Proofs.ReferenceGraph
import ModelCompiler.Proofs.Resolution

/-!
# What a classification establishes

Registration keeps the models as they are listed (`items_register`). Classification fails with the first problem of the
set and otherwise gives the partition (`classify_result`). A set without structural problems is one where no model has
the name of a built-in type and every name that a model lists is a built-in type or another model, never both
(`structuralProblems_eq_nil_iff`, `Resolved`). What the partition says of a model of such a set and of the names that it
lists is then known from the model and the universe alone (`isModel_partition`, `isComplex_partition`).
-/

namespace ModelCompiler

namespace Universe

variable {u : Universe}

theorem isBuiltIn_iff {name : String} : u.isBuiltIn name = true ↔ ∃ b, u.get? name = some b := by
  have hcontains : u.isBuiltIn name = (u.scalars.contains name || u.objects.contains name) := by
    unfold isBuiltIn resolve
    cases u.scalars.contains name <;> cases u.objects.contains name <;> decide
  rw [hcontains, Bool.or_eq_true, Keyed.contains_iff_get?, Keyed.contains_iff_get?, get?]
  cases u.scalars.get? name <;> simp

end Universe

namespace ModelSet

variable {u : Universe} {set : ModelSet}

/-! ## Registration -/

theorem add_eq_ok_iff {set' : ModelSet} {m : Model} : set.add m = .ok set' ↔ set.add? m = some set' := by
  unfold add
  cases set.add? m <;> simp

theorem items_foldlM_add : ∀ {models : List Model} {set set' : ModelSet}, models.foldlM add set = .ok set' →
    set'.items = set.items ++ models
  | [], set, set', h => by
    cases h
    simp
  | m :: models, set, set', h => by
    rw [List.foldlM_cons, Results.bind_eq_ok_iff] at h
    obtain ⟨next, hadd, h⟩ := h
    rw [items_foldlM_add h, Keyed.items_add? (add_eq_ok_iff.mp hadd), List.append_assoc, List.singleton_append]

/-- A registered set holds the listed models in order. -/
theorem items_register {models : List Model} (h : register models = .ok set) : set.items = models := by
  simpa [Keyed.empty] using items_foldlM_add h

/-! ## Problems -/

/-- What is wrong with a set: the structural problems, and then its cycles where they are not allowed. -/
def problems (u : Universe) (allowCycles : Bool) (set : ModelSet) : List Problem :=
  set.structuralProblems u ++ if allowCycles then [] else set.cycles.map .cyclicReference

/-- No model has the name of a built-in type, and a name that a model lists is a built-in type or another model. -/
structure Resolved (u : Universe) (set : ModelSet) : Prop where
  name_free : ∀ m ∈ set.items, u.isBuiltIn m.name = false
  known : ∀ m ∈ set.items, ∀ f ∈ m.fields.items, ∀ t ∈ f.types,
    u.isBuiltIn t = true ∨ set.contains t = true ∧ t ≠ m.name

theorem referenceProblem?_eq_none_iff {m : Model} {field type : String} :
    referenceProblem? u set m field type = none ↔
      u.isBuiltIn type = true ∨ set.contains type = true ∧ type ≠ m.name := by
  unfold referenceProblem?
  by_cases hn : type = m.name
  · subst hn
    cases u.isBuiltIn m.name <;> cases set.contains m.name <;> simp
  · cases u.isBuiltIn type <;> cases set.contains type <;> simp [hn]

theorem problemsOf_eq_nil_iff {m : Model} : problemsOf u set m = [] ↔ u.isBuiltIn m.name = false ∧
    ∀ f ∈ m.fields.items, ∀ t ∈ f.types, u.isBuiltIn t = true ∨ set.contains t = true ∧ t ≠ m.name := by
  rw [problemsOf, List.append_eq_nil_iff, List.filterMap_eq_nil_iff]
  refine and_congr (by cases u.isBuiltIn m.name <;> simp) ?_
  simp only [referenceProblem?_eq_none_iff, Prod.forall, Model.mem_references]
  constructor
  · intro h f hf t ht
    exact h f.name t ⟨f, hf, rfl, ht⟩
  · rintro h _ t ⟨f, hf, -, ht⟩
    exact h f hf t ht

theorem structuralProblems_eq_nil_iff : set.structuralProblems u = [] ↔ set.Resolved u := by
  simp only [structuralProblems, List.flatMap_eq_nil_iff, problemsOf_eq_nil_iff]
  constructor
  · intro h
    exact ⟨fun m hm => (h m hm).1, fun m hm => (h m hm).2⟩
  · intro h m hm
    exact ⟨h.name_free m hm, h.known m hm⟩

/-! ## Classification -/

/-- Cycles that are allowed do not end a classification. -/
theorem result_admitCycle_true (cycles : List (List String)) : (cycles.forM (admitCycle true)).result = .ok () := by
  rw [List.forM_eq_forM, Logged.result_forM]
  exact Results.forM_eq_ok fun _ _ => rfl

/-- The first cycle that is not allowed ends a classification. -/
theorem result_admitCycle_false : ∀ cycles : List (List String), (cycles.forM (admitCycle false)).result =
    match cycles with
    | [] => .ok ()
    | c :: _ => .error (.cyclicReference c)
  | [] => rfl
  | _ :: _ => rfl

/-- A classification is the partition of a set without problems; otherwise the first problem is the fault. -/
theorem classify_result (u : Universe) (allowCycles : Bool) (set : ModelSet) :
    (set.classify u allowCycles).result = match set.problems u allowCycles with
      | [] => .ok (set.partition u)
      | p :: _ => .error p := by
  unfold classify problems
  cases set.structuralProblems u with
  | cons p ps => rfl
  | nil =>
    rw [Logged.result_bind]
    cases allowCycles with
    | true =>
      rw [result_admitCycle_true]
      rfl
    | false =>
      rw [result_admitCycle_false]
      cases set.cycles <;> rfl

theorem resolved_of_problems {allowCycles : Bool} (h : set.problems u allowCycles = []) : set.Resolved u :=
  structuralProblems_eq_nil_iff.mp (List.append_eq_nil_iff.mp h).1

/-- A set that is classified has no structural problems, and its classification is the partition. -/
theorem resolved_of_classify {allowCycles : Bool} {c : Classification}
    (h : (set.classify u allowCycles).result = .ok c) : set.Resolved u ∧ set.partition u = c := by
  rw [classify_result] at h
  cases hp : set.problems u allowCycles with
  | cons p ps =>
    rw [hp] at h
    cases h
  | nil =>
    rw [hp] at h
    exact ⟨resolved_of_problems hp, Except.ok.inj h⟩

/-! ## The partition -/

variable {m : Model}

theorem mem_models_partition : m ∈ (set.partition u).models ↔ m ∈ set.items := by
  simp only [Classification.mem_models, partition, Keyed.filter, List.mem_filter]
  cases refersToModel u set m <;> simp

theorem perm_models_partition (u : Universe) (set : ModelSet) : (set.partition u).models.Perm set.items :=
  List.perm_append_comm.trans (List.filter_append_perm (refersToModel u set) set.items)

theorem isModel_partition_iff {name : String} : (set.partition u).isModel name = true ↔ set.contains name = true := by
  simp only [Classification.isModel_iff, mem_models_partition, Keyed.contains_iff_exists]

theorem disjoint_partition (u : Universe) (set : ModelSet) : (set.partition u).Disjoint := by
  rintro name ⟨hsimple, hcomplex⟩
  obtain ⟨a, ha, hpa, rfl⟩ := Keyed.contains_filter_iff.mp hsimple
  obtain ⟨b, hb, hpb, hname⟩ := Keyed.contains_filter_iff.mp hcomplex
  rw [Keyed.eq_of_key_eq hb ha hname] at hpb
  simp [hpb] at hpa

/-- A name that a model lists is a model exactly when it is no built-in type. -/
theorem Resolved.isModel_partition (h : set.Resolved u) (hm : m ∈ set.items) {f : Field} (hf : f ∈ m.fields.items)
    {t : String} (ht : t ∈ f.types) : (set.partition u).isModel t = !u.isBuiltIn t := by
  rw [Bool.eq_iff_iff, isModel_partition_iff, Bool.not_eq_true']
  constructor
  · intro hc
    obtain ⟨m', hm', rfl⟩ := Keyed.contains_iff_exists.mp hc
    exact h.name_free m' hm'
  · intro hb
    rcases h.known m hm f hf t ht with hb' | ⟨hc, -⟩
    · rw [hb] at hb'
      cases hb'
    · exact hc

/-- A model is complex exactly when it lists a name that is no built-in type. -/
theorem Resolved.isComplex_partition (h : set.Resolved u) (hm : m ∈ set.items) :
    (set.partition u).isComplex m.name = m.references.any fun (_, t) => !u.isBuiltIn t := by
  rw [Classification.isComplex, partition, Keyed.contains_filter_of_mem hm, refersToModel, Bool.eq_iff_iff,
    List.any_eq_true, List.any_eq_true]
  refine exists_congr fun ⟨field, t⟩ => and_congr_right fun hmem => ?_
  obtain ⟨f, hf, -, ht⟩ := Model.mem_references.mp hmem
  rcases h.known m hm f hf t ht with hb | ⟨hc, hn⟩
  · simp [hb]
  · simp [hc, hn]

/-- Every name that a model lists means something in the scope of the partition. -/
theorem Resolved.knowsTypesOf (h : set.Resolved u) (hm : m ∈ set.items) :
    Scope.KnowsTypesOf ⟨set.partition u, u⟩ m := by
  intro f hf t ht
  cases hb : u.isBuiltIn t with
  | true => exact .inr (Universe.isBuiltIn_iff.mp hb)
  | false => exact .inl (by rw [Scope.isModel, h.isModel_partition hm hf ht, hb]; rfl)

end ModelSet

end ModelCompiler
