import ModelCompiler.Proofs.Compiled

/-!
# What becomes of the models

No step from the list of models to the files loses, invents or moves a model (`models_accounted_for`).

* **Registration** refuses a list exactly when a name repeats, for the first model whose name came before
  (`register_eq_error_iff`). One step refuses a model whose name the set has (`add_eq_error_iff`); what a whole list
  meets before that is a list without repetition.
* **Classification** splits the models in two and keeps their order in both (`Classification.Splits`); the complex ones
  are those that list another model of the list.
* **Compilation** gives a module and a file for each, those of the simple models first.
-/

namespace ModelCompiler

/-! ## Registration -/

/-- The model at a position has the name of an earlier one. -/
def RepeatsAt (models : List Model) (i : Nat) : Prop :=
  ∃ m, models[i]? = some m ∧ m.name ∈ (models.take i).map Model.name

theorem repeatsAt_iff {models : List Model} {i : Nat} {m : Model} (hm : models[i]? = some m) :
    RepeatsAt models i ↔ m.name ∈ (models.take i).map Model.name := by
  simp [RepeatsAt, hm]

/-- The names up to a position are distinct when none of them repeats. -/
theorem nodup_names_take_iff {models : List Model} {n : Nat} :
    ((models.take n).map Model.name).Nodup ↔ ∀ i < n, ¬RepeatsAt models i := by
  induction n with
  | zero => simp
  | succ n ih =>
    rw [Nat.forall_lt_succ_right, ← ih, List.take_add_one]
    cases hm : models[n]? with
    | none => simp [RepeatsAt, hm]
    | some m =>
      rw [repeatsAt_iff hm, Option.toList_some, List.map_append, List.map_singleton, ← List.concat_eq_append,
        List.nodup_concat, and_comm]

namespace ModelSet

variable {set : ModelSet} {models : List Model}

theorem add_eq_error_iff {m : Model} {p : Problem} :
    set.add m = .error p ↔ m.name ∈ set.keys ∧ p = .duplicateModel m.name := by
  rw [← Keyed.contains_iff, ← Keyed.add?_eq_none_iff, add]
  cases set.add? m <;> simp [eq_comm]

theorem keys_of_add {next : ModelSet} {m : Model} (h : set.add m = .ok next) :
    next.keys = set.keys ++ [m.name] := by
  rw [Keyed.keys, Keyed.items_add? (add_eq_ok_iff.mp h), List.map_append]
  rfl

/-- Adding models in order stops at the first whose name the set has or an earlier one brought. -/
theorem foldlM_add_eq_error_iff {p : Problem} : ∀ {models : List Model} {set : ModelSet},
    models.foldlM add set = .error p ↔ ∃ i m, models[i]? = some m ∧
      (set.keys ++ (models.take i).map Model.name).Nodup ∧ m.name ∈ set.keys ++ (models.take i).map Model.name ∧
      p = .duplicateModel m.name
  | [], set => by simp [pure, Except.pure]
  | a :: models, set => by
    rw [List.foldlM_cons, Results.bind_eq_error_iff, add_eq_error_iff]
    constructor
    · rintro (⟨ha, rfl⟩ | ⟨next, hnext, h⟩)
      · exact ⟨0, a, rfl, by simpa [Keyed.keys] using set.nodup, by simpa using ha, rfl⟩
      · obtain ⟨i, m, hm, hnodup, hmem, rfl⟩ := foldlM_add_eq_error_iff.mp h
        rw [keys_of_add hnext, List.append_assoc] at hnodup hmem
        exact ⟨i + 1, m, hm, hnodup, hmem, rfl⟩
    · rintro ⟨i, m, hm, hnodup, hmem, rfl⟩
      cases i with
      | zero =>
        obtain rfl : a = m := by simpa using hm
        exact .inl ⟨by simpa using hmem, rfl⟩
      | succ i =>
        rw [List.take_succ_cons, List.map_cons, List.append_cons] at hnodup hmem
        cases hadd : set.add a with
        | error q =>
          -- the name of `a` stands before the position, so it is not refused
          have ha := (add_eq_error_iff.mp hadd).1
          have hdisjoint := List.disjoint_of_nodup_append (List.Nodup.of_append_left hnodup)
          exact absurd (List.mem_singleton_self a.name) (hdisjoint ha)
        | ok next =>
          rw [← keys_of_add hadd] at hnodup hmem
          exact .inr ⟨next, rfl, foldlM_add_eq_error_iff.mpr ⟨i, m, hm, hnodup, hmem, rfl⟩⟩

/-- A list is refused for the first model whose name came before. -/
theorem register_eq_error_iff {p : Problem} : register models = .error p ↔ ∃ i m, models[i]? = some m ∧
    RepeatsAt models i ∧ (∀ j < i, ¬RepeatsAt models j) ∧ p = .duplicateModel m.name := by
  rw [register, foldlM_add_eq_error_iff]
  refine exists_congr fun i => exists_congr fun m => and_congr_right fun hm => ?_
  rw [repeatsAt_iff hm, ← nodup_names_take_iff, Keyed.keys, Keyed.empty]
  exact and_left_comm

/-- A list is refused exactly when a name repeats. -/
theorem exists_register_error_iff : (∃ p, register models = .error p) ↔ ¬(models.map Model.name).Nodup := by
  constructor
  · rintro ⟨p, hp⟩ hnodup
    obtain ⟨i, m, -, hrepeats, -⟩ := register_eq_error_iff.mp hp
    have htake : ((models.take (i + 1)).map Model.name).Nodup :=
      ((List.take_sublist _ _).map _).nodup hnodup
    exact nodup_names_take_iff.mp htake i (Nat.lt_succ_self i) hrepeats
  · intro hrepeats
    cases hreg : register models with
    | error p => exact ⟨p, rfl⟩
    | ok set => exact absurd (items_register hreg ▸ set.nodup) hrepeats

end ModelSet

/-! ## Classification -/

/-- The models are split into simple and complex ones, those that list another model; both keep the order. -/
structure Classification.Splits (c : Classification) (models : List Model) : Prop where
  disjoint : c.simple.keys.Disjoint c.complex.keys
  all : (c.simple.items ++ c.complex.items).Perm models
  simple_in_order : c.simple.items.Sublist models
  complex_in_order : c.complex.items.Sublist models
  mem_complex_iff : ∀ m ∈ models, m ∈ c.complex.items ↔
    ∃ f ∈ m.fields.items, ∃ other ∈ models, other ≠ m ∧ other.name ∈ f.types

namespace ModelSet

variable {u : Universe} {set : ModelSet}

/-- In a set without structural problems a model refers to another one when a field of it lists its name. -/
theorem Resolved.refersToModel_iff (h : set.Resolved u) {m : Model} (hm : m ∈ set.items) :
    refersToModel u set m = true ↔ ∃ f ∈ m.fields.items, ∃ other ∈ set.items, other ≠ m ∧ other.name ∈ f.types := by
  simp only [refersToModel, List.any_eq_true, Prod.exists, Model.mem_references, Bool.and_eq_true,
    Bool.not_eq_true', decide_eq_true_eq, Keyed.contains_iff_exists]
  constructor
  · rintro ⟨_, t, ⟨f, hf, -, ht⟩, ⟨-, other, hother, rfl⟩, hne⟩
    exact ⟨f, hf, other, hother, fun heq => hne (heq ▸ rfl), ht⟩
  · rintro ⟨f, hf, other, hother, hne, ht⟩
    exact ⟨f.name, other.name, ⟨f, hf, rfl, ht⟩, ⟨h.name_free other hother, other, hother, rfl⟩,
      fun heq => hne (Keyed.eq_of_key_eq hother hm heq)⟩

/-- The partition of a set without structural problems splits its models. -/
theorem Resolved.splits (h : set.Resolved u) : (set.partition u).Splits set.items where
  disjoint name hsimple hcomplex :=
    disjoint_partition u set name ⟨Keyed.contains_iff.mpr hsimple, Keyed.contains_iff.mpr hcomplex⟩
  all := perm_models_partition u set
  simple_in_order := List.filter_sublist
  complex_in_order := List.filter_sublist
  mem_complex_iff m hm := by
    rw [← h.refersToModel_iff hm]
    exact List.mem_filter.trans (and_iff_right hm)

end ModelSet

/-! ## Compilation -/

/-- **Models are accounted for**: registration fails exactly when a name repeats, and then names the first model whose
name came before. A classification splits the registered models, in order, into those that list another model and those
that do not. A compilation gives modules, and files, for the simple models and then for the complex ones, no name and no
path twice. -/
theorem models_accounted_for (u : Universe) (allowCycles : Bool) (models : List Model) :
    ((∃ p, ModelSet.register models = .error p) ↔ ¬(models.map Model.name).Nodup) ∧
    (∀ p, ModelSet.register models = .error p ↔ ∃ i m, models[i]? = some m ∧ RepeatsAt models i ∧
      (∀ j < i, ¬RepeatsAt models j) ∧ p = .duplicateModel m.name) ∧
    (∀ set c, ModelSet.register models = .ok set → (set.classify u allowCycles).result = .ok c → c.Splits models) ∧
    ∀ out, (compile u allowCycles models).result = .ok out → ∃ set c, ModelSet.register models = .ok set ∧
      (set.classify u allowCycles).result = .ok c ∧
      out.map SourceModule.name = c.simple.keys ++ c.complex.keys ∧ (out.map SourceModule.name).Nodup ∧
      (out.map fun x => x.file.path) = (c.simple.keys ++ c.complex.keys).map fileName ∧
      (out.map fun x => x.file.path).Nodup := by
  refine ⟨ModelSet.exists_register_error_iff, fun p => ModelSet.register_eq_error_iff, ?_, ?_⟩
  · intro set c hreg hc
    obtain ⟨hresolved, rfl⟩ := ModelSet.resolved_of_classify hc
    exact ModelSet.items_register hreg ▸ hresolved.splits
  · intro out hout
    obtain ⟨set, hreg, hproblems, -⟩ := compile_eq_ok_iff.mp hout
    have hc : (set.classify u allowCycles).result = .ok (set.partition u) := by
      rw [ModelSet.classify_result, hproblems]
    have hnames : out.map SourceModule.name = (set.partition u).simple.keys ++ (set.partition u).complex.keys :=
      (map_name_of_compile hreg hout).trans List.map_append
    have hpaths : (out.map fun x => x.file.path) = (out.map SourceModule.name).map fileName := by
      rw [List.map_map]
      rfl
    have hnodup : (out.map SourceModule.name).Nodup := by
      rw [map_name_of_compile hreg hout]
      exact ((ModelSet.perm_models_partition u set).map _).nodup_iff.mpr set.nodup
    refine ⟨set, set.partition u, hreg, hc, hnames, hnodup, hnames ▸ hpaths, ?_⟩
    rw [hpaths]
    exact hnodup.map fun _ _ => fileName_injective

theorem models_accounted_for_wrapper : ∃ set c out, ModelSet.register [Sample.wrapper, Sample.point] = .ok set ∧
    (set.classify .standard false).result = .ok c ∧ c.Splits [Sample.wrapper, Sample.point] ∧
    (compile .standard false [Sample.wrapper, Sample.point]).result = .ok out ∧
    out.map SourceModule.name = ["Point", "Wrapper"] := by
  have hobject : ∃ b, Universe.standard.genericObject? = some b := ⟨_, rfl⟩
  have hcycles : Sample.wrappers.cycles = [] :=
    ModelSet.cycles_eq_nil_of_rank (fun name => if name = "Wrapper" then 1 else 0) (by decide)
  have hcheck : check .standard false [Sample.wrapper, Sample.point] = [] := by
    show ModelSet.problems .standard false Sample.wrappers = []
    rw [ModelSet.problems, hcycles]
    rfl
  obtain ⟨out, hout⟩ := exists_modules hobject hcheck
  obtain ⟨-, -, hsplits, hmodules⟩ := models_accounted_for .standard false [Sample.wrapper, Sample.point]
  obtain ⟨set, c, hreg, hc, hnames, -⟩ := hmodules out hout
  have hsplit := hsplits set c hreg hc
  obtain rfl : Sample.wrappers = set := Except.ok.inj hreg
  obtain ⟨-, rfl⟩ := ModelSet.resolved_of_classify hc
  exact ⟨Sample.wrappers, _, out, hreg, hc, hsplit, hout, hnames⟩

end ModelCompiler
