import ModelCompiler.Compilation
import ModelCompiler.Proofs.Classified
import ModelCompiler.Proofs.CycleSearch

/-!
# What a compilation gives

A compilation that has no problem to report gives one module for each model (`compile_eq_ok_iff`); otherwise its
fault is the first problem that a check lists (`compile_agrees_with_check`).

* **No fault of its own**: what the classification establishes is what the emission needs, so a classified model always
  has a module (`exists_module`).
* **Frame** (`ofModel_congr`): a module depends on the scope only through the names that its model lists and through
  whether the model is complex. Both are known from the model and the universe, so all compilations that give a module
  for a model give the same one (`module_independent`).
-/

namespace ModelCompiler

open ModelSet (resolved_of_problems)

/-! ## The frame of a module -/

section Frame

variable {s₁ s₂ : Scope}

/-- Two scopes give every name that the model lists the same kind of meaning. -/
def Scope.AgreeOn (s₁ s₂ : Scope) (m : Model) : Prop :=
  s₁.builtIns = s₂.builtIns ∧ ∀ f ∈ m.fields.items, ∀ t ∈ f.types, s₁.isModel t = s₂.isModel t

theorem Clause.ofField_congr {m : Model} {f : Field} (h : s₁.AgreeOn s₂ m) (hf : f ∈ m.fields.items) :
    Clause.ofField s₁ m.name f = Clause.ofField s₂ m.name f := by
  have htypes : f.types.mapM (fun t => Rejection.resolve s₁ t m.name f.name) =
      f.types.mapM fun t => Rejection.resolve s₂ t m.name f.name :=
    Results.mapM_congr fun t ht => by rw [Rejection.resolve, Rejection.resolve, h.2 f hf t ht, h.1]
  rw [ofField, ofField, htypes]

theorem Validator.ofModel_congr {m : Model} (h : s₁.AgreeOn s₂ m) :
    Validator.ofModel s₁ m = Validator.ofModel s₂ m := by
  have hfields : m.fields.items.mapM (Clause.ofField s₁ m.name) = m.fields.items.mapM (Clause.ofField s₂ m.name) :=
    Results.mapM_congr fun f hf => Clause.ofField_congr h hf
  rw [ofModel, ofModel, h.1, hfields]

theorem Model.importLines_congr {m : Model} (h : s₁.AgreeOn s₂ m)
    (hc : s₁.classification.isComplex m.name = s₂.classification.isComplex m.name) :
    m.importLines s₁.classification = m.importLines s₂.classification := by
  have hmodel : ∀ r ∈ m.references, s₁.classification.isModel r.2 = s₂.classification.isModel r.2 := by
    intro r hr
    obtain ⟨f, hf, -, ht⟩ := Model.mem_references.mp hr
    exact h.2 f hf r.2 ht
  rw [importLines, importLines, hc]
  split
  · exact congrArg (List.map _) (List.filter_congr hmodel)
  · rfl

/-- A module depends on what its model's names mean and on whether the model is complex. -/
theorem SourceModule.ofModel_congr {m : Model} (h : s₁.AgreeOn s₂ m)
    (hc : s₁.classification.isComplex m.name = s₂.classification.isComplex m.name) :
    SourceModule.ofModel s₁ m = SourceModule.ofModel s₂ m := by
  rw [SourceModule.ofModel, SourceModule.ofModel, Model.classText, Model.classText, Validator.ofModel_congr h,
    Model.imports, Model.imports, Model.importLines_congr h hc]

end Frame

theorem SourceModule.result_ofModel_eq_ok_iff {s : Scope} {m : Model} {x : SourceModule} :
    (SourceModule.ofModel s m).result = .ok x ↔ ∃ text, m.classText s = .ok text ∧
      ⟨m.name, m.imports s.classification, m.interfaceText, text⟩ = x := by
  rw [SourceModule.ofModel, Logged.result_bind, Logged.result_say]
  show (Logged.ofExcept (m.classText s) >>= _).result = .ok x ↔ _
  rw [Logged.result_bind, Logged.result_ofExcept, Results.bind_eq_ok_iff]
  exact exists_congr fun text => and_congr_right fun _ => ⟨Except.ok.inj, congrArg _⟩

/-! ## The result of a compilation -/

variable {u : Universe} {allowCycles : Bool} {models : List Model}

theorem check_of_register {set : ModelSet} (h : ModelSet.register models = .ok set) :
    check u allowCycles models = set.problems u allowCycles := by
  rw [check, h]
  rfl

theorem compile_of_register_error {p : Problem} (h : ModelSet.register models = .error p) :
    (compile u allowCycles models).result = .error (.problem p) := by
  rw [compile, Logged.result_bind, Logged.result_ofExcept, h]
  rfl

/-- The modules of a registered set without problems, or its first problem. -/
theorem compile_of_register {set : ModelSet} (h : ModelSet.register models = .ok set) :
    (compile u allowCycles models).result = match set.problems u allowCycles with
      | [] => (set.partition u).models.mapM fun m => (SourceModule.ofModel ⟨set.partition u, u⟩ m).result
      | p :: _ => .error (.problem p) := by
  rw [compile, Logged.result_bind, Logged.result_ofExcept, h]
  show ((set.classify u allowCycles).mapError Fault.problem >>= _).result = _
  rw [Logged.result_bind, Logged.result_mapError, ModelSet.classify_result]
  cases set.problems u allowCycles with
  | nil => exact Logged.result_mapM _ _
  | cons p ps => rfl

/-- A compilation gives modules when the models have distinct names and no problems: those of the partition. -/
theorem compile_eq_ok_iff {out : List SourceModule} : (compile u allowCycles models).result = .ok out ↔
    ∃ set, ModelSet.register models = .ok set ∧ set.problems u allowCycles = [] ∧
      List.Forall₂ (fun m x => (SourceModule.ofModel ⟨set.partition u, u⟩ m).result = .ok x)
        (set.partition u).models out := by
  cases hreg : ModelSet.register models with
  | error p => simp [compile_of_register_error hreg]
  | ok set =>
    rw [compile_of_register hreg]
    cases hp : set.problems u allowCycles with
    | cons p ps => simp [hp]
    | nil => simp [hp, Results.mapM_eq_ok_iff]

/-- The modules have the names of the models in the order of the partition. -/
theorem map_name_of_compile {set : ModelSet} {out : List SourceModule} (hreg : ModelSet.register models = .ok set)
    (h : (compile u allowCycles models).result = .ok out) :
    out.map SourceModule.name = (set.partition u).models.map Model.name := by
  obtain ⟨set', hreg', -, hout⟩ := compile_eq_ok_iff.mp h
  obtain rfl : set = set' := Except.ok.inj (hreg.symm.trans hreg')
  have hnames : List.Forall₂ (fun m x => m.name = x.name) (set.partition u).models out := by
    refine hout.imp fun m x hx => ?_
    obtain ⟨text, -, rfl⟩ := SourceModule.result_ofModel_eq_ok_iff.mp hx
    rfl
  symm
  rw [← List.forall₂_eq_eq_eq, List.forall₂_map_left_iff, List.forall₂_map_right_iff]
  exact hnames

/-- Every model of a set without structural problems has a module where there is an object type. -/
theorem exists_module {set : ModelSet} (h : set.Resolved u) (hobject : ∃ b, u.genericObject? = some b) {m : Model}
    (hm : m ∈ (set.partition u).models) : ∃ x, (SourceModule.ofModel ⟨set.partition u, u⟩ m).result = .ok x := by
  have hknows := h.knowsTypesOf (ModelSet.mem_models_partition.mp hm)
  obtain ⟨text, htext⟩ := Model.exists_classText_iff.mpr ⟨hobject, hknows⟩
  exact ⟨_, SourceModule.result_ofModel_eq_ok_iff.mpr ⟨text, htext, rfl⟩⟩

/-- Models without problems compile where there is an object type. -/
theorem exists_modules (hobject : ∃ b, u.genericObject? = some b) (h : check u allowCycles models = []) :
    ∃ out, (compile u allowCycles models).result = .ok out := by
  cases hreg : ModelSet.register models with
  | error p => simp [check, hreg] at h
  | ok set =>
    rw [check_of_register hreg] at h
    rw [compile_of_register hreg, h]
    exact Results.exists_mapM_eq_ok_iff.mpr fun m hm => exists_module (resolved_of_problems h) hobject hm

/-- The first problem that a check lists ends the compilation. -/
theorem compile_of_check_cons {p : Problem} {ps : List Problem} (h : check u allowCycles models = p :: ps) :
    (compile u allowCycles models).result = .error (.problem p) := by
  cases hreg : ModelSet.register models with
  | error q =>
    rw [check, hreg] at h
    rw [compile_of_register_error hreg, (List.cons.inj h).1]
  | ok set =>
    rw [check_of_register hreg] at h
    rw [compile_of_register hreg, h]

/-- Models compile exactly when a check of them lists nothing. -/
theorem exists_modules_iff (hobject : ∃ b, u.genericObject? = some b) :
    (∃ out, (compile u allowCycles models).result = .ok out) ↔ check u allowCycles models = [] := by
  refine ⟨?_, exists_modules hobject⟩
  rintro ⟨out, hout⟩
  cases hcheck : check u allowCycles models with
  | nil => rfl
  | cons p ps =>
    rw [compile_of_check_cons hcheck] at hout
    cases hout

/-- **Checking and compiling agree**: where there is an object type, a check lists nothing exactly when the compilation
gives modules, the first problem that it lists is the fault of the compilation, and no classified model is without a
module. -/
theorem compile_agrees_with_check (hobject : ∃ b, u.genericObject? = some b) :
    (check u allowCycles models = [] ↔ ∃ out, (compile u allowCycles models).result = .ok out) ∧
      (∀ p ps, check u allowCycles models = p :: ps → (compile u allowCycles models).result = .error (.problem p)) ∧
      ∀ set c, ModelSet.register models = .ok set → (set.classify u allowCycles).result = .ok c →
        ∀ m ∈ c.models, ∃ x, (SourceModule.ofModel ⟨c, u⟩ m).result = .ok x := by
  refine ⟨(exists_modules_iff hobject).symm, fun p ps => compile_of_check_cons, fun set c _ hc m hm => ?_⟩
  obtain ⟨hr, rfl⟩ := ModelSet.resolved_of_classify hc
  exact exists_module hr hobject hm

theorem compile_agrees_with_check_chains : (∃ b, Universe.standard.genericObject? = some b) ∧
    (compile .standard false [Sample.link, Sample.chain]).result =
      .error (.problem (.cyclicReference ["Chain", "Link"])) := by
  have hobject : ∃ b, Universe.standard.genericObject? = some b := ⟨_, rfl⟩
  have hcycles : Sample.chains.cycles = [["Chain", "Link"]] := by cbv
  have hcheck : check .standard false [Sample.link, Sample.chain] = [.cyclicReference ["Chain", "Link"]] := by
    show ModelSet.problems .standard false Sample.chains = _
    rw [ModelSet.problems, hcycles]
    rfl
  exact ⟨hobject, (compile_agrees_with_check hobject).2.1 _ _ hcheck⟩

/-! ## The names of the files -/

theorem toList_fileName (name : String) : (fileName name).toList = name.toList ++ ".g.ts".toList := String.toList_append

theorem fileName_injective {a b : String} (h : fileName a = fileName b) : a = b := by
  have hlist := congrArg String.toList h
  rw [toList_fileName, toList_fileName] at hlist
  exact String.toList_inj.mp (List.append_cancel_right hlist)

/-! ## The module of one model -/

/-- A compilation gives one module of a model's name, that of the model in the partition of the registered set. -/
theorem module_of_register {set : ModelSet} (hreg : ModelSet.register models = .ok set) {out : List SourceModule}
    (h : (compile u allowCycles models).result = .ok out) {m : Model} (hm : m ∈ models) :
    set.Resolved u ∧ m ∈ set.items ∧ ∃ x, (SourceModule.ofModel ⟨set.partition u, u⟩ m).result = .ok x ∧
      ∀ y, y ∈ out ∧ y.name = m.name ↔ y = x := by
  obtain ⟨set', hreg', hp, hout⟩ := compile_eq_ok_iff.mp h
  obtain rfl : set = set' := Except.ok.inj (hreg.symm.trans hreg')
  have hset : m ∈ set.items := ModelSet.items_register hreg ▸ hm
  obtain ⟨x, hx, hofx⟩ := Results.exists_right_of_mem hout (ModelSet.mem_models_partition.mpr hset)
  have hname : ∀ {m' y}, (SourceModule.ofModel ⟨set.partition u, u⟩ m').result = .ok y → y.name = m'.name := by
    intro m' y hy
    obtain ⟨text, -, rfl⟩ := SourceModule.result_ofModel_eq_ok_iff.mp hy
    rfl
  refine ⟨resolved_of_problems hp, hset, x, hofx, fun y => ⟨?_, ?_⟩⟩
  · rintro ⟨hy, hyname⟩
    obtain ⟨m', hm', hofy⟩ := Results.exists_left_of_mem hout hy
    have hmm : m' = m := Keyed.eq_of_key_eq (ModelSet.mem_models_partition.mp hm') hset ((hname hofy).symm.trans hyname)
    rw [hmm, hofx] at hofy
    exact (Except.ok.inj hofy).symm
  · rintro rfl
    exact ⟨hx, hname hofx⟩

theorem module_of_compile {out : List SourceModule} (h : (compile u allowCycles models).result = .ok out) {m : Model}
    (hm : m ∈ models) : ∃ set : ModelSet, set.Resolved u ∧ m ∈ set.items ∧
      ∃ x, (SourceModule.ofModel ⟨set.partition u, u⟩ m).result = .ok x ∧ ∀ y, y ∈ out ∧ y.name = m.name ↔ y = x := by
  obtain ⟨set, hreg, -⟩ := compile_eq_ok_iff.mp h
  exact ⟨set, module_of_register hreg h hm⟩

/-- In two sets without structural problems the names that a model lists have the same kind of meaning. -/
theorem agreeOn_partition {set₁ set₂ : ModelSet} (h₁ : set₁.Resolved u) (h₂ : set₂.Resolved u) {m : Model}
    (hm₁ : m ∈ set₁.items) (hm₂ : m ∈ set₂.items) :
    Scope.AgreeOn ⟨set₁.partition u, u⟩ ⟨set₂.partition u, u⟩ m := by
  refine ⟨rfl, fun f hf t ht => ?_⟩
  rw [Scope.isModel, Scope.isModel, h₁.isModel_partition hm₁ hf ht, h₂.isModel_partition hm₂ hf ht]

/-- **A module depends on its model and the universe alone**: two compilations over one universe whose lists share a
model, whatever else they hold, in whatever order, and whether or not cycles are allowed, give the same one module for
it. -/
theorem module_independent {allow₁ allow₂ : Bool} {models₁ models₂ : List Model} {out₁ out₂ : List SourceModule}
    (h₁ : (compile u allow₁ models₁).result = .ok out₁) (h₂ : (compile u allow₂ models₂).result = .ok out₂)
    {m : Model} (hm₁ : m ∈ models₁) (hm₂ : m ∈ models₂) :
    ∃ x, (∀ y, y ∈ out₁ ∧ y.name = m.name ↔ y = x) ∧ (∀ y, y ∈ out₂ ∧ y.name = m.name ↔ y = x) := by
  obtain ⟨set₁, hr₁, hs₁, x₁, hx₁, hout₁⟩ := module_of_compile h₁ hm₁
  obtain ⟨set₂, hr₂, hs₂, x₂, hx₂, hout₂⟩ := module_of_compile h₂ hm₂
  have hcomplex : (set₁.partition u).isComplex m.name = (set₂.partition u).isComplex m.name := by
    rw [hr₁.isComplex_partition hs₁, hr₂.isComplex_partition hs₂]
  rw [SourceModule.ofModel_congr (agreeOn_partition hr₁ hr₂ hs₁ hs₂) hcomplex, hx₂] at hx₁
  obtain rfl := Except.ok.inj hx₁
  exact ⟨x₂, hout₁, hout₂⟩

theorem module_independent_wrapper : ∃ out₁ out₂,
    (compile .standard false [Sample.wrapper, Sample.point]).result = .ok out₁ ∧
    (compile .standard true [Sample.point, Sample.link, Sample.wrapper, Sample.chain]).result = .ok out₂ ∧
    Sample.wrapper ∈ [Sample.wrapper, Sample.point] ∧
    Sample.wrapper ∈ [Sample.point, Sample.link, Sample.wrapper, Sample.chain] ∧
    ∃ x, (∀ y, y ∈ out₁ ∧ y.name = "Wrapper" ↔ y = x) ∧ (∀ y, y ∈ out₂ ∧ y.name = "Wrapper" ↔ y = x) := by
  have hobject : ∃ b, Universe.standard.genericObject? = some b := ⟨_, rfl⟩
  have hcycles : Sample.wrappers.cycles = [] :=
    ModelSet.cycles_eq_nil_of_rank (fun name => if name = "Wrapper" then 1 else 0) (by decide)
  have hcheck : check .standard false [Sample.wrapper, Sample.point] = [] := by
    show ModelSet.problems .standard false Sample.wrappers = []
    rw [ModelSet.problems, hcycles]
    rfl
  have hcheck' : check .standard true [Sample.point, Sample.link, Sample.wrapper, Sample.chain] = [] := rfl
  obtain ⟨out₁, h₁⟩ := exists_modules hobject hcheck
  obtain ⟨out₂, h₂⟩ := exists_modules hobject hcheck'
  have hm₁ : Sample.wrapper ∈ [Sample.wrapper, Sample.point] := by simp
  have hm₂ : Sample.wrapper ∈ [Sample.point, Sample.link, Sample.wrapper, Sample.chain] := by simp
  exact ⟨out₁, out₂, h₁, h₂, hm₁, hm₂, module_independent h₁ h₂ hm₁ hm₂⟩

end ModelCompiler
