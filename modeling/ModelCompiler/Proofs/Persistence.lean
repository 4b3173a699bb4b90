import ModelCompiler.Generation
import ModelCompiler.Proofs.Compiled
import ModelCompiler.Proofs.Trees

/-!
# What a run leaves on the disk

A run that writes its files leaves the tree it found, with the output directory and those above it made and one file for
each module directly in that directory, exactly when no model has a name with a slash
(`persisted_iff_no_slash`). A slash splits the name of the file into parts: the module `./A` takes the place of the
module `A`, and `../A` is outside the output directory (`not_persisted_slashes`).

* **One file** (`IsTree.writeFile`): a file is put at the destination of its path, where no directory was.
* **Many files** (`IsTree.writeEach`): directories stay, what is at no destination stays, and files with different
  destinations keep what was written to them.
-/

namespace ModelCompiler

namespace Disk

/-! ## Writing files -/

/-- The tree `d'` is `d` with a file at the location `l`, where no directory was. -/
structure Writes (d d' : Disk) (l : Location) (content : ByteArray) : Prop where
  tree : d'.IsTree
  workingDirectory_eq : d'.workingDirectory = d.workingDirectory
  free : d.at? l ≠ some .directory
  at?_eq : ∀ k, d'.at? k = if k = l then some (.file content) else d.at? k

theorem IsTree.writeFile {d d' : Disk} (ht : d.IsTree) {p : Path} (hp : p.Plain) {content : ByteArray}
    (h : d.writeFile p content = .ok d') : d.Writes d' (d.destination p) content := by
  obtain ⟨l, hl, hfree, rfl⟩ := writeFile_eq_ok h
  obtain ⟨rfl, habove, -⟩ := ht.locate hl
  have hroot : d.destination p ≠ [] := fun he => hfree (he ▸ d.at?_root)
  exact ⟨ht.put hfree habove (ht.names_destination hp), rfl, hfree, at?_put d hroot _⟩

/-- Where a file that is written to a directory goes. -/
def fileLocation (d : Disk) (out : Path) (f : SourceFile) : Location := d.destination (out.join (.ofText f.path))

theorem Writes.fileLocation_eq {d d' : Disk} {l : Location} {content : ByteArray} (h : d.Writes d' l content)
    (out : Path) : d'.fileLocation out = d.fileLocation out :=
  funext fun _ => destination_congr h.workingDirectory_eq _

/-- What files that are written to a directory leave of a tree, and what they add to it. -/
structure WritesEach (d d' : Disk) (out : Path) (files : List SourceFile) : Prop where
  tree : d'.IsTree
  directories : ∀ k, d.at? k = some .directory → d'.at? k = some .directory
  frame : ∀ k, (∀ f ∈ files, k ≠ d.fileLocation out f) → d'.at? k = d.at? k
  contents : (files.map (d.fileLocation out)).Nodup →
    ∀ f ∈ files, d'.at? (d.fileLocation out f) = some (.file f.content.toUTF8)

/-- One file more, written first. -/
theorem WritesEach.cons {d d₁ d' : Disk} {out : Path} {f : SourceFile} {files : List SourceFile}
    (hf : d.Writes d₁ (d.fileLocation out f) f.content.toUTF8) (h : d₁.WritesEach d' out files) :
    d.WritesEach d' out (f :: files) := by
  have hlocation := hf.fileLocation_eq out
  refine ⟨h.tree, fun k hk => h.directories k ?_, fun k hk => ?_, fun hn g hg => ?_⟩
  · have hne : k ≠ d.fileLocation out f := fun he => hf.free (he ▸ hk)
    rw [hf.at?_eq, if_neg hne, hk]
  · obtain ⟨hkf, hkfiles⟩ := List.forall_mem_cons.mp hk
    rw [h.frame k (hlocation ▸ hkfiles), hf.at?_eq, if_neg hkf]
  · obtain ⟨hnf, hnfiles⟩ := List.nodup_cons.mp (List.map_cons ▸ hn)
    rcases List.mem_cons.mp hg with rfl | hg
    · have hkept : ∀ f' ∈ files, d.fileLocation out g ≠ d.fileLocation out f' := fun f' hf' he =>
        hnf (List.mem_map.mpr ⟨f', hf', he.symm⟩)
      rw [h.frame _ (hlocation ▸ hkept), hf.at?_eq, if_pos rfl]
    · rw [← hlocation]
      exact h.contents (hlocation ▸ hnfiles) g hg

/-- When the first file is written, the others are written to the disk that this leaves. -/
theorem writeEach_cons {d d₁ : Disk} {out : Path} {f : SourceFile} {files : List SourceFile}
    (h : d.writeFile (out.join (.ofText f.path)) f.content.toUTF8 = .ok d₁) :
    (d.writeEach out (f :: files)).1 = (d₁.writeEach out files).1 ∧
      (d.writeEach out (f :: files)).2.result = (d₁.writeEach out files).2.result := by
  rw [Disk.writeEach, h]
  exact ⟨rfl, rfl⟩

theorem writeEach_cons_eq_ok {d : Disk} {out : Path} {f : SourceFile} {files : List SourceFile}
    (h : (d.writeEach out (f :: files)).2.result = .ok ()) :
    ∃ d₁, d.writeFile (out.join (.ofText f.path)) f.content.toUTF8 = .ok d₁ ∧
      (d₁.writeEach out files).2.result = .ok () ∧ (d.writeEach out (f :: files)).1 = (d₁.writeEach out files).1 := by
  cases hwrite : d.writeFile (out.join (.ofText f.path)) f.content.toUTF8 with
  | error e =>
    rw [Disk.writeEach, hwrite] at h
    cases h
  | ok d₁ =>
    obtain ⟨hdisk, hresult⟩ := writeEach_cons hwrite
    exact ⟨d₁, rfl, hresult ▸ h, hdisk⟩

theorem IsTree.writeEach {out : Path} (hout : out.Plain) : ∀ {files : List SourceFile} {d : Disk}, d.IsTree →
    (d.writeEach out files).2.result = .ok () → d.WritesEach (d.writeEach out files).1 out files
  | [], d, ht, _ => ⟨ht, fun _ hk => hk, fun _ _ => rfl, fun _ f hf => by simp at hf⟩
  | f :: files, d, ht, h => by
    obtain ⟨d₁, hwrite, hrest, hdisk⟩ := writeEach_cons_eq_ok h
    have hf := ht.writeFile (hout.join (Path.plain_ofText f.path)) hwrite
    rw [hdisk]
    exact .cons hf (hf.tree.writeEach hout hrest)

end Disk

/-! ## The files of modules -/

theorem slash_mem_fileName_iff {name : String} : '/' ∈ (fileName name).toList ↔ '/' ∈ name.toList := by
  rw [toList_fileName, List.mem_append]
  exact or_iff_left (by decide)

/-- A file name is longer than the parts of a path with a meaning of their own. -/
theorem fileName_ne {name s : String} (hs : s.length < 5) : fileName name ≠ s := by
  rintro rfl
  rw [← String.length_toList, toList_fileName, List.length_append] at hs
  have : ".g.ts".toList.length = 5 := by decide
  omega

/-- The file of a module whose name has no slash is directly in the output directory. -/
theorem Disk.fileLocation_file {d : Disk} {out : Path} {x : SourceModule} (h : '/' ∉ x.name.toList) :
    d.fileLocation out x.file = d.destination out ++ [fileName x.name] := by
  have hpath : Path.ofText (fileName x.name) = ⟨.workingDirectory, [fileName x.name]⟩ :=
    Path.ofText_of_not_mem (mt slash_mem_fileName_iff.mp h) (fileName_ne (by decide)) (fileName_ne (by decide))
  have hup : fileName x.name ≠ ".." := fileName_ne (by decide)
  rw [fileLocation, SourceModule.file, hpath]
  show leadFrom (d.base out) (out.parts ++ [fileName x.name]) = _
  rw [leadFrom_concat, partFrom, if_neg hup]
  rfl

/-! ## Runs -/

variable {d : Disk} {s : Settings}

/-- The files of a run are those of the modules that the models of the input directory compile to. -/
theorem prepare_eq_ok_iff {files : List SourceFile} : (prepare d s).result = .ok files ↔
    ∃ models modules, (d.loadDirectory (.ofText s.inDir)).result = .ok models ∧
      (compile .standard s.allowCycles models).result = .ok modules ∧ modules.map SourceModule.file = files := by
  rw [prepare, Logged.result_bind, Results.bind_eq_ok_iff]
  refine exists_congr fun models => ?_
  rw [Logged.result_bind, Results.bind_eq_ok_iff, ← exists_and_left]
  exact exists_congr fun modules => and_congr_right fun _ => and_congr_right fun _ => ⟨Except.ok.inj, congrArg _⟩

/-- A run that cannot prepare its files leaves the disk. -/
theorem generate_of_prepare_error {e : Fault} (h : (prepare d s).result = .error e) :
    (generate d s).1 = d ∧ (generate d s).2.result = .error e := by
  rw [generate, h]
  exact ⟨rfl, h⟩

/-- A run that can prepare its files writes them. -/
theorem generate_of_prepare_ok {files : List SourceFile} (h : (prepare d s).result = .ok files) :
    (generate d s).1 = (d.writeFiles (.ofText s.outDir) files).1 ∧
      (generate d s).2.result = (d.writeFiles (.ofText s.outDir) files).2.result >>= fun _ => .ok files := by
  rw [generate, h]
  refine ⟨rfl, ?_⟩
  show (prepare d s >>= _).result = _
  rw [Logged.result_bind, h]
  exact Logged.result_bind _ _

/-- A run that writes its files makes the output directory first. -/
theorem generate_eq_ok {files : List SourceFile} (h : (generate d s).2.result = .ok files) :
    (prepare d s).result = .ok files ∧ ∃ d₁, d.makeDirectories (.ofText s.outDir) = (d₁, .ok ()) ∧
      (d₁.writeEach (.ofText s.outDir) files).2.result = .ok () ∧
      (generate d s).1 = (d₁.writeEach (.ofText s.outDir) files).1 := by
  cases hp : (prepare d s).result with
  | error e =>
    rw [(generate_of_prepare_error hp).2] at h
    cases h
  | ok prepared =>
    obtain ⟨hdisk, hresult⟩ := generate_of_prepare_ok hp
    rw [hresult] at h
    obtain ⟨_, hwritten, hfiles⟩ := Results.bind_eq_ok_iff.mp h
    obtain rfl := Except.ok.inj hfiles
    refine ⟨rfl, ?_⟩
    rw [hdisk]
    unfold Disk.writeFiles at hwritten ⊢
    rcases hmake : d.makeDirectories (.ofText s.outDir) with ⟨d₁, e | _⟩
    · rw [hmake] at hwritten
      cases hwritten
    · rw [hmake] at hwritten
      exact ⟨d₁, rfl, hwritten, rfl⟩

/-- A compilation gives one module for each model, and no two models have one name. -/
theorem perm_names_of_compile {u : Universe} {allowCycles : Bool} {models : List Model} {modules : List SourceModule}
    (h : (compile u allowCycles models).result = .ok modules) :
    (modules.map SourceModule.name).Perm (models.map Model.name) ∧ (models.map Model.name).Nodup := by
  obtain ⟨set, hreg, -⟩ := compile_eq_ok_iff.mp h
  rw [map_name_of_compile hreg h, ← ModelSet.items_register hreg]
  exact ⟨(ModelSet.perm_models_partition u set).map _, set.nodup⟩

/-! ## A sample tree -/

namespace Sample

/-- A model without fields. -/
def bare (name : String) : Model := ⟨name, Keyed.empty⟩

def bareModule (name : String) : SourceModule :=
  ⟨name, "", (bare name).interfaceText,
    Layout.document [(bare name).classLayout ⟨Universe.standard.genericObject?.get rfl, []⟩]⟩

def bareRecord (name : String) : String := "\x7b\"name\":\"" ++ name ++ "\",\"memberVariables\":\x7b\x7d\x7d"

/-- A tree with one file of models without fields. -/
def work (names : List String) : Disk :=
  let text := "[" ++ ",".intercalate (names.map bareRecord) ++ "]"
  ⟨⟨[⟨["work"], .directory⟩, ⟨["work", "models"], .directory⟩, ⟨["work", "models", "all.json"], .file text.toUTF8⟩],
    by simp⟩, ["work"]⟩

def settings : Settings := ⟨"out", "models", true⟩

variable {names : List String}

theorem isTree_work : (work names).IsTree :=
  Disk.isTree_of_entries (by simp [work, Disk.at?, Keyed.get?]) (by simp [work, Disk.at?, Keyed.get?]) (by simp [work])

/-- The tree with the output directory. -/
def made (names : List String) : Disk := (work names).put ["work", "out"] .directory

theorem makeDirectories_work : (work names).makeDirectories (.ofText "out") = (made names, .ok ()) := by
  have hmake : (work names).makeDirectory (.ofText "out") = .ok (made names) := rfl
  rw [Disk.makeDirectories, hmake]

/-- A run on the tree that can load and compile its models and write their files. -/
theorem generate_work (hload : ((work names).loadDirectory (.ofText "models")).result = .ok (names.map bare))
    (hcompile : (compile .standard true (names.map bare)).result = .ok (names.map bareModule)) {d' : Disk}
    (hdisk : ((made names).writeEach (.ofText "out") ((names.map bareModule).map SourceModule.file)).1 = d')
    (hwrite : ((made names).writeEach (.ofText "out") ((names.map bareModule).map SourceModule.file)).2.result =
      .ok ()) :
    (generate (work names) settings).1 = d' ∧
      (generate (work names) settings).2.result = .ok ((names.map bareModule).map SourceModule.file) := by
  have hprepare : (prepare (work names) settings).result = .ok ((names.map bareModule).map SourceModule.file) :=
    prepare_eq_ok_iff.mpr ⟨_, _, hload, hcompile, rfl⟩
  have hwritten : (work names).writeFiles (.ofText "out") ((names.map bareModule).map SourceModule.file) =
      (made names).writeEach (.ofText "out") ((names.map bareModule).map SourceModule.file) := by
    rw [Disk.writeFiles, makeDirectories_work]
  obtain ⟨hgenerated, hresult⟩ := generate_of_prepare_ok hprepare
  constructor
  · rw [hgenerated, settings, hwritten, hdisk]
  · rw [hresult, settings, hwritten, hwrite]
    rfl

theorem loadDirectory_work : ((work ["A"]).loadDirectory (.ofText "models")).result = .ok [bare "A"] := by
  decide +kernel

theorem compile_bare {allowCycles : Bool} :
    (compile .standard allowCycles [bare "A"]).result = .ok [bareModule "A"] := by
  have hregister : ModelSet.register [bare "A"] = .ok ⟨[bare "A"], by decide⟩ := rfl
  have hcycles : ModelSet.cycles ⟨[bare "A"], by decide⟩ = [] :=
    ModelSet.cycles_eq_nil_of_rank (fun _ => 0) (by decide)
  have hproblems : ModelSet.problems .standard allowCycles ⟨[bare "A"], by decide⟩ = [] := by
    rw [ModelSet.problems, hcycles]
    cases allowCycles <;> rfl
  rw [compile_of_register hregister, hproblems]
  rfl

end Sample

/-! ## What a run leaves -/

/-- The disk `d'` is the tree `d` with the directory at `out` and those above it, and with one file for each of the
modules directly in that directory. -/
structure Disk.Persisted (d d' : Disk) (out : Path) (modules : List SourceModule) : Prop where
  /-- A directory is at each location on the way, where nothing else was. -/
  directories : ∀ l ∈ d.way out, d'.at? l = some .directory ∧ (d.at? l = none ∨ d.at? l = some .directory)
  /-- The file of a module has its name and holds its text and a line feed. -/
  files : ∀ x ∈ modules, d'.at? (d.destination out ++ [x.name ++ ".g.ts"]) = some (.file (x.text ++ "\n").toUTF8)
  /-- No two modules have one file. -/
  apart : (modules.map fun x => d.destination out ++ [x.name ++ ".g.ts"]).Nodup
  /-- Everything else is as it was. -/
  frame : ∀ l, l ∉ d.way out → (∀ x ∈ modules, l ≠ d.destination out ++ [x.name ++ ".g.ts"]) → d'.at? l = d.at? l

/-- The files of modules with different names are apart. -/
theorem nodup_file_locations {modules : List SourceModule} (h : (modules.map SourceModule.name).Nodup)
    (directory : Location) : (modules.map fun x => directory ++ [fileName x.name]).Nodup := by
  have hn : ((modules.map SourceModule.name).map fun name => directory ++ [fileName name]).Nodup :=
    h.map fun a b hab => fileName_injective (by simpa using hab)
  rw [List.map_map] at hn
  exact hn

/-- Modules whose names have no slash are persisted by what writes their files. -/
theorem Disk.persisted_of_no_slash {d d₁ d' : Disk} {out : Path} {modules : List SourceModule}
    (hmade : d.Extends d₁ (d.way out)) (hwritten : d₁.WritesEach d' out (modules.map SourceModule.file))
    (hnames : (modules.map SourceModule.name).Nodup) (hslash : ∀ x ∈ modules, '/' ∉ x.name.toList) :
    d.Persisted d' out modules := by
  have hlocation : ∀ x ∈ modules, d₁.fileLocation out x.file = d.destination out ++ [fileName x.name] := by
    intro x hx
    rw [fileLocation_file (hslash x hx), destination_congr hmade.workingDirectory_eq]
  have hapart := nodup_file_locations hnames (d.destination out)
  refine ⟨fun l hl => ⟨hwritten.directories l ?_, hmade.free l hl⟩, fun x hx => ?_, hapart, fun l hl hfiles => ?_⟩
  · rw [hmade.at?_eq, if_pos hl]
  · have hn : (modules.map SourceModule.file).map (d₁.fileLocation out) =
        modules.map fun x => d.destination out ++ [fileName x.name] := by
      rw [List.map_map]
      exact List.map_congr_left hlocation
    have hfile := hwritten.contents (hn ▸ hapart) x.file (List.mem_map_of_mem hx)
    rwa [hlocation x hx] at hfile
  · rw [hwritten.frame l, hmade.at?_eq, if_neg hl]
    intro f hf
    obtain ⟨x, hx, rfl⟩ := List.mem_map.mp hf
    rw [hlocation x hx]
    exact hfiles x hx

/-- **A run persists its modules exactly when no name has a slash**: whenever a run on a tree writes its files, the
disk that it leaves is a tree again, and it is the tree from before with the output directory, those above it and one
file for each module directly in it (and nothing else) if and only if no model of the input has a slash in its name. -/
theorem persisted_iff_no_slash {files : List SourceFile} (ht : d.IsTree) (h : (generate d s).2.result = .ok files) :
    ∃ models modules, (d.loadDirectory (.ofText s.inDir)).result = .ok models ∧
      (compile .standard s.allowCycles models).result = .ok modules ∧ modules.map SourceModule.file = files ∧
      (modules.map SourceModule.name).Perm (models.map Model.name) ∧ (generate d s).1.IsTree ∧
      (d.Persisted (generate d s).1 (.ofText s.outDir) modules ↔ ∀ m ∈ models, '/' ∉ m.name.toList) := by
  obtain ⟨hprepare, d₁, hmake, hwrite, hdisk⟩ := generate_eq_ok h
  obtain ⟨models, modules, hload, hcompile, rfl⟩ := prepare_eq_ok_iff.mp hprepare
  obtain ⟨hperm, hnodup⟩ := perm_names_of_compile hcompile
  have hplain := Path.plain_ofText s.outDir
  have hmade := ht.makeDirectories hplain hmake
  have hwritten := hmade.tree.writeEach hplain hwrite
  rw [← hdisk] at hwritten
  have hslash : (∀ m ∈ models, '/' ∉ m.name.toList) ↔ ∀ x ∈ modules, '/' ∉ x.name.toList := by
    constructor
    · intro hm x hx
      obtain ⟨m, hmem, hname⟩ := List.mem_map.mp (hperm.mem_iff.mp (List.mem_map_of_mem hx))
      exact hname ▸ hm m hmem
    · intro hx m hm
      obtain ⟨x, hmem, hname⟩ := List.mem_map.mp (hperm.mem_iff.mpr (List.mem_map_of_mem hm))
      exact hname ▸ hx x hmem
  refine ⟨models, modules, hload, hcompile, rfl, hperm, hwritten.tree, ?_⟩
  rw [hslash]
  constructor
  · intro hp x hx
    have hname := hwritten.tree.names _ _ (hp.files x hx) (fileName x.name) (by simp [fileName])
    exact mt slash_mem_fileName_iff.mpr hname
  · exact Disk.persisted_of_no_slash hmade hwritten (hperm.nodup_iff.mpr hnodup)

section SampleRuns

open Sample

theorem persisted_iff_no_slash_work : (work ["A"]).IsTree ∧
    (generate (work ["A"]) settings).2.result = .ok [(bareModule "A").file] ∧
    (work ["A"]).Persisted (generate (work ["A"]) settings).1 (.ofText "out") [bareModule "A"] := by
  have hwrite : ((made ["A"]).writeEach (.ofText "out") [(bareModule "A").file]).2.result = .ok () := by
    rw [(Disk.writeEach_cons rfl).2]
    rfl
  obtain ⟨-, hresult⟩ := generate_work loadDirectory_work compile_bare rfl hwrite
  obtain ⟨models, modules, hmodels, hmodules, -, -, -, hpersisted⟩ := persisted_iff_no_slash isTree_work hresult
  obtain rfl : [bare "A"] = models := Except.ok.inj (loadDirectory_work.symm.trans hmodels)
  obtain rfl : [bareModule "A"] = modules := Except.ok.inj (compile_bare.symm.trans hmodules)
  exact ⟨isTree_work, hresult, hpersisted.mpr (by decide)⟩

/-- **Names with slashes**: of the three modules `A`, `./A` and `../A` the second replaces the first and the third is
written next to the output directory, so that the run, which ends without a fault, does not persist them. -/
theorem not_persisted_slashes : ∃ d', (work ["A", "./A", "../A"]).IsTree ∧
    (generate (work ["A", "./A", "../A"]) settings).1 = d' ∧
    (generate (work ["A", "./A", "../A"]) settings).2.result =
      .ok [(bareModule "A").file, (bareModule "./A").file, (bareModule "../A").file] ∧
    (bareModule "A").file.content ≠ (bareModule "./A").file.content ∧
    d'.at? ["work", "out", "A.g.ts"] = some (.file (bareModule "./A").file.content.toUTF8) ∧
    d'.at? ["work", "A.g.ts"] = some (.file (bareModule "../A").file.content.toUTF8) ∧
    ∀ modules, ¬ (work ["A", "./A", "../A"]).Persisted d' (.ofText "out") modules := by
  have hload : ((work ["A", "./A", "../A"]).loadDirectory (.ofText "models")).result =
      .ok [bare "A", bare "./A", bare "../A"] := by
    decide +kernel
  have hcompile : (compile .standard true [bare "A", bare "./A", bare "../A"]).result =
      .ok [bareModule "A", bareModule "./A", bareModule "../A"] := by
    have hregister : ModelSet.register [bare "A", bare "./A", bare "../A"] =
      .ok ⟨[bare "A", bare "./A", bare "../A"], by decide⟩ := rfl
    rw [compile_of_register hregister]
    rfl
  have hdisk : ((made ["A", "./A", "../A"]).writeEach (.ofText "out")
      [(bareModule "A").file, (bareModule "./A").file, (bareModule "../A").file]).1 =
      (((made ["A", "./A", "../A"]).put ["work", "out", "A.g.ts"] (.file (bareModule "A").file.content.toUTF8)).put
        ["work", "out", "A.g.ts"] (.file (bareModule "./A").file.content.toUTF8)).put
        ["work", "A.g.ts"] (.file (bareModule "../A").file.content.toUTF8) := by
    rw [(Disk.writeEach_cons rfl).1, (Disk.writeEach_cons rfl).1, (Disk.writeEach_cons rfl).1]
    rfl
  have hwrite : ((made ["A", "./A", "../A"]).writeEach (.ofText "out")
      [(bareModule "A").file, (bareModule "./A").file, (bareModule "../A").file]).2.result = .ok () := by
    rw [(Disk.writeEach_cons rfl).2, (Disk.writeEach_cons rfl).2, (Disk.writeEach_cons rfl).2]
    rfl
  obtain ⟨hgenerated, hresult⟩ := generate_work hload hcompile hdisk hwrite
  refine ⟨_, isTree_work, hgenerated, hresult, by decide +kernel, rfl, rfl, fun modules hp => ?_⟩
  -- Nothing was next to the output directory before the run.
  have hout : (work ["A", "./A", "../A"]).destination (.ofText "out") = ["work", "out"] := by decide
  have hframe := hp.frame ["work", "A.g.ts"] (by decide) fun x _ he => by simp [hout] at he
  cases hframe

end SampleRuns

end ModelCompiler
