import Mathlib.Data.List.Sort
import Mathlib.Data.String.Basic
import ModelCompiler.Loading
import ModelCompiler.Proofs.RecordGrammar

/-!
# What a directory loads as

A directory loads as its files with the extension `.json` in the order of their names (`Disk.JsonFilesOf`), whatever
else is in it and in whatever order the disk lists it (`loadDirectory_outcome`).

* **Entries** (`Disk.DirectoryAt`): a path that can be located leads to a directory that can be followed, so an entry
  that is listed can be looked at and read, and the loading of all entries is the loading of these files
  (`DirectoryAt.loadDirectory_eq`).
* **One file** (`Disk.LoadsAs`): its bytes cannot be decoded or parsed, its value is no array and gives no models, all
  its records describe models, or one is the first that does not. These are all the ways (`exists_loadsAs`).
* **Many files** (`AllLoad.mapM_eq`, `AllLoad.mapM_append_eq`): they load one after another, and the first that fails is
  the last that is looked at.
* **No order** (`JsonFilesOf.unique`): the files are known from what is at each place and not from the list of entries.
-/

namespace ModelCompiler

/-! ## Logged sequences -/

namespace Logged

variable {ε α β γ : Type}

theorem ofExcept_ok_bind (a : α) (f : α → Logged ε β) : ofExcept (.ok a) >>= f = f a := rfl

/-- What is done for some of the items only is done for these. -/
theorem flatten_mapM_filterMap (g : α → Option β) (f : β → Logged ε (List γ)) : ∀ xs : List α,
    List.flatten <$> xs.mapM (fun a => (g a).elim (pure []) f) = List.flatten <$> (xs.filterMap g).mapM f
  | [] => rfl
  | a :: xs => by
    have ih := flatten_mapM_filterMap g f xs
    rw [List.mapM_cons, List.filterMap_cons]
    cases g a with
    | none =>
      rw [← ih]
      simp
    | some b =>
      have hcons : ∀ (bs : List γ) (y : Logged ε (List (List γ))),
          List.flatten <$> (y >>= fun bss => pure (bs :: bss)) = (bs ++ ·) <$> (List.flatten <$> y) := by
        simp
      rw [List.mapM_cons]
      simp only [map_bind, hcons, ih, Option.elim_some]

end Logged

/-! ## Entries of a directory -/

namespace Disk

variable {d : Disk} {p : Path} {l : Location} {name : String}

/-- A name that an entry of a directory can have. -/
structure IsEntryName (name : String) : Prop where
  not_up : name ≠ ".."
  no_null : '\x00' ∉ name.toList
  short : name.utf8ByteSize ≤ maxNameBytes

/-- A path leads to the directory at a location. -/
structure DirectoryAt (d : Disk) (p : Path) (l : Location) : Prop where
  no_null : hasNull p = false
  located : d.locate p = .ok l
  is_directory : d.at? l = some .directory
  /-- The entries have names that entries can have. -/
  named : ∀ name, (d.at? (l ++ [name])).isSome → IsEntryName name

theorem hasNull_iff : hasNull p = true ↔ ∃ part ∈ p.parts, '\x00' ∈ part.toList := by
  simp [hasNull]

theorem hasNull_child (hp : hasNull p = false) (hname : IsEntryName name) : hasNull (p.child name) = false := by
  rw [Bool.eq_false_iff] at hp ⊢
  intro hchild
  obtain ⟨part, hpart, hnull⟩ := hasNull_iff.mp hchild
  rcases List.mem_append.mp hpart with h | h
  · exact hp (hasNull_iff.mpr ⟨part, h, hnull⟩)
  · exact hname.no_null (List.mem_singleton.mp h ▸ hnull)

/-- Parts are followed one after another. -/
theorem follow_concat (d : Disk) (last : String) : ∀ (here : Location) (parts : List String),
    d.follow here (parts ++ [last]) = (d.follow here parts >>= fun l => d.follow l [last])
  | here, [] => by rw [List.nil_append, Disk.follow]; rfl
  | here, part :: parts => by
    rw [List.cons_append, Disk.follow, Disk.follow]
    split
    · exact follow_concat d last _ parts
    · split
      · rfl
      · split
        · rfl
        · rfl
        · exact follow_concat d last _ parts

/-- A directory that can be located can be followed. -/
theorem follow_of_locate (hl : d.locate p = .ok l) (hdir : d.at? l = some .directory) :
    d.follow (d.base p) p.parts = .ok l := by
  obtain ⟨parent, hparent, h⟩ := Results.bind_eq_ok_iff.mp hl
  cases hlast : p.parts.getLast? with
  | none =>
    rw [hlast] at h
    obtain rfl := Except.ok.inj h
    rw [List.getLast?_eq_none_iff] at hlast
    rwa [hlast] at hparent ⊢
  | some last =>
    simp only [hlast] at h
    obtain ⟨parts, hparts⟩ := List.getLast?_eq_some_iff.mp hlast
    rw [hparts, List.dropLast_concat] at hparent
    rw [hparts, follow_concat, hparent]
    show d.follow parent [last] = _
    rw [Disk.follow]
    split at h
    · rename_i hup
      rw [if_pos hup]
      exact h
    · rename_i hup
      rw [if_neg hup]
      split at h
      · cases h
      · rename_i hlong
        obtain rfl := Except.ok.inj h
        rw [if_neg hlong, hdir]
        rfl

/-- The names in a directory. -/
def namesIn (d : Disk) (l : Location) : List String := d.entries.items.filterMap (nameIn? l)

theorem nameIn?_eq_some_iff {e : Entry} : nameIn? l e = some name ↔ e.location = l ++ [name] := by
  unfold nameIn?
  rcases e.location.eq_nil_or_concat with h | ⟨parts, last, h⟩
  · simp [h]
  · rw [h]
    simp

theorem mem_namesIn : name ∈ d.namesIn l ↔ (d.at? (l ++ [name])).isSome := by
  have hat : d.at? (l ++ [name]) = (d.entries.get? (l ++ [name])).map Entry.node := if_neg (by simp)
  rw [hat, Option.isSome_map, Option.isSome_iff_exists, namesIn, List.mem_filterMap]
  simp only [nameIn?_eq_some_iff, Keyed.get?_eq_some_iff]

theorem nodup_namesIn (d : Disk) (l : Location) : (d.namesIn l).Nodup := by
  have hlocations : d.entries.items.Pairwise fun e f => e.location ≠ f.location :=
    List.pairwise_map.mp d.entries.nodup
  refine List.pairwise_filterMap.mpr (hlocations.imp fun {e f} hne a ha b hb hab => hne ?_)
  rw [nameIn?_eq_some_iff.mp ha, nameIn?_eq_some_iff.mp hb, hab]

namespace DirectoryAt

variable (h : d.DirectoryAt p l)
include h

theorem locate_child (hname : IsEntryName name) : d.locate (p.child name) = .ok (l ++ [name]) := by
  have hfollow : d.follow (d.base (p.child name)) (p.child name).parts.dropLast = .ok l := by
    rw [Path.child, List.dropLast_concat]
    exact follow_of_locate h.located h.is_directory
  rw [locate, hfollow]
  simp [Path.child, hname.not_up, Nat.not_lt.mpr hname.short, bind, Except.bind, pure, Except.pure]

theorem look : d.look p = .ok (some .directory) := by
  rw [Disk.look, h.no_null, h.located]
  exact congrArg Except.ok h.is_directory

theorem list : d.list p = .ok (d.namesIn l) := by
  rw [Disk.list, onPath, h.no_null, h.located]
  simp only [bind, Except.bind, h.is_directory]
  rfl

theorem look_child (hname : IsEntryName name) : d.look (p.child name) = .ok (d.at? (l ++ [name])) := by
  rw [Disk.look, hasNull_child h.no_null hname, h.locate_child hname]
  rfl

theorem readFile_child {content : ByteArray} (hname : IsEntryName name)
    (hfile : d.at? (l ++ [name]) = some (.file content)) : d.readFile (p.child name) = .ok content := by
  rw [readFile, onPath, hasNull_child h.no_null hname, h.locate_child hname]
  simp only [bind, Except.bind, hfile]
  rfl

end DirectoryAt

/-! ## Files -/

/-- A file of a directory. -/
structure NamedFile where
  name : String
  content : ByteArray

/-- The file with the extension `.json` that has a name in a directory. -/
def jsonFile? (d : Disk) (l : Location) (name : String) : Option NamedFile :=
  match d.at? (l ++ [name]) with
  | some (.file content) => if Path.extension name = ".json" then some ⟨name, content⟩ else none
  | _ => none

theorem jsonFile?_eq_some_iff {f : NamedFile} : d.jsonFile? l name = some f ↔
    f.name = name ∧ d.at? (l ++ [name]) = some (.file f.content) ∧ Path.extension name = ".json" := by
  obtain ⟨n, c⟩ := f
  unfold jsonFile?
  split
  · rename_i content hfile
    rw [hfile]
    split
    · simp [*, and_comm, eq_comm]
    · simp [*]
  · rename_i hfile
    simp only [reduceCtorEq, false_iff]
    rintro ⟨-, h, -⟩
    exact hfile _ h

/-- The files with the extension `.json` directly in a directory, in the order of their names. -/
structure JsonFilesOf (d : Disk) (l : Location) (files : List NamedFile) : Prop where
  ordered : files.Pairwise fun f g => f.name < g.name
  mem_iff : ∀ f, f ∈ files ↔ d.at? (l ++ [f.name]) = some (.file f.content) ∧ Path.extension f.name = ".json"

def jsonFiles (d : Disk) (l : Location) : List NamedFile := ((d.namesIn l).mergeSort (· ≤ ·)).filterMap (d.jsonFile? l)

theorem jsonFilesOf_jsonFiles (d : Disk) (l : Location) : d.JsonFilesOf l (d.jsonFiles l) where
  ordered := by
    have hle := List.pairwise_mergeSort' (· ≤ ·) (d.namesIn l)
    have hne : ((d.namesIn l).mergeSort (· ≤ ·)).Nodup := (List.mergeSort_perm _ _).nodup_iff.mpr (d.nodup_namesIn l)
    refine List.pairwise_filterMap.mpr ((hle.and hne).imp fun {a b} hab f hf g hg => ?_)
    rw [(jsonFile?_eq_some_iff.mp hf).1, (jsonFile?_eq_some_iff.mp hg).1]
    exact lt_of_le_of_ne hab.1 hab.2
  mem_iff f := by
    simp only [jsonFiles, List.mem_filterMap, List.mem_mergeSort, mem_namesIn, jsonFile?_eq_some_iff]
    constructor
    · rintro ⟨name, -, rfl, h⟩
      exact h
    · intro h
      exact ⟨f.name, by simp [h.1], rfl, h⟩

/-- No directory has two such lists. -/
theorem JsonFilesOf.unique {files files' : List NamedFile} (h : d.JsonFilesOf l files) (h' : d.JsonFilesOf l files') :
    files = files' := by
  have hnodup : ∀ {fs : List NamedFile}, fs.Pairwise (fun f g => f.name < g.name) → fs.Nodup := by
    intro fs hs
    refine hs.imp fun {f g} hlt he => ?_
    rw [he] at hlt
    exact lt_irrefl _ hlt
  have hperm : files.Perm files' := (List.perm_ext_iff_of_nodup (hnodup h.ordered) (hnodup h'.ordered)).mpr fun f => by
    rw [h.mem_iff, h'.mem_iff]
  exact hperm.eq_of_pairwise (fun f g _ _ hfg hgf => absurd (lt_trans hfg hgf) (lt_irrefl _)) h.ordered h'.ordered

/-! ## What a file loads as -/

/-- The models in a file. -/
def readNamed (p : Path) (f : NamedFile) : Logged Fault (List Model) := do
  match ← Logged.ofExcept (jsonOfBytes ("JSON in " ++ (p.child f.name).text) f.content) with
  | .array records => .ofExcept ((parseRecords (p.child f.name).text 0 records).mapError .problem)
  | _ =>
    .say (loadLine .warning ("Skipping " ++ (p.child f.name).text ++ ": top-level value is not an array"))
    return []

/-- The models in a file, with the line about their number. -/
def loadNamed (p : Path) (f : NamedFile) : Logged Fault (List Model) := do
  let models ← readNamed p f
  .say (loadLine .info ("Loaded " ++ toString models.length ++ " data models from " ++ f.name))
  return models

theorem loadFile_child {f : NamedFile} (h : d.readFile (p.child f.name) = .ok f.content) :
    d.loadFile (p.child f.name) = readNamed p f := by
  rw [loadFile, h]
  rfl

theorem DirectoryAt.loadEntry_eq (h : d.DirectoryAt p l) (hname : IsEntryName name) :
    d.loadEntry p name = (d.jsonFile? l name).elim (pure []) (loadNamed p) := by
  rw [loadEntry, h.look_child hname, jsonFile?, Logged.ofExcept_ok_bind]
  cases hat : d.at? (l ++ [name]) with
  | none => rfl
  | some node =>
    cases node with
    | directory => rfl
    | file content =>
      by_cases hext : Path.extension name = ".json"
      · have hfile := loadFile_child (f := ⟨name, content⟩) (h.readFile_child hname hat)
        simp only [hext, if_true, hfile, Option.elim_some, loadNamed]
      · simp only [hext, if_false, Option.elim_none]

/-- A directory loads as its files with the extension `.json` do one after another. -/
theorem DirectoryAt.loadDirectory_eq (h : d.DirectoryAt p l) :
    d.loadDirectory p = List.flatten <$> (d.jsonFiles l).mapM (loadNamed p) := by
  have hentries : ((d.namesIn l).mergeSort (· ≤ ·)).mapM (d.loadEntry p) =
      ((d.namesIn l).mergeSort (· ≤ ·)).mapM fun name => (d.jsonFile? l name).elim (pure []) (loadNamed p) := by
    refine Results.mapM_congr fun name hname => h.loadEntry_eq (h.named name ?_)
    exact mem_namesIn.mp (List.mem_mergeSort.mp hname)
  rw [loadDirectory, h.look, h.list, jsonFiles, ← Logged.flatten_mapM_filterMap, ← hentries]
  simp only [Logged.ofExcept_ok_bind, map_eq_pure_bind]

/-! ## Outcomes -/

/-- What a record of a file is called in problems. -/
def recordSubject (file : String) (index : Nat) : String := "data model " ++ file ++ "[" ++ toString index ++ "]"

/-- Records give models when each describes one. -/
theorem parseRecords_eq_ok_iff {file : String} : ∀ {records : List Json} {index : Nat} {models : List Model},
    parseRecords file index records = .ok models ↔ List.Forall₂ (fun record m => m.DescribedBy record) records models
  | [], index, models => by
    rw [parseRecords, List.forall₂_nil_left_iff]
    exact ⟨fun h => (Except.ok.inj h).symm, fun h => h ▸ rfl⟩
  | record :: records, index, models => by
    rw [parseRecords, Results.bind_eq_ok_iff, List.forall₂_cons_left_iff]
    refine exists_congr fun m => ?_
    rw [Model.parse_eq_ok_iff, Results.bind_eq_ok_iff]
    constructor
    · rintro ⟨hm, rest, hrest, h⟩
      exact ⟨rest, hm, parseRecords_eq_ok_iff.mp hrest, (Except.ok.inj h).symm⟩
    · rintro ⟨rest, hm, hrest, rfl⟩
      exact ⟨hm, rest, parseRecords_eq_ok_iff.mpr hrest, rfl⟩

/-- Records are refused for the first one that is malformed. -/
theorem parseRecords_eq_error_iff {file : String} {problem : Problem} : ∀ {records : List Json} {index : Nat},
    parseRecords file index records = .error problem ↔ ∃ before record after, records = before ++ record :: after ∧
      (∀ r ∈ before, Model.failures r = []) ∧ Model.failures record ≠ [] ∧
      problem = .shape (recordSubject file (index + before.length)) (Model.failures record)
  | [], index => by simp [parseRecords]
  | record :: records, index => by
    rw [parseRecords, Results.bind_eq_error_iff, Model.parse_eq_error_iff]
    simp only [Model.parse_eq_ok_iff, Results.bind_eq_error_iff, @parseRecords_eq_error_iff file problem records]
    constructor
    · rintro (⟨hrecord, rfl⟩ | ⟨m, hm, ⟨before, bad, after, rfl, hbefore, hbad, rfl⟩ | ⟨rest, -, h⟩⟩)
      · exact ⟨[], record, records, rfl, by simp, hrecord, rfl⟩
      · refine ⟨record :: before, bad, after, rfl, ?_, hbad, ?_⟩
        · exact List.forall_mem_cons.mpr ⟨Model.failures_eq_nil_iff.mpr ⟨m, hm⟩, hbefore⟩
        · rw [List.length_cons, Nat.add_assoc, Nat.add_comm 1]
      · cases h
    · rintro ⟨before, bad, after, hsplit, hbefore, hbad, rfl⟩
      cases before with
      | nil =>
        obtain ⟨rfl, rfl⟩ := List.cons.inj hsplit
        exact .inl ⟨hbad, rfl⟩
      | cons first before =>
        obtain ⟨rfl, rfl⟩ := List.cons.inj hsplit
        obtain ⟨hfirst, hbefore⟩ := List.forall_mem_cons.mp hbefore
        obtain ⟨m, hm⟩ := Model.failures_eq_nil_iff.mp hfirst
        refine .inr ⟨m, hm, .inl ⟨before, bad, after, rfl, hbefore, hbad, ?_⟩⟩
        rw [List.length_cons, Nat.add_assoc, Nat.add_comm 1]

/-- The line about the number of models in a file. -/
def loadedLine (name : String) (number : Nat) : LogLine :=
  loadLine .info ("Loaded " ++ toString number ++ " data models from " ++ name)

/-- The line about a file whose value is not an array. -/
def skippedLine (file : String) : LogLine :=
  loadLine .warning ("Skipping " ++ file ++ ": top-level value is not an array")

/-- What a file of the directory at a path loads as, and the lines that are logged: the models of its records, nothing
where its value is not an array, or the fault of bytes that cannot be decoded or parsed and that of the first malformed
record. -/
inductive LoadsAs (p : Path) (f : NamedFile) : Except Fault (List Model) → List LogLine → Prop
  | undecoded {e : Fault} (hread : jsonOfBytes ("JSON in " ++ (p.child f.name).text) f.content = .error e) :
      LoadsAs p f (.error e) []
  | skipped {j : Json} (hread : jsonOfBytes ("JSON in " ++ (p.child f.name).text) f.content = .ok j)
      (harray : ∀ records, j ≠ .array records) :
      LoadsAs p f (.ok []) [skippedLine (p.child f.name).text, loadedLine f.name 0]
  | loaded {records : List Json} {models : List Model}
      (hread : jsonOfBytes ("JSON in " ++ (p.child f.name).text) f.content = .ok (.array records))
      (hmodels : List.Forall₂ (fun record m => m.DescribedBy record) records models) :
      LoadsAs p f (.ok models) [loadedLine f.name models.length]
  | malformed {before after : List Json} {record : Json}
      (hread : jsonOfBytes ("JSON in " ++ (p.child f.name).text) f.content = .ok (.array (before ++ record :: after)))
      (hbefore : ∀ r ∈ before, Model.failures r = []) (hrecord : Model.failures record ≠ []) :
      LoadsAs p f (.error (.problem (.shape (recordSubject (p.child f.name).text before.length)
        (Model.failures record)))) []

theorem readNamed_array {f : NamedFile} {records : List Json}
    (h : jsonOfBytes ("JSON in " ++ (p.child f.name).text) f.content = .ok (.array records)) :
    readNamed p f = .ofExcept ((parseRecords (p.child f.name).text 0 records).mapError .problem) := by
  rw [readNamed, h]
  rfl

theorem readNamed_other {f : NamedFile} {j : Json}
    (h : jsonOfBytes ("JSON in " ++ (p.child f.name).text) f.content = .ok j) (harray : ∀ records, j ≠ .array records) :
    readNamed p f = ⟨.ok [], [skippedLine (p.child f.name).text]⟩ := by
  rw [readNamed, h, Logged.ofExcept_ok_bind]
  split
  · exact absurd rfl (harray _)
  · rfl

theorem readNamed_error {f : NamedFile} {e : Fault}
    (h : jsonOfBytes ("JSON in " ++ (p.child f.name).text) f.content = .error e) : readNamed p f = ⟨.error e, []⟩ := by
  rw [readNamed, h]
  rfl

/-- Loading a file gives what the file loads as. -/
theorem LoadsAs.loadNamed_eq {f : NamedFile} {outcome : Except Fault (List Model)} {lines : List LogLine}
    (h : LoadsAs p f outcome lines) : loadNamed p f = ⟨outcome, lines⟩ := by
  unfold loadNamed
  cases h with
  | undecoded hread => rw [readNamed_error hread]; rfl
  | skipped hread harray => rw [readNamed_other hread harray]; rfl
  | loaded hread hmodels => rw [readNamed_array hread, parseRecords_eq_ok_iff.mpr hmodels]; rfl
  | malformed hread hbefore hrecord =>
    rw [readNamed_array hread, parseRecords_eq_error_iff.mpr ⟨_, _, _, rfl, hbefore, hrecord, rfl⟩, Nat.zero_add]
    rfl

/-- Every file loads as something, and a file that fails logs nothing. -/
theorem exists_loadsAs (p : Path) (f : NamedFile) :
    (∃ models lines, LoadsAs p f (.ok models) lines) ∨ ∃ e, LoadsAs p f (.error e) [] := by
  cases hread : jsonOfBytes ("JSON in " ++ (p.child f.name).text) f.content with
  | error e => exact .inr ⟨e, .undecoded hread⟩
  | ok j =>
    by_cases harray : ∃ records, j = .array records
    · obtain ⟨records, rfl⟩ := harray
      cases hrecords : parseRecords (p.child f.name).text 0 records with
      | ok models => exact .inl ⟨models, _, .loaded hread (parseRecords_eq_ok_iff.mp hrecords)⟩
      | error problem =>
        obtain ⟨before, record, after, rfl, hbefore, hrecord, -⟩ := parseRecords_eq_error_iff.mp hrecords
        exact .inr ⟨_, .malformed hread hbefore hrecord⟩
    · exact .inl ⟨[], _, .skipped hread fun records h => harray ⟨records, h⟩⟩

/-! ## The files in turn -/

/-- The files all load, each as the models and with the lines at its place. -/
abbrev AllLoad (p : Path) (files : List NamedFile) (loads : List (List Model × List LogLine)) : Prop :=
  List.Forall₂ (fun f x => LoadsAs p f (.ok x.1) x.2) files loads

/-- Files that all load give their models and their lines one after another. -/
theorem AllLoad.mapM_eq {files : List NamedFile} {loads : List (List Model × List LogLine)}
    (h : AllLoad p files loads) :
    files.mapM (loadNamed p) = ⟨.ok (loads.map Prod.fst), (loads.map Prod.snd).flatten⟩ := by
  induction h with
  | nil => rfl
  | cons hf _ ih =>
    rw [List.mapM_cons, hf.loadNamed_eq, ih]
    simp [bind, pure]

/-- The first file that fails ends the loading. -/
theorem AllLoad.mapM_append_eq {before : List NamedFile} {f : NamedFile} {e : Fault}
    {loads : List (List Model × List LogLine)} (h : AllLoad p before loads) (hf : LoadsAs p f (.error e) [])
    (after : List NamedFile) :
    (before ++ f :: after).mapM (loadNamed p) = ⟨.error e, (loads.map Prod.snd).flatten⟩ := by
  rw [List.mapM_append, h.mapM_eq, List.mapM_cons, hf.loadNamed_eq]
  simp [bind]

/-- Files load up to the end or up to the first that fails. -/
theorem allLoad_or_fails (p : Path) : ∀ files : List NamedFile,
    (∃ loads, AllLoad p files loads) ∨ ∃ before f after loads e, files = before ++ f :: after ∧
      AllLoad p before loads ∧ LoadsAs p f (.error e) []
  | [] => .inl ⟨[], .nil⟩
  | f :: files => by
    rcases exists_loadsAs p f with ⟨models, lines, hf⟩ | ⟨e, hf⟩
    · rcases allLoad_or_fails p files with ⟨loads, h⟩ | ⟨before, g, after, loads, e, rfl, hbefore, hg⟩
      · exact .inl ⟨(models, lines) :: loads, .cons hf h⟩
      · exact .inr ⟨f :: before, g, after, (models, lines) :: loads, e, rfl, .cons hf hbefore, hg⟩
    · exact .inr ⟨[], f, files, [], e, rfl, .nil, hf⟩

/-! ## Directories -/

theorem follow_congr {d' : Disk} (h : d.at? = d'.at?) : ∀ (here : Location) (parts : List String),
    d.follow here parts = d'.follow here parts
  | here, [] => by rw [follow, follow]
  | here, part :: parts => by
    have ih := fun here => follow_congr h here parts
    rw [follow, follow, h]
    simp only [ih]

/-- A path leads to the same directory on a disk with the same things at the same places. -/
theorem DirectoryAt.congr {d' : Disk} (h : d.DirectoryAt p l) (hat : d.at? = d'.at?)
    (hhere : d.workingDirectory = d'.workingDirectory) : d'.DirectoryAt p l where
  no_null := h.no_null
  located := by
    rw [← h.located, locate, locate, base, base, hhere, follow_congr hat]
  is_directory := hat ▸ h.is_directory
  named := hat ▸ h.named

theorem DirectoryAt.loadDirectory_of_files (h : d.DirectoryAt p l) {files : List NamedFile}
    (hfiles : d.JsonFilesOf l files) : d.loadDirectory p = List.flatten <$> files.mapM (loadNamed p) := by
  rw [h.loadDirectory_eq, hfiles.unique (d.jsonFilesOf_jsonFiles l)]

/-- Files that all load are all that the directory loads as. -/
theorem DirectoryAt.loadDirectory_of_loads (h : d.DirectoryAt p l) {files : List NamedFile}
    (hfiles : d.JsonFilesOf l files) {loads : List (List Model × List LogLine)} (hloads : AllLoad p files loads) :
    d.loadDirectory p = ⟨.ok (loads.map Prod.fst).flatten, (loads.map Prod.snd).flatten⟩ := by
  rw [h.loadDirectory_of_files hfiles, hloads.mapM_eq]
  simp [Functor.map]

/-- The first file that fails is what the directory fails for, whatever comes after it. -/
theorem DirectoryAt.loadDirectory_of_fails (h : d.DirectoryAt p l) {before after : List NamedFile} {f : NamedFile}
    (hfiles : d.JsonFilesOf l (before ++ f :: after)) {loads : List (List Model × List LogLine)}
    (hbefore : AllLoad p before loads) {e : Fault} (hf : LoadsAs p f (.error e) []) :
    d.loadDirectory p = ⟨.error e, (loads.map Prod.snd).flatten⟩ := by
  rw [h.loadDirectory_of_files hfiles, hbefore.mapM_append_eq hf]
  rfl

/-- A directory fails to load just where a file does after files that all load. -/
theorem DirectoryAt.loadDirectory_eq_error_iff (h : d.DirectoryAt p l) {e : Fault} :
    (d.loadDirectory p).result = .error e ↔ ∃ before f after loads, d.JsonFilesOf l (before ++ f :: after) ∧
      AllLoad p before loads ∧ LoadsAs p f (.error e) [] := by
  constructor
  · intro he
    have hfiles := d.jsonFilesOf_jsonFiles l
    rcases allLoad_or_fails p (d.jsonFiles l) with ⟨loads, hloads⟩ | ⟨before, f, after, loads, e, hsplit, hbefore, hf⟩
    · rw [h.loadDirectory_of_loads hfiles hloads] at he
      cases he
    · rw [h.loadDirectory_of_fails (hsplit ▸ hfiles) hbefore hf] at he
      obtain rfl := Except.error.inj he
      exact ⟨before, f, after, loads, hsplit ▸ hfiles, hbefore, hf⟩
  · rintro ⟨before, f, after, loads, hfiles, hbefore, hf⟩
    rw [h.loadDirectory_of_fails hfiles hbefore hf]

/-- The order in which a disk lists its entries is not seen in what a directory loads as. -/
theorem DirectoryAt.loadDirectory_perm {d' : Disk} (h : d.DirectoryAt p l)
    (hentries : d.entries.items.Perm d'.entries.items) (hhere : d.workingDirectory = d'.workingDirectory) :
    d'.loadDirectory p = d.loadDirectory p := by
  have hat : d.at? = d'.at? := by
    funext l
    rw [at?, at?, Keyed.get?_congr hentries]
  have hfiles : d'.JsonFilesOf l (d.jsonFiles l) :=
    { ordered := (d.jsonFilesOf_jsonFiles l).ordered
      mem_iff := hat ▸ (d.jsonFilesOf_jsonFiles l).mem_iff }
  rw [(h.congr hat hhere).loadDirectory_of_files hfiles, h.loadDirectory_eq]

/-- A directory loads as its files with the extension `.json` in the order of their names, in whatever order the disk
lists its entries: as all their models, or as the first of them that fails, with nothing of the files after it. -/
theorem loadDirectory_outcome (h : d.DirectoryAt p l) :
    (∀ d' : Disk, d.entries.items.Perm d'.entries.items → d.workingDirectory = d'.workingDirectory →
      d'.loadDirectory p = d.loadDirectory p) ∧
    (∃ files, d.JsonFilesOf l files ∧
      ((∃ loads, AllLoad p files loads ∧
          d.loadDirectory p = ⟨.ok (loads.map Prod.fst).flatten, (loads.map Prod.snd).flatten⟩) ∨
        ∃ before f after loads e, files = before ++ f :: after ∧ AllLoad p before loads ∧
          LoadsAs p f (.error e) [] ∧ d.loadDirectory p = ⟨.error e, (loads.map Prod.snd).flatten⟩)) ∧
    ∀ before f after e, d.JsonFilesOf l (before ++ f :: after) → LoadsAs p f (.error e) [] →
      ∀ d' l' after', DirectoryAt d' p l' → d'.JsonFilesOf l' (before ++ f :: after') →
        d'.loadDirectory p = d.loadDirectory p := by
  refine ⟨fun d' hentries hhere => h.loadDirectory_perm hentries hhere, ?_, ?_⟩
  · have hfiles := d.jsonFilesOf_jsonFiles l
    refine ⟨d.jsonFiles l, hfiles, ?_⟩
    rcases allLoad_or_fails p (d.jsonFiles l) with ⟨loads, hloads⟩ | ⟨before, f, after, loads, e, hsplit, hbefore, hf⟩
    · exact .inl ⟨loads, hloads, h.loadDirectory_of_loads hfiles hloads⟩
    · exact .inr ⟨before, f, after, loads, e, hsplit, hbefore, hf,
        h.loadDirectory_of_fails (hsplit ▸ hfiles) hbefore hf⟩
  · intro before f after e hfiles hf d' l' after' h' hfiles'
    rw [h.loadDirectory_of_files hfiles, h'.loadDirectory_of_files hfiles', List.mapM_append, List.mapM_append,
      List.mapM_cons, List.mapM_cons, hf.loadNamed_eq]
    rfl

end Disk

namespace Sample

/-- A text with the record of a model, and what follows it. -/
def recordThen (after : String) : String := "[\x7b\"name\":\"A\",\"memberVariables\":\x7b\x7d\x7d" ++ after

/-- A directory of models that is not listed in the order of the names. -/
def unsorted : Disk :=
  ⟨⟨[⟨["models"], .directory⟩, ⟨["models", "d.json"], .file "[".toUTF8⟩,
      ⟨["models", "b.json"], .file (recordThen ",1]").toUTF8⟩, ⟨["models", "notes.txt"], .file "[".toUTF8⟩,
      ⟨["models", "a.json"], .file (recordThen "]").toUTF8⟩, ⟨["models", "c.json"], .directory⟩],
    by simp⟩, []⟩

theorem jsonFiles_unsorted : unsorted.jsonFiles ["models"] =
    [⟨"a.json", (recordThen "]").toUTF8⟩, ⟨"b.json", (recordThen ",1]").toUTF8⟩, ⟨"d.json", "[".toUTF8⟩] := by
  have hnames : (unsorted.namesIn ["models"]).mergeSort (· ≤ ·) =
      ["a.json", "b.json", "c.json", "d.json", "notes.txt"] := by
    have hperm : (unsorted.namesIn ["models"]).Perm ["a.json", "b.json", "c.json", "d.json", "notes.txt"] := by decide
    exact ((List.mergeSort_perm _ _).trans hperm).eq_of_pairwise' (List.pairwise_mergeSort' _ _) (by decide)
  rw [Disk.jsonFiles, hnames]
  rfl

theorem directoryAt_unsorted : unsorted.DirectoryAt (.ofText "models") ["models"] := by
  have hnames : ∀ name ∈ unsorted.namesIn ["models"], name ≠ ".." ∧ '\x00' ∉ name.toList ∧
      name.utf8ByteSize ≤ Disk.maxNameBytes := by decide
  refine ⟨rfl, rfl, rfl, fun name hname => ?_⟩
  obtain ⟨hup, hnull, hshort⟩ := hnames name (Disk.mem_namesIn.mpr hname)
  exact ⟨hup, hnull, hshort⟩

end Sample

open Sample in
theorem Disk.loadDirectory_outcome_unsorted :
    unsorted.DirectoryAt (.ofText "models") ["models"] ∧
    ∀ d : Disk, unsorted.entries.items.Perm d.entries.items → unsorted.workingDirectory = d.workingDirectory →
      (d.loadDirectory (.ofText "models")).result =
        .error (.problem (.shape "data model models/b.json[1]" ["root"])) ∧
      (d.loadDirectory (.ofText "models")).log = [loadedLine "a.json" 1] := by
  refine ⟨directoryAt_unsorted, fun d hperm hhere => ?_⟩
  rw [(loadDirectory_outcome directoryAt_unsorted).1 d hperm hhere, directoryAt_unsorted.loadDirectory_eq,
    jsonFiles_unsorted]
  exact ⟨by decide +kernel, by decide +kernel⟩

end ModelCompiler
