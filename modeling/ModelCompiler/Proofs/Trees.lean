import ModelCompiler.Disk
import ModelCompiler.Proofs.Results
import ModelCompiler.Proofs.Texts

/-!
# Directory trees

A disk is a tree when everything on it is in a directory and no name has a slash (`Disk.IsTree`). On a tree a path that
can be followed leads where its parts say, through directories only (`IsTree.follow`, `IsTree.locate`).

* **One step**: making a directory and writing a file put one node where no directory was, into a directory that is
  there, and leave a tree (`makeDirectory_eq_ok`, `writeFile_eq_ok`, `IsTree.put`).
* **A whole path** (`IsTree.makeDirectories`): making a directory with those above it leaves the disk with a directory
  at each location on the way and with everything else as it was.
-/

namespace ModelCompiler

/-! ## Parts of paths -/

namespace Path

/-- No part of the path has a slash. -/
def Plain (p : Path) : Prop := ∀ part ∈ p.parts, '/' ∉ part.toList

/-- The parts of the path that a text names have no slashes. -/
theorem plain_ofText (s : String) : (ofText s).Plain := by
  intro part hpart
  obtain ⟨t, ht, rfl⟩ := List.mem_map.mp (List.mem_filter.mp hpart).1
  rw [String.toList_ofList]
  exact not_mem_of_mem_splitOn ht

/-- A file name without a slash is a path of one part. -/
theorem ofText_of_not_mem {s : String} (h : '/' ∉ s.toList) (he : s ≠ "") (hd : s ≠ ".") :
    ofText s = ⟨.workingDirectory, [s]⟩ := by
  have hslashes : s.toList.takeWhile (· = '/') = [] := by
    cases hs : s.toList with
    | nil => rfl
    | cons c cs =>
      have hc : c ≠ '/' := fun hc => h (by simp [hs, hc])
      simp [hc]
  simp [ofText, hslashes, Start.ofSlashes, List.splitOn_eq_singleton h, he, hd]

theorem Plain.parent {p : Path} (h : p.Plain) : p.parent.Plain :=
  fun part hpart => h part (List.dropLast_subset p.parts hpart)

theorem Plain.join {p q : Path} (hp : p.Plain) (hq : q.Plain) : (p.join q).Plain := by
  unfold Path.join
  split
  · exact hq
  · intro part hpart
    rcases List.mem_append.mp hpart with h | h
    · exact hp part h
    · exact hq part h

end Path

namespace Disk

/-! ## Where paths lead -/

/-- Where a part leads from a location. -/
def partFrom (here : Location) (part : String) : Location := if part = ".." then here.dropLast else here ++ [part]

/-- Where parts lead from a location, whatever is on the disk. -/
def leadFrom (here : Location) (parts : List String) : Location := parts.foldl partFrom here

/-- The locations that parts lead through, the last one included. -/
def wayFrom : Location → List String → List Location
  | _, [] => []
  | here, part :: parts => partFrom here part :: wayFrom (partFrom here part) parts

/-- Where a path leads. -/
def destination (d : Disk) (p : Path) : Location := leadFrom (d.base p) p.parts

/-- The locations that a path leads through, its destination included. -/
def way (d : Disk) (p : Path) : List Location := wayFrom (d.base p) p.parts

/-- Where a path leads depends on the working directory alone. -/
theorem destination_congr {d d' : Disk} (h : d'.workingDirectory = d.workingDirectory) (p : Path) :
    d'.destination p = d.destination p := by
  rw [destination, destination, Disk.base, Disk.base, h]

theorem leadFrom_concat (here : Location) (parts : List String) (last : String) :
    leadFrom here (parts ++ [last]) = partFrom (leadFrom here parts) last := by
  simp [leadFrom]

theorem wayFrom_concat (last : String) : ∀ (here : Location) (parts : List String),
    wayFrom here (parts ++ [last]) = wayFrom here parts ++ [leadFrom here (parts ++ [last])]
  | _, [] => rfl
  | here, part :: parts => congrArg (partFrom here part :: ·) (wayFrom_concat last (partFrom here part) parts)

/-- The way to a path is the way to the directory that it is in, and then its destination. -/
theorem way_eq (d : Disk) {p : Path} (h : p.parts ≠ []) : d.way p = d.way p.parent ++ [d.destination p] := by
  have hparts := List.dropLast_append_getLast h
  calc d.way p = wayFrom (d.base p) (p.parts.dropLast ++ [p.parts.getLast h]) := by rw [hparts, way]
    _ = wayFrom (d.base p) p.parts.dropLast ++ [leadFrom (d.base p) (p.parts.dropLast ++ [p.parts.getLast h])] :=
      wayFrom_concat ..
    _ = d.way p.parent ++ [d.destination p] := by rw [hparts]; rfl

theorem mem_leadFrom {name : String} : ∀ {parts : List String} {here : Location}, name ∈ leadFrom here parts →
    name ∈ here ∨ name ∈ parts
  | [], _, h => .inl h
  | part :: parts, here, h => by
    have hrest : name ∈ leadFrom (partFrom here part) parts := h
    rcases mem_leadFrom hrest with h | h
    · unfold partFrom at h
      split at h
      · exact .inl (List.dropLast_subset here h)
      · rcases List.mem_append.mp h with h | h
        · exact .inl h
        · exact .inr (List.mem_singleton.mp h ▸ List.mem_cons_self)
    · exact .inr (List.mem_cons_of_mem _ h)

/-- The location of a path, where the directory that it is in can be followed. -/
theorem locate_eq_ok {d : Disk} {p : Path} {l : Location} (h : d.locate p = .ok l) :
    ∃ parent, d.follow (d.base p) p.parts.dropLast = .ok parent ∧ l = match p.parts.getLast? with
      | none => parent
      | some last => partFrom parent last := by
  obtain ⟨parent, hparent, h⟩ := Results.bind_eq_ok_iff.mp h
  refine ⟨parent, hparent, ?_⟩
  cases hlast : p.parts.getLast? with
  | none =>
    rw [hlast] at h
    exact (Except.ok.inj h).symm
  | some last =>
    simp only [hlast] at h
    simp only [partFrom]
    split at h
    · rename_i hup
      rw [if_pos hup]
      exact (Except.ok.inj h).symm
    · rename_i hup
      rw [if_neg hup]
      split at h
      · cases h
      · exact (Except.ok.inj h).symm

/-! ## Trees -/

/-- Everything is in a directory, the working directory is one, and no name has a slash. -/
structure IsTree (d : Disk) : Prop where
  above : ∀ l node, d.at? l = some node → d.at? l.dropLast = some .directory
  here : d.at? d.workingDirectory = some .directory
  names : ∀ l node, d.at? l = some node → ∀ name ∈ l, '/' ∉ name.toList

variable {d : Disk}

theorem at?_root (d : Disk) : d.at? [] = some .directory := if_pos rfl

/-- A disk is a tree when each of its entries is in a directory. -/
theorem isTree_of_entries (habove : ∀ e ∈ d.entries.items, d.at? e.location.dropLast = some .directory)
    (hhere : d.at? d.workingDirectory = some .directory)
    (hnames : ∀ e ∈ d.entries.items, ∀ name ∈ e.location, '/' ∉ name.toList) : d.IsTree := by
  have hentry : ∀ l node, d.at? l = some node → l = [] ∨ ∃ e ∈ d.entries.items, e.location = l := by
    intro l node h
    unfold at? at h
    split at h
    · exact .inl ‹_›
    · obtain ⟨e, he, -⟩ := Option.map_eq_some_iff.mp h
      exact .inr ⟨e, List.mem_of_find?_eq_some he, by simpa using List.find?_some he⟩
  refine ⟨fun l node h => ?_, hhere, fun l node h => ?_⟩
  · rcases hentry l node h with rfl | ⟨e, he, rfl⟩
    · exact d.at?_root
    · exact habove e he
  · rcases hentry l node h with rfl | ⟨e, he, rfl⟩
    · simp
    · exact hnames e he

theorem IsTree.base (ht : d.IsTree) (p : Path) : d.at? (d.base p) = some .directory := by
  unfold Disk.base
  split
  · exact d.at?_root
  · exact ht.here

/-- Parts that can be followed lead through directories to where they say. -/
theorem IsTree.follow (ht : d.IsTree) : ∀ {parts : List String} {here l : Location},
    d.at? here = some .directory → d.follow here parts = .ok l →
      l = leadFrom here parts ∧ d.at? l = some .directory ∧ ∀ k ∈ wayFrom here parts, d.at? k = some .directory
  | [], here, l, hd, h => by
    obtain rfl := Except.ok.inj h
    exact ⟨rfl, hd, by simp [wayFrom]⟩
  | part :: parts, here, l, hd, h => by
    have hnext : d.at? (partFrom here part) = some .directory ∧ d.follow (partFrom here part) parts = .ok l := by
      unfold partFrom
      rw [Disk.follow] at h
      split at h
      · rename_i hup
        rw [if_pos hup]
        exact ⟨ht.above here _ hd, h⟩
      · rename_i hup
        rw [if_neg hup]
        split at h
        · cases h
        · split at h
          · cases h
          · cases h
          · exact ⟨‹_›, h⟩
    obtain ⟨hl, hld, hway⟩ := ht.follow hnext.1 hnext.2
    exact ⟨hl, hld, List.forall_mem_cons.mpr ⟨hnext.1, hway⟩⟩

/-- A path that can be located leads to its destination, through directories up to the last part. -/
theorem IsTree.locate (ht : d.IsTree) {p : Path} {l : Location} (h : d.locate p = .ok l) :
    l = d.destination p ∧ d.at? l.dropLast = some .directory ∧ ∀ k ∈ d.way p.parent, d.at? k = some .directory := by
  obtain ⟨parent, hfollow, rfl⟩ := locate_eq_ok h
  obtain ⟨rfl, hparent, hway⟩ := ht.follow (ht.base p) hfollow
  have habove := ht.above _ _ hparent
  cases hlast : p.parts.getLast? with
  | none =>
    have hparts : p.parts = [] := List.getLast?_eq_none_iff.mp hlast
    refine ⟨?_, habove, hway⟩
    rw [destination, hparts]
    rfl
  | some last =>
    obtain ⟨parts, hparts⟩ := List.getLast?_eq_some_iff.mp hlast
    refine ⟨?_, ?_, hway⟩
    · rw [destination, hparts, leadFrom_concat, List.dropLast_concat]
    · simp only [partFrom]
      split
      · exact ht.above _ _ habove
      · rwa [List.dropLast_concat]

theorem IsTree.names_destination (ht : d.IsTree) {p : Path} (hp : p.Plain) :
    ∀ name ∈ d.destination p, '/' ∉ name.toList := by
  intro name hname
  rcases mem_leadFrom hname with h | h
  · exact ht.names _ _ (ht.base p) name h
  · exact hp name h

/-! ## One step -/

/-- What is put where no directory was leaves the directories. -/
theorem at?_put_of_directory {l k : Location} {node : Node} (hfree : d.at? l ≠ some .directory)
    (hk : d.at? k = some .directory) : (d.put l node).at? k = some .directory := by
  have hroot : l ≠ [] := fun h => hfree (h ▸ d.at?_root)
  have hne : k ≠ l := fun h => hfree (h ▸ hk)
  rw [at?_put d hroot, if_neg hne, hk]

/-- What is put into a directory where no directory was leaves a tree. -/
theorem IsTree.put (ht : d.IsTree) {l : Location} {node : Node} (hfree : d.at? l ≠ some .directory)
    (habove : d.at? l.dropLast = some .directory) (hnames : ∀ name ∈ l, '/' ∉ name.toList) : (d.put l node).IsTree := by
  have hroot : l ≠ [] := fun h => hfree (h ▸ d.at?_root)
  refine ⟨fun k n hk => at?_put_of_directory hfree ?_, at?_put_of_directory hfree ht.here, fun k n hk => ?_⟩
  all_goals
    rw [at?_put d hroot] at hk
    split at hk
  · rename_i hkl
    rwa [hkl]
  · exact ht.above k n hk
  · rename_i hkl
    rwa [hkl]
  · exact ht.names k n hk

theorem onPath_eq_ok {α : Type} {p : Path} {outcome : Except Refusal α} {a : α} (h : onPath p outcome = .ok a) :
    outcome = .ok a := by
  unfold onPath at h
  split at h
  · cases h
  · exact Results.mapError_eq_ok_iff.mp h

theorem makeDirectory_eq_ok {p : Path} {d' : Disk} (h : d.makeDirectory p = .ok d') :
    ∃ l, d.locate p = .ok l ∧ d.at? l = none ∧ d' = d.put l .directory := by
  obtain ⟨l, hl, h⟩ := Results.bind_eq_ok_iff.mp (onPath_eq_ok h)
  refine ⟨l, hl, ?_⟩
  split at h
  · cases h
  · rename_i hnone
    exact ⟨by simpa using hnone, (Except.ok.inj h).symm⟩

theorem writeFile_eq_ok {p : Path} {content : ByteArray} {d' : Disk} (h : d.writeFile p content = .ok d') :
    ∃ l, d.locate p = .ok l ∧ d.at? l ≠ some .directory ∧ d' = d.put l (.file content) := by
  obtain ⟨l, hl, h⟩ := Results.bind_eq_ok_iff.mp (onPath_eq_ok h)
  refine ⟨l, hl, ?_⟩
  split at h
  · cases h
  · rename_i hdir
    exact ⟨hdir, (Except.ok.inj h).symm⟩

theorem look_eq_directory {p : Path} (h : d.look p = .ok (some .directory)) :
    ∃ l, d.locate p = .ok l ∧ d.at? l = some .directory := by
  unfold look at h
  split at h
  · cases h
  · split at h
    · rename_i l hl
      exact ⟨l, hl, Except.ok.inj h⟩
    · cases h
    · cases h

theorem admitExisting_eq_ok {p : Path} {e : Fault} (h : d.admitExisting p e = .ok ()) :
    d.look p = .ok (some .directory) := by
  unfold admitExisting at h
  split at h
  · cases h
  · obtain ⟨node, hnode, h⟩ := Results.bind_eq_ok_iff.mp h
    split at h
    · exact hnode
    · cases h
  · cases h

/-! ## Directories with those above them -/

/-- The tree `d'` is `d` with directories at the locations `made`, where nothing else was. -/
structure Extends (d d' : Disk) (made : List Location) : Prop where
  tree : d'.IsTree
  workingDirectory_eq : d'.workingDirectory = d.workingDirectory
  at?_eq : ∀ l, d'.at? l = if l ∈ made then some .directory else d.at? l
  free : ∀ l ∈ made, d.at? l = none ∨ d.at? l = some .directory

theorem IsTree.extends (ht : d.IsTree) {made : List Location} (h : ∀ l ∈ made, d.at? l = some .directory) :
    d.Extends d made := by
  refine ⟨ht, rfl, fun l => ?_, fun l hl => .inr (h l hl)⟩
  split
  · exact h l ‹_›
  · rfl

/-- One more location, where nothing but a directory was and where there is a directory now. -/
theorem Extends.concat {d' d'' : Disk} {made : List Location} {l : Location} (h : d.Extends d' made)
    (ht : d''.IsTree) (hhere : d''.workingDirectory = d'.workingDirectory) (hl : d''.at? l = some .directory)
    (hother : ∀ k, k ≠ l → d''.at? k = d'.at? k) (hfree : d'.at? l = none ∨ d'.at? l = some .directory) :
    d.Extends d'' (made ++ [l]) := by
  refine ⟨ht, hhere.trans h.workingDirectory_eq, fun k => ?_, fun k hk => ?_⟩
  · by_cases hk : k = l
    · simp [hk, hl]
    · rw [hother k hk, h.at?_eq k]
      simp [hk]
  · rcases List.mem_append.mp hk with hk | hk
    · exact h.free k hk
    · obtain rfl := List.mem_singleton.mp hk
      rw [h.at?_eq k] at hfree
      split at hfree
      · exact h.free k ‹_›
      · exact hfree

theorem makeDirectory_root {p : Path} (ht : d.IsTree) (hp : p.parts = []) {d' : Disk} :
    d.makeDirectory p ≠ .ok d' := by
  intro h
  obtain ⟨l, hl, hnone, -⟩ := makeDirectory_eq_ok h
  obtain ⟨rfl, -⟩ := ht.locate hl
  rw [destination, hp, leadFrom, List.foldl_nil, ht.base p] at hnone
  cases hnone

/-- Making a directory adds the end of its way to the locations made on the way to it. -/
theorem Extends.makeDirectory {d' d'' : Disk} {p : Path} (hp : p.Plain) (h : d.Extends d' (d.way p.parent))
    (hmake : d'.makeDirectory p = .ok d'') : d.Extends d'' (d.way p) := by
  have hparts : p.parts ≠ [] := fun he => makeDirectory_root h.tree he hmake
  obtain ⟨l, hl, hnone, rfl⟩ := makeDirectory_eq_ok hmake
  obtain ⟨rfl, habove, -⟩ := h.tree.locate hl
  have hfree : d'.at? (d'.destination p) ≠ some .directory := by simp [hnone]
  have hroot : d'.destination p ≠ [] := fun he => hfree (he ▸ d'.at?_root)
  rw [way_eq d hparts, ← destination_congr h.workingDirectory_eq]
  refine h.concat (h.tree.put hfree habove (h.tree.names_destination hp)) rfl ?_ (fun k hk => ?_) (.inl hnone)
  · rw [at?_put d' hroot, if_pos rfl]
  · rw [at?_put d' hroot, if_neg hk]

/-- A directory that is there already is the end of its way. -/
theorem Extends.concat_existing {d' : Disk} {p : Path} {e : Fault} (hparts : p.parts ≠ [])
    (h : d.Extends d' (d.way p.parent)) (hthere : d'.admitExisting p e = .ok ()) : d.Extends d' (d.way p) := by
  obtain ⟨l, hl, hdir⟩ := look_eq_directory (admitExisting_eq_ok hthere)
  obtain ⟨rfl, -⟩ := h.tree.locate hl
  rw [way_eq d hparts, ← destination_congr h.workingDirectory_eq]
  exact h.concat h.tree rfl hdir (fun _ _ => rfl) (.inr hdir)

/-- Making a directory with those above it leaves a directory at each location on the way, where nothing else was, and
leaves everything else. -/
theorem IsTree.makeDirectories {d d' : Disk} (ht : d.IsTree) {p : Path} (hp : p.Plain)
    (h : d.makeDirectories p = (d', .ok ())) : d.Extends d' (d.way p) := by
  fun_induction Disk.makeDirectories d p generalizing d' with
  | case1 p d₁ hmake =>
    obtain ⟨rfl, -⟩ := Prod.mk.inj h
    obtain ⟨l, hl, -⟩ := makeDirectory_eq_ok hmake
    exact (ht.extends (ht.locate hl).2.2).makeDirectory hp hmake
  | case2 => cases h
  | case3 => cases h
  | case4 p path hmissing hparts d₁ hparent d₂ hmake ih =>
    obtain ⟨rfl, -⟩ := Prod.mk.inj h
    exact (ih hp.parent hparent).makeDirectory hp hmake
  | case5 p path hmissing hparts d₁ hparent e hmake ih =>
    obtain ⟨rfl, hthere⟩ := Prod.mk.inj h
    exact (ih hp.parent hparent).concat_existing hparts hthere
  | case6 p e hmake hother =>
    obtain ⟨rfl, hthere⟩ := Prod.mk.inj h
    obtain ⟨l, hl, -⟩ := look_eq_directory (admitExisting_eq_ok hthere)
    by_cases hparts : p.parts = []
    · exact ht.extends (by simp [way, hparts, wayFrom])
    · exact (ht.extends (ht.locate hl).2.2).concat_existing hparts hthere

end Disk

end ModelCompiler
