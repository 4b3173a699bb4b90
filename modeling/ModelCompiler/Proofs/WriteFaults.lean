import ModelCompiler.Proofs.Directories
import ModelCompiler.Proofs.Persistence

/-!
# What writing fails for

An operation on a path fails for the character of code zero in the path, or it is refused by the disk
(`NullOrRefused`). So is making a directory with those above it (`makeDirectories_fault`), as the path of a directory
above has no character that the path itself has not.

Files are written one after another (`writeEach_eq_null_iff`), so writing fails for that character exactly when it is in
the path of the output directory, or in the path of a file before which every file is written
(`writeFiles_eq_null_iff`).
-/

namespace ModelCompiler

/-! ## Paths with the character of code zero -/

theorem Path.mem_parts_ofText {c : Char} {s : String} (hslash : c ≠ '/') (hdot : c ≠ '.') :
    (∃ part ∈ (ofText s).parts, c ∈ part.toList) ↔ c ∈ s.toList := by
  have hsplit : c ∈ s.toList ↔ ∃ part ∈ s.toList.splitOn '/', c ∈ part := by
    rw [← mem_intercalate_singleton hslash, List.intercalate_splitOn]
  rw [hsplit]
  constructor
  · rintro ⟨part, hpart, hc⟩
    obtain ⟨t, ht, rfl⟩ := List.mem_map.mp (List.mem_filter.mp hpart).1
    exact ⟨t, ht, by simpa using hc⟩
  · rintro ⟨t, ht, hc⟩
    refine ⟨String.ofList t, List.mem_filter.mpr ⟨List.mem_map_of_mem ht, ?_⟩, by simpa using hc⟩
    have hne : ∀ s : String, c ∉ s.toList → String.ofList t ≠ s := by
      rintro s hs rfl
      exact hs (by simpa using hc)
    simp [hne "" (by simp), hne "." (by simpa using hdot)]

namespace Disk

variable {d : Disk} {p : Path}

theorem hasNull_ofText_iff {s : String} : hasNull (.ofText s) = true ↔ '\x00' ∈ s.toList := by
  rw [hasNull_iff, Path.mem_parts_ofText (by decide) (by decide)]

theorem hasNull_of_parent (h : hasNull p.parent = true) : hasNull p = true := by
  obtain ⟨part, hpart, hnull⟩ := hasNull_iff.mp h
  exact hasNull_iff.mpr ⟨part, List.dropLast_subset p.parts hpart, hnull⟩

/-- In a directory without the character in its path, it is in the path of a file when it is in the name. -/
theorem hasNull_join_iff {s : String} (hp : hasNull p ≠ true) :
    hasNull (p.join (.ofText s)) = true ↔ '\x00' ∈ s.toList := by
  rw [← hasNull_ofText_iff]
  unfold Path.join
  split
  · exact Iff.rfl
  · rw [hasNull_iff, hasNull_iff]
    constructor
    · rintro ⟨part, hpart, hnull⟩
      rcases List.mem_append.mp hpart with h | h
      · exact absurd (hasNull_iff.mpr ⟨part, h, hnull⟩) hp
      · exact ⟨part, h, hnull⟩
    · rintro ⟨part, hpart, hnull⟩
      exact ⟨part, List.mem_append_right _ hpart, hnull⟩

/-! ## Operations on paths -/

/-- A fault that is a refusal of the disk. -/
def IsRefused (e : Fault) : Prop := ∃ why path, e = .refused why path

/-- What an operation on a path fails with: the character in the path, or a refusal. -/
structure NullOrRefused (null : Prop) (e : Fault) : Prop where
  null_iff : e = .nullInPath ↔ null
  refused : ¬null → IsRefused e

theorem onPath_fault {α : Type} {outcome : Except Refusal α} {e : Fault} (h : onPath p outcome = .error e) :
    NullOrRefused (hasNull p = true) e := by
  unfold onPath at h
  split at h
  · rename_i hnull
    obtain rfl := Except.error.inj h
    exact ⟨iff_of_true rfl hnull, fun hp => absurd hnull hp⟩
  · rename_i hnull
    cases houtcome : outcome with
    | ok a =>
      rw [houtcome] at h
      cases h
    | error why =>
      rw [houtcome] at h
      obtain rfl := Except.error.inj h
      exact ⟨iff_of_false nofun hnull, fun _ => ⟨why, p.text, rfl⟩⟩

theorem look_fault {e : Fault} (h : d.look p = .error e) : IsRefused e := by
  unfold look at h
  split at h
  · cases h
  · split at h
    · cases h
    · exact ⟨_, _, (Except.error.inj h).symm⟩
    · cases h

theorem admitExisting_fault {e e' : Fault} (he : IsRefused e) (h : d.admitExisting p e = .error e') : IsRefused e' := by
  obtain ⟨why, path, rfl⟩ := he
  unfold admitExisting at h
  split at h
  · exact ⟨_, _, (Except.error.inj h).symm⟩
  · rcases Results.bind_eq_error_iff.mp h with h | ⟨node, -, h⟩
    · exact look_fault h
    · split at h
      · cases h
      · exact ⟨_, _, (Except.error.inj h).symm⟩
  · rename_i hother
    exact absurd rfl (hother _ _)

theorem IsRefused.nullOrRefused {e : Fault} (he : IsRefused e) {null : Prop} (h : ¬null) : NullOrRefused null e := by
  obtain ⟨why, path, rfl⟩ := he
  exact ⟨iff_of_false nofun h, fun _ => ⟨why, path, rfl⟩⟩

/-! ## Making directories -/

theorem makeDirectory_fault {e : Fault} (h : d.makeDirectory p = .error e) : NullOrRefused (hasNull p = true) e :=
  onPath_fault h

/-- A directory that cannot be made may be there, unless the disk says that something above it is missing. -/
theorem admitExisting_of_makeDirectory {e e' : Fault} (h : d.makeDirectory p = .error e)
    (h' : d.admitExisting p e = .error e') : NullOrRefused (hasNull p = true) e' := by
  have he := makeDirectory_fault h
  by_cases hnull : hasNull p = true
  · obtain rfl := he.null_iff.mpr hnull
    obtain rfl := Except.error.inj h'
    exact he
  · exact (admitExisting_fault (he.refused hnull) h').nullOrRefused hnull

theorem makeDirectories_fault {e : Fault} (h : (d.makeDirectories p).2 = .error e) :
    NullOrRefused (hasNull p = true) e := by
  fun_induction Disk.makeDirectories d p with
  | case1 p d' hmake => cases h
  | case2 p path hmake hparts =>
    obtain rfl := Except.error.inj h
    exact makeDirectory_fault hmake
  | case3 p path hmake hparts d' e' hmade ih =>
    obtain rfl := Except.error.inj h
    have hnull : hasNull p ≠ true := by
      intro hp
      cases (makeDirectory_fault hmake).null_iff.mpr hp
    have he := ih (congrArg Prod.snd hmade)
    exact (he.refused fun hparent => hnull (hasNull_of_parent hparent)).nullOrRefused hnull
  | case4 => cases h
  | case5 p path hmake hparts d' hmade e' hagain ih => exact admitExisting_of_makeDirectory hagain h
  | case6 p e' hne hmake => exact admitExisting_of_makeDirectory hmake h

/-- The character is in the path just when making the directory fails for it. -/
theorem makeDirectories_eq_null_iff : (d.makeDirectories p).2 = .error .nullInPath ↔ hasNull p = true := by
  refine ⟨fun h => (makeDirectories_fault h).null_iff.mp rfl, fun h => ?_⟩
  have hmake : d.makeDirectory p = .error .nullInPath := if_pos h
  rw [makeDirectories, hmake]
  rfl

/-! ## Writing files -/

theorem writeFile_fault {content : ByteArray} {e : Fault} (h : d.writeFile p content = .error e) :
    NullOrRefused (hasNull p = true) e := onPath_fault h

theorem writeEach_fault {out : Path} {e : Fault} : ∀ {files : List SourceFile} {d : Disk},
    (d.writeEach out files).2.result = .error e → e = .nullInPath ∨ IsRefused e
  | [], d, h => by cases h
  | f :: files, d, h => by
    cases hwrite : d.writeFile (out.join (.ofText f.path)) f.content.toUTF8 with
    | error e' =>
      rw [writeEach, hwrite] at h
      obtain rfl := Except.error.inj h
      by_cases hnull : hasNull (out.join (.ofText f.path)) = true
      · exact .inl ((writeFile_fault hwrite).null_iff.mpr hnull)
      · exact .inr ((writeFile_fault hwrite).refused hnull)
    | ok d₁ =>
      rw [(writeEach_cons hwrite).2] at h
      exact writeEach_fault h

theorem not_hasNull_of_writeFile {content : ByteArray} {d' : Disk} (h : d.writeFile p content = .ok d') :
    hasNull p ≠ true := by
  intro hnull
  rw [writeFile, onPath, if_pos hnull] at h
  cases h

/-- Files are written one after another up to the first with the character in its path. -/
theorem writeEach_eq_null_iff {out : Path} (hout : hasNull out ≠ true) : ∀ {files : List SourceFile} {d : Disk},
    (d.writeEach out files).2.result = .error .nullInPath ↔ ∃ before f after, files = before ++ f :: after ∧
      (d.writeEach out before).2.result = .ok () ∧ '\x00' ∈ f.path.toList
  | [], d => by
    refine iff_of_false nofun ?_
    rintro ⟨before, f, after, h, -⟩
    cases before <;> cases h
  | f :: files, d => by
    have hjoin := hasNull_join_iff hout (s := f.path)
    cases hwrite : d.writeFile (out.join (.ofText f.path)) f.content.toUTF8 with
    | error e =>
      have hfirst : (d.writeEach out (f :: files)).2.result = .error e := by
        rw [writeEach, hwrite]
        rfl
      rw [hfirst, Except.error.injEq, (writeFile_fault hwrite).null_iff, hjoin]
      constructor
      · intro hnull
        exact ⟨[], f, files, rfl, rfl, hnull⟩
      · rintro ⟨before, g, after, hsplit, hbefore, hnull⟩
        cases before with
        | nil =>
          obtain ⟨rfl, -⟩ := List.cons.inj hsplit
          exact hnull
        | cons f' before =>
          obtain ⟨rfl, -⟩ := List.cons.inj hsplit
          rw [writeEach, hwrite] at hbefore
          cases hbefore
    | ok d₁ =>
      rw [(writeEach_cons hwrite).2, writeEach_eq_null_iff hout]
      constructor
      · rintro ⟨before, g, after, rfl, hbefore, hnull⟩
        exact ⟨f :: before, g, after, rfl, (writeEach_cons hwrite).2 ▸ hbefore, hnull⟩
      · rintro ⟨before, g, after, hsplit, hbefore, hnull⟩
        cases before with
        | nil =>
          obtain ⟨rfl, -⟩ := List.cons.inj hsplit
          exact absurd (hjoin.mpr hnull) (not_hasNull_of_writeFile hwrite)
        | cons f' before =>
          obtain ⟨rfl, rfl⟩ := List.cons.inj hsplit
          exact ⟨before, g, after, rfl, (writeEach_cons hwrite).2 ▸ hbefore, hnull⟩

theorem writeFiles_fault {out : Path} {files : List SourceFile} {e : Fault}
    (h : (d.writeFiles out files).2.result = .error e) : e = .nullInPath ∨ IsRefused e := by
  unfold writeFiles at h
  split at h
  · rename_i d' e' hmake
    obtain rfl := Except.error.inj h
    have he := makeDirectories_fault (congrArg Prod.snd hmake)
    by_cases hnull : hasNull out = true
    · exact .inl (he.null_iff.mpr hnull)
    · exact .inr (he.refused hnull)
  · exact writeEach_fault h

/-- The writing of files fails for the character of code zero when it is in the path of the output directory, or in the
path of a file that the writing comes to. -/
theorem writeFiles_eq_null_iff {out : Path} {files : List SourceFile} :
    (d.writeFiles out files).2.result = .error .nullInPath ↔ hasNull out = true ∨
      ∃ before f after, files = before ++ f :: after ∧ (d.writeFiles out before).2.result = .ok () ∧
        '\x00' ∈ f.path.toList := by
  rw [← makeDirectories_eq_null_iff (d := d)]
  unfold writeFiles
  rcases hmake : d.makeDirectories out with ⟨d', e | _⟩
  · dsimp only
    constructor
    · exact .inl
    · rintro (h | ⟨before, f, after, -, h, -⟩)
      · exact h
      · cases h
  · have hnull : hasNull out ≠ true := by
      intro hnull
      have hmade := makeDirectories_eq_null_iff (d := d).mpr hnull
      rw [hmake] at hmade
      cases hmade
    rw [or_iff_right nofun]
    exact writeEach_eq_null_iff hnull

end Disk

end ModelCompiler
