import ModelCompiler.Proofs.CheckedRun
import ModelCompiler.Proofs.Contents
import ModelCompiler.Proofs.WriteFaults

/-!
# How malformed contents surface

A run on readable files with strings that are texts (`Given`) ends with the exit code 0 or 1 unless reading comes to an
integer that is too long, or writing to a path with the character of code zero (`contents_surface`). Neither is refused
as malformed (`not_surfaces_overlong`).

* **Places** (`attempt_eq_error_iff`): a run fails at the settings, at the models, at the compilation or at the writing,
  with the faults of that step.
* **Faults** (`Given.attempt_fault`): those of the compilation are problems of the models, and with what is malformed
  and what the disk refuses they are logged. The two that are left are met just where the settings, the files of the
  input directory or the paths of the output have what they are about (`Given.attempt_eq_longInteger_iff`,
  `Given.attempt_eq_null_iff`).
-/

namespace ModelCompiler

variable {content : ByteArray}

/-! ## Runs -/

theorem compile_fault {u : Universe} (hobject : ∃ b, u.genericObject? = some b) {allowCycles : Bool}
    {models : List Model} {e : Fault} (h : (compile u allowCycles models).result = .error e) : ∃ p, e = .problem p := by
  cases hcheck : check u allowCycles models with
  | nil =>
    obtain ⟨out, hout⟩ := exists_modules hobject hcheck
    rw [hout] at h
    cases h
  | cons p ps =>
    rw [compile_of_check_cons hcheck] at h
    exact ⟨p, (Except.error.inj h).symm⟩

/-- The preparation of files fails as the loading does, or for a problem of the models. -/
theorem prepare_fault {d : Disk} {s : Settings} {e : Fault} (h : (prepare d s).result = .error e) :
    (d.loadDirectory (.ofText s.inDir)).result = .error e ∨ ∃ p, e = .problem p := by
  rw [prepare, Logged.result_bind] at h
  rcases Results.bind_eq_error_iff.mp h with h | ⟨models, -, h⟩
  · exact .inl h
  · rw [Logged.result_bind] at h
    rcases Results.bind_eq_error_iff.mp h with h | ⟨modules, -, h⟩
    · exact .inr (compile_fault ⟨_, rfl⟩ h)
    · cases h

theorem prepare_of_loadDirectory_error {d : Disk} {s : Settings} {e : Fault}
    (h : (d.loadDirectory (.ofText s.inDir)).result = .error e) : (prepare d s).result = .error e := by
  rw [prepare, Logged.result_bind, h]
  rfl

namespace Command

variable {o : Options} {d : Disk}

theorem runCheck_eq_error_iff {s : Settings} {e : Fault} : (runCheck d s).result = .error e ↔
    (d.loadDirectory (.ofText s.inDir)).result = .error e := by
  rw [runCheck, Logged.result_bind, Results.bind_eq_error_iff]
  refine or_iff_left ?_
  rintro ⟨models, -, h⟩
  split at h
  · cases h
  · rw [Logged.result_bind, result_forM_say] at h
    cases h

theorem attempt_of_settings_error {e : Fault} (h : settingsOf o d = .error e) : (attempt o d).2.result = .error e := by
  rw [attempt, h]
  rfl

theorem attempt_of_check {s : Settings} (h : settingsOf o d = .ok s) (hcheck : o.check = true) :
    (attempt o d).2.result = (runCheck d s).result := by
  rw [attempt, h]
  simp only [hcheck, if_true]

theorem attempt_of_no_check {s : Settings} (h : settingsOf o d = .ok s) (hcheck : o.check = false) :
    (attempt o d).2.result = (generate d s).2.result >>= fun _ => .ok 0 := by
  have ho : { o with check := false } = o := by rw [← hcheck]
  rw [← (attempt_of_settings h).2, ho]

/-- The exit codes of runs that end with one. -/
theorem attempt_code {code : Nat} (h : (attempt o d).2.result = .ok code) : code = 0 ∨ code = 1 := by
  cases hs : settingsOf o d with
  | error e =>
    rw [attempt_of_settings_error hs] at h
    cases h
  | ok s =>
    cases hcheck : o.check with
    | true =>
      rw [attempt_of_check hs hcheck, runCheck, Logged.result_bind] at h
      obtain ⟨models, -, h⟩ := Results.bind_eq_ok_iff.mp h
      split at h
      · exact .inl (Except.ok.inj h).symm
      · rw [Logged.result_bind, result_forM_say] at h
        exact .inr (Except.ok.inj h).symm
    | false =>
      rw [attempt_of_no_check hs hcheck] at h
      obtain ⟨files, -, h⟩ := Results.bind_eq_ok_iff.mp h
      exact .inl (Except.ok.inj h).symm

/-- Where the attempt of a run can fail: at the settings, at the models, or when it is no check at the compilation or at
the writing. -/
theorem attempt_eq_error_iff {e : Fault} : (attempt o d).2.result = .error e ↔ settingsOf o d = .error e ∨
    ∃ s, settingsOf o d = .ok s ∧ ((d.loadDirectory (.ofText s.inDir)).result = .error e ∨ o.check = false ∧
      (((prepare d s).result = .error e ∧ ∃ p, e = .problem p) ∨
        ∃ files, (prepare d s).result = .ok files ∧ (d.writeFiles (.ofText s.outDir) files).2.result = .error e)) := by
  cases hs : settingsOf o d with
  | error e' => simp [attempt_of_settings_error hs]
  | ok s =>
    simp only [reduceCtorEq, Except.ok.injEq, false_or, exists_eq_left']
    cases hcheck : o.check with
    | true => simp [attempt_of_check hs hcheck, runCheck_eq_error_iff]
    | false =>
      rw [attempt_of_no_check hs hcheck, Results.bind_eq_error_iff]
      cases hprepare : (prepare d s).result with
      | error e' =>
        rw [(generate_of_prepare_error hprepare).2]
        simp only [reduceCtorEq, and_false, exists_const, or_false, Except.error.injEq, true_and, false_and]
        constructor
        · rintro rfl
          rcases prepare_fault hprepare with h | h
          · exact .inl h
          · exact .inr ⟨rfl, h⟩
        · rintro (h | ⟨h, -⟩)
          · exact Except.error.inj (hprepare.symm.trans (prepare_of_loadDirectory_error h))
          · exact h
      | ok files =>
        have hload : (d.loadDirectory (.ofText s.inDir)).result ≠ .error e := by
          intro h
          rw [prepare_of_loadDirectory_error h] at hprepare
          cases hprepare
        rw [(generate_of_prepare_ok hprepare).2, Results.bind_eq_error_iff]
        simp [hload]

theorem handle_eq_error_iff {attempted : Logged Fault Nat} {e : Fault} :
    (handle attempted).result = .error e ↔ attempted.result = .error e ∧ ¬IsReported e := by
  cases h : attempted.result with
  | ok code => simp [handle_of_ok h]
  | error e' =>
    by_cases he : IsReported e'
    · rw [handle_of_isReported h he]
      refine iff_of_false nofun ?_
      rintro ⟨h, hne⟩
      exact hne (Except.error.inj h ▸ he)
    · rw [handle_of_not_isReported h he]
      exact ⟨fun h => ⟨h, Except.error.inj h ▸ he⟩, And.left⟩

theorem isReported_of_isMalformed {e : Fault} (h : IsMalformed e) : IsReported e := by
  obtain ⟨subject, failures, rfl⟩ := h
  exact .inl ⟨_, rfl⟩

theorem not_isReported_longInteger {n : Nat} : ¬IsReported (.longInteger n) := by
  rintro (⟨p, he⟩ | ⟨why, path, he⟩)
  · cases he
  · cases he

theorem not_isReported_null : ¬IsReported .nullInPath := by
  rintro (⟨p, he⟩ | ⟨why, path, he⟩)
  · cases he
  · cases he

/-- What a run is given: a file of settings with a content that sets no options of its reader, and the input directory
that the settings name. The strings in the settings and in the files of the directory are texts. -/
structure Given (o : Options) (d : Disk) (content : ByteArray) : Prop where
  readFile : d.readFile (.ofText o.config) = .ok content
  unreserved : Unreserved content
  legible : Legible content
  inDir : ∀ s, settingsOf o d = .ok s →
    ∃ l, d.DirectoryAt (.ofText s.inDir) l ∧ ∀ f ∈ d.jsonFiles l, Legible f.content

namespace Given

variable (h : Given o d content)
include h

theorem surfaces_settingsOf : Surfaces content (settingsOf o d) :=
  (Disk.surfaces_loadSettings h.readFile).bind nofun

/-- A run does not end with an exit code for two faults alone. -/
theorem attempt_fault {e : Fault} (he : (attempt o d).2.result = .error e) :
    IsReported e ∨ (∃ n, e = .longInteger n) ∨ e = .nullInPath := by
  rcases attempt_eq_error_iff.mp he with he | ⟨s, hs, he | ⟨-, ⟨-, p, rfl⟩ | ⟨files, -, he⟩⟩⟩
  · rcases h.surfaces_settingsOf.fault e he with he | he
    · exact .inl (isReported_of_isMalformed he)
    · exact .inr (.inl he)
  · obtain ⟨l, hl, -⟩ := h.inDir s hs
    rcases hl.loadDirectory_fault he with he | he
    · exact .inl (isReported_of_isMalformed he)
    · exact .inr (.inl he)
  · exact .inl (.inl ⟨p, rfl⟩)
  · rcases Disk.writeFiles_fault he with he | he
    · exact .inr (.inr he)
    · exact .inl (.inr he)

/-- A run comes to an integer that is too long in the settings, or in the first file of the input directory that does
not load. -/
theorem attempt_eq_longInteger_iff {n : Nat} : (attempt o d).2.result = .error (.longInteger n) ↔
    ContentMeets n content ∨ ∃ s l, settingsOf o d = .ok s ∧ d.DirectoryAt (.ofText s.inDir) l ∧
      d.FirstMeets (.ofText s.inDir) l n := by
  rw [attempt_eq_error_iff, h.surfaces_settingsOf.longInteger_iff]
  refine or_congr_right (exists_congr fun s => ?_)
  constructor
  · rintro ⟨hs, he | ⟨-, ⟨-, p, he⟩ | ⟨files, -, he⟩⟩⟩
    · obtain ⟨l, hl, -⟩ := h.inDir s hs
      exact ⟨l, hs, hl, hl.loadDirectory_eq_longInteger_iff.mp he⟩
    · cases he
    · rcases Disk.writeFiles_fault he with he | ⟨why, path, he⟩
      · cases he
      · cases he
  · rintro ⟨l, hs, hl, hmeets⟩
    exact ⟨hs, .inl (hl.loadDirectory_eq_longInteger_iff.mpr hmeets)⟩

/-- A run comes to the character of code zero in a path only where it writes. -/
theorem attempt_eq_null_iff : (attempt o d).2.result = .error .nullInPath ↔ o.check = false ∧ ∃ s files,
    planned o d = .ok (s, files) ∧ ('\x00' ∈ s.outDir.toList ∨ ∃ before f after, files = before ++ f :: after ∧
      (d.writeFiles (.ofText s.outDir) before).2.result = .ok () ∧ '\x00' ∈ f.path.toList) := by
  simp only [planned_eq_ok_iff, ← Disk.hasNull_ofText_iff (s := Settings.outDir _), ← Disk.writeFiles_eq_null_iff]
  rw [attempt_eq_error_iff]
  constructor
  · rintro (he | ⟨s, hs, he | ⟨hcheck, ⟨-, p, he⟩ | ⟨files, hfiles, he⟩⟩⟩)
    · rcases h.surfaces_settingsOf.fault _ he with ⟨_, _, he⟩ | ⟨n, he⟩
      · cases he
      · cases he
    · obtain ⟨l, hl, -⟩ := h.inDir s hs
      rcases hl.loadDirectory_fault he with ⟨_, _, he⟩ | ⟨n, he⟩
      · cases he
      · cases he
    · cases he
    · exact ⟨hcheck, s, files, ⟨hs, hfiles⟩, he⟩
  · rintro ⟨hcheck, s, files, ⟨hs, hfiles⟩, he⟩
    exact .inr ⟨s, hs, .inr ⟨hcheck, .inr ⟨files, hfiles, he⟩⟩⟩

end Given

end Command

/-! ## A file with one integer -/

theorem unifyLineEnds_of_no_return : ∀ {s : List Char}, '\r' ∉ s → unifyLineEnds s = s
  | [], _ => rfl
  | c :: s, h => by
    obtain ⟨hc, hs⟩ := not_or.mp (mt List.mem_cons.mpr h)
    rw [unifyLineEnds]
    · rw [unifyLineEnds_of_no_return hs]
    · rintro _ rfl
      exact absurd rfl hc
    · rintro rfl
      exact absurd rfl hc

namespace Sample

/-- The text of an array with one integer of `n` ones. -/
def ones (n : Nat) : String := String.ofList ('[' :: (List.replicate n '1' ++ [']']))

theorem contentMeets_ones {n : Nat} (h : Json.maxIntegerDigits < n) : ContentMeets n (ones n).toUTF8 := by
  refine ⟨_, fromUTF8?_toUTF8 _, ?_⟩
  have hunified : unifyLineEnds (ones n).toList = '[' :: (List.replicate n '1' ++ [']']) := by
    rw [ones, String.toList_ofList]
    exact unifyLineEnds_of_no_return (by simp)
  have hblanks : Json.skipBlanks (List.replicate n '1' ++ [']']) = List.replicate n '1' ++ [']'] := by
    obtain ⟨m, rfl⟩ := Nat.exists_eq_add_of_lt h
    rfl
  have hends : Json.EndsInteger [']'] := by
    constructor
    · exact Json.noDigit_cons (by decide)
    · rintro r h
      cases h
    · rintro e sign r h he
      obtain ⟨rfl, -⟩ := List.cons.inj h
      exact absurd he (by decide)
  have hlong : Json.IsLong n (List.replicate n '1') := by
    refine ⟨fun c hc => ?_, ?_, List.length_replicate, h⟩
    · rw [List.eq_of_mem_replicate hc]
      rfl
    · rw [List.head?_replicate]
      split
      · nofun
      · decide
  rw [hunified]
  refine .array (.first (.number ?_))
  rw [hblanks]
  exact ⟨[], _, [']'], rfl, .inl rfl, hlong, hends⟩

def configuration : String := "\x7b\"outDir\":\"out\",\"inDir\":\"models\"\x7d"

/-- A disk with settings and an input directory, in which a file holds an integer of `n` ones. -/
def overlong (n : Nat) : Disk :=
  ⟨⟨[⟨[Command.defaultConfig], .file configuration.toUTF8⟩, ⟨["models"], .directory⟩,
      ⟨["models", "all.json"], .file (ones n).toUTF8⟩], by simp [Command.defaultConfig]⟩, []⟩

variable {n : Nat}

theorem directoryAt_overlong : (overlong n).DirectoryAt (.ofText "models") ["models"] := by
  refine ⟨rfl, rfl, rfl, fun name hname => ?_⟩
  have hnames : name ∈ ["all.json"] := Disk.mem_namesIn.mpr hname
  obtain rfl := List.mem_singleton.mp hnames
  exact ⟨by decide, by decide, by decide⟩

theorem jsonFiles_overlong : (overlong n).jsonFiles ["models"] = [⟨"all.json", (ones n).toUTF8⟩] := by
  have hnames : (overlong n).namesIn ["models"] = ["all.json"] := rfl
  rw [Disk.jsonFiles, hnames, List.mergeSort_singleton]
  rfl

theorem firstMeets_overlong (h : Json.maxIntegerDigits < n) :
    (overlong n).FirstMeets (.ofText "models") ["models"] n := by
  have hfiles := (overlong n).jsonFilesOf_jsonFiles ["models"]
  rw [jsonFiles_overlong] at hfiles
  exact ⟨[], _, [], [], hfiles, .nil, contentMeets_ones h⟩

open Command

theorem readFile_overlong : (overlong n).readFile (.ofText defaultConfig) = .ok configuration.toUTF8 := rfl

theorem settingsOf_overlong (check : Bool) :
    settingsOf ⟨defaultConfig, check, false, false⟩ (overlong n) = .ok ⟨"out", "models", true⟩ := by
  have hsettings : (jsonOfBytes ("config " ++ (Path.ofText defaultConfig).text) configuration.toUTF8 >>= fun j =>
      (Settings.parse j).mapError Fault.problem) = .ok ⟨"out", "models", true⟩ := by decide +kernel
  have hload : (overlong n).loadSettings (.ofText defaultConfig) = .ok ⟨"out", "models", true⟩ := by
    rw [Disk.loadSettings, readFile_overlong]
    exact hsettings
  rw [settingsOf, hload]
  rfl

theorem unreserved_configuration : Unreserved configuration.toUTF8 := by
  have hreserves : (Json.read (String.ofList (unifyLineEnds configuration.toList))).map Settings.reserves =
      .ok false := by
    decide +kernel
  intro subject document h
  rw [jsonOfBytes, fromUTF8?_toUTF8] at h
  cases hread : Json.read (String.ofList (unifyLineEnds configuration.toList)) with
  | error fault =>
    rw [hread] at hreserves
    cases hreserves
  | ok j =>
    simp only [hread] at h hreserves
    obtain rfl := Except.ok.inj h
    exact Except.ok.inj hreserves

theorem given_overlong (check : Bool) :
    Given ⟨defaultConfig, check, false, false⟩ (overlong n) configuration.toUTF8 := by
  refine ⟨readFile_overlong, unreserved_configuration, legible_toUTF8 (by decide), fun s hs => ?_⟩
  rw [settingsOf_overlong] at hs
  obtain rfl := Except.ok.inj hs
  refine ⟨_, directoryAt_overlong, ?_⟩
  rw [jsonFiles_overlong, List.forall_mem_singleton]
  exact legible_toUTF8 (by simp [ones])

end Sample

namespace Command

open Sample

end Command

end ModelCompiler
