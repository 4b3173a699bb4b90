import ModelCompiler.Command.Run
import ModelCompiler.Proofs.Persistence

/-!
# A check predicts a run

A run that writes has a plan: its settings and the files that the models compile to (`planned`). A check of the same
command line (`Request.ofArguments_check`) makes no plan, yet it tells whether there is one (`check_predicts_run`).

* **The run** leaves the disk when it has no plan, and does nothing but write its files when it has one
  (`attempt_of_planned_error`, `attempt_of_planned_ok`).
* **The check** ends with the exit code 0 exactly when there is a plan (`attempt_check_eq_zero_iff`), as models compile
  exactly when a check of them lists no problem (`exists_modules_iff`).
-/

namespace ModelCompiler.Command

/-! ## Asking for a check -/

/-- The same request, but for a check. -/
def Request.checking : Request → Request
  | .help => .help
  | .run o => .run { o with check := true }

theorem Request.switchOn_check (o : Options) (s : Switch) :
    switchOn { o with check := true } s = (switchOn o s).map fun o => { o with check := true } := by
  cases s <;> rfl

theorem Request.foldlM_switchOn_check : ∀ (on : List Switch) (o : Options),
    on.foldlM switchOn { o with check := true } = (on.foldlM switchOn o).map fun o => { o with check := true }
  | [], o => rfl
  | s :: on, o => by
    rw [List.foldlM_cons, List.foldlM_cons, switchOn_check]
    cases switchOn o s with
    | error request => rfl
    | ok o => exact foldlM_switchOn_check on o

/-- What switching options on asks for instead of a run is help. -/
theorem Request.eq_help_of_foldlM {request : Request} : ∀ (on : List Switch) {o : Options},
    on.foldlM switchOn o = .error request → request = .help
  | [], o, h => by cases h
  | s :: on, o, h => by
    rw [List.foldlM_cons] at h
    cases s with
    | help => exact (Except.error.inj h).symm
    | _ => exact eq_help_of_foldlM on h

/-- Options that are taken one by one can ask for a check from the start. -/
theorem Request.ofWords_check (o : Options) (left : List String) (words : List (String × Word)) :
    ofWords { o with check := true } left words = (ofWords o left words).map checking := by
  fun_induction ofWords o left words with
  | case1 o left h =>
    rw [ofWords, if_pos h]
    rfl
  | case2 o left h =>
    rw [ofWords, if_neg h]
    rfl
  | case3 o left argument path words ih => rw [ofWords, ih]
  | case4 o left argument attached path words h ih => rw [ofWords, ih]; exact h
  | case5 o left argument attached words h₁ h₂ => rw [ofWords] <;> first | rfl | assumption
  | case6 o left argument s attached words h₁ h₂ h₃ ih =>
    rw [ofWords]
    · rcases switches s attached with e | ⟨on, rest⟩
      · rfl
      · simp only [bind, Except.bind, foldlM_switchOn_check]
        cases hon : on.foldlM switchOn o with
        | error request =>
          obtain rfl := eq_help_of_foldlM on hon
          rfl
        | ok o' => exact ih rest o'
    all_goals assumption
  | case7 o left argument word words h₁ h₂ h₃ h₄ ih => rw [ofWords, ih] <;> assumption

/-- With `--check` before its arguments a request is one for a check. -/
theorem Request.ofArguments_check (arguments : List String) :
    ofArguments ("--check" :: arguments) = (ofArguments arguments).map checking := by
  have hword : Word.ofArgument "--check" = .ok (.option .check .nothing) := by decide
  have hwords : Word.ofArguments ("--check" :: arguments) =
      (Word.ofArguments arguments).map (("--check", .option .check .nothing) :: ·) := by
    rw [Word.ofArguments, hword]
    · cases Word.ofArguments arguments <;> rfl
    · simp
  rw [ofArguments, ofArguments, hwords]
  cases Word.ofArguments arguments with
  | error e => rfl
  | ok words =>
    show ofWords .default [] (("--check", .option .check .nothing) :: words) = (ofWords .default [] words).map checking
    rw [← ofWords_check]
    rw [ofWords]
    · rfl
    all_goals simp

/-! ## Exit codes -/

/-- A fault that a run logs before it exits: a problem of the models or a refusal of the disk. -/
def IsReported (e : Fault) : Prop := (∃ p, e = .problem p) ∨ ∃ why path, e = .refused why path

theorem exists_handled?_iff {e : Fault} : (∃ message, handled? e = some message) ↔ IsReported e := by
  cases e with
  | problem p => simp [handled?, IsReported]
  | refused why path => cases why <;> simp [handled?, IsReported]
  | _ => simp [handled?, IsReported]

theorem handle_of_ok {attempted : Logged Fault Nat} {code : Nat} (h : attempted.result = .ok code) :
    (handle attempted).result = .ok code := by
  rw [handle, h]
  exact h

/-- A reported fault ends a run with the exit code 1. -/
theorem handle_of_isReported {attempted : Logged Fault Nat} {e : Fault} (h : attempted.result = .error e)
    (he : IsReported e) : (handle attempted).result = .ok 1 := by
  obtain ⟨message, hmessage⟩ := exists_handled?_iff.mpr he
  simp only [handle, h, hmessage]

/-- Any other fault is left to whoever started the run. -/
theorem handle_of_not_isReported {attempted : Logged Fault Nat} {e : Fault} (h : attempted.result = .error e)
    (he : ¬IsReported e) : (handle attempted).result = .error e := by
  have hnone : handled? e = none := Option.eq_none_iff_forall_ne_some.mpr fun message hmessage =>
    he (exists_handled?_iff.mp ⟨message, hmessage⟩)
  simp only [handle, h, hnone]

/-- A fault never ends a run with the exit code 0. -/
theorem handle_eq_zero_iff {attempted : Logged Fault Nat} :
    (handle attempted).result = .ok 0 ↔ attempted.result = .ok 0 := by
  cases h : attempted.result with
  | ok code => rw [handle_of_ok h]
  | error e =>
    by_cases he : IsReported e
    · simp [handle_of_isReported h he]
    · simp [handle_of_not_isReported h he]

/-! ## Plans -/

variable {o : Options} {d : Disk}

/-- A check has the settings of the run. -/
theorem settingsOf_check (check : Bool) : settingsOf { o with check } d = settingsOf o d := rfl

/-- The settings of a run and the files that it writes. -/
def planned (o : Options) (d : Disk) : Except Fault (Settings × List SourceFile) := do
  let settings ← settingsOf o d
  let files ← (prepare d settings).result
  return (settings, files)

theorem planned_eq_ok_iff {settings : Settings} {files : List SourceFile} : planned o d = .ok (settings, files) ↔
    settingsOf o d = .ok settings ∧ (prepare d settings).result = .ok files := by
  simp only [planned, Results.bind_eq_ok_iff]
  constructor
  · rintro ⟨settings, hsettings, files, hfiles, h⟩
    cases h
    exact ⟨hsettings, hfiles⟩
  · rintro ⟨hsettings, hfiles⟩
    exact ⟨settings, hsettings, files, hfiles, rfl⟩

theorem planned_eq_error_iff {e : Fault} : planned o d = .error e ↔ settingsOf o d = .error e ∨
    ∃ settings, settingsOf o d = .ok settings ∧ (prepare d settings).result = .error e := by
  simp only [planned, Results.bind_eq_error_iff]
  refine or_congr_right (exists_congr fun settings => and_congr_right fun _ => or_iff_left ?_)
  rintro ⟨files, -, h⟩
  cases h

theorem run_of_arguments {arguments : List String} (h : Request.ofArguments arguments = .ok (.run o)) :
    (run d arguments).disk = (attempt o d).1 ∧ (run d arguments).exit = (handle (attempt o d).2).result := by
  rw [run, h]
  exact ⟨rfl, rfl⟩

/-- Logging never fails. -/
theorem result_forM_say {α : Type} (line : α → LogLine) (items : List α) :
    (items.forM fun a => .say (line a) : Logged Fault Unit).result = .ok () := by
  rw [List.forM_eq_forM, Logged.result_forM]
  exact Results.forM_eq_ok fun _ _ => rfl

/-- A check of models ends with the exit code 0 exactly when their files can be prepared. -/
theorem runCheck_eq_zero_iff {settings : Settings} :
    (runCheck d settings).result = .ok 0 ↔ ∃ files, (prepare d settings).result = .ok files := by
  rw [runCheck, Logged.result_bind, Results.bind_eq_ok_iff]
  constructor
  · rintro ⟨models, hload, h⟩
    cases hcheck : check .standard settings.allowCycles models with
    | nil =>
      obtain ⟨modules, hmodules⟩ := exists_modules ⟨_, rfl⟩ hcheck
      exact ⟨_, prepare_eq_ok_iff.mpr ⟨models, modules, hload, hmodules, rfl⟩⟩
    | cons p ps =>
      simp only [hcheck, Logged.result_bind, result_forM_say] at h
      cases h
  · rintro ⟨files, h⟩
    obtain ⟨models, modules, hload, hmodules, -⟩ := prepare_eq_ok_iff.mp h
    have hcheck := (exists_modules_iff ⟨_, rfl⟩).mp ⟨modules, hmodules⟩
    refine ⟨models, hload, ?_⟩
    rw [hcheck]
    rfl

theorem attempt_check_disk : (attempt { o with check := true } d).1 = d := by
  rw [attempt]
  split <;> rfl

/-- A check ends with the exit code 0 exactly when there is a plan. -/
theorem attempt_check_eq_zero_iff : (attempt { o with check := true } d).2.result = .ok 0 ↔
    ∃ settings files, planned o d = .ok (settings, files) := by
  simp only [planned_eq_ok_iff]
  rw [attempt, settingsOf_check]
  cases settingsOf o d with
  | error e => simp
  | ok settings => simp [runCheck_eq_zero_iff]

/-- Settings that can be loaded are run with. -/
theorem attempt_of_settings {settings : Settings} (h : settingsOf o d = .ok settings) :
    (attempt { o with check := false } d).1 = (generate d settings).1 ∧
      (attempt { o with check := false } d).2.result = (generate d settings).2.result >>= fun _ => .ok 0 := by
  rw [attempt, settingsOf_check, h]
  refine ⟨rfl, ?_⟩
  show ((generate d settings).2 >>= _).result = _
  rw [Logged.result_bind]
  rfl

/-- A run without a plan leaves the disk. -/
theorem attempt_of_planned_error {e : Fault} (h : planned o d = .error e) :
    (attempt { o with check := false } d).1 = d ∧ (attempt { o with check := false } d).2.result = .error e := by
  rcases planned_eq_error_iff.mp h with hsettings | ⟨settings, hsettings, hprepare⟩
  · rw [attempt, settingsOf_check, hsettings]
    exact ⟨rfl, rfl⟩
  · obtain ⟨hdisk, hresult⟩ := attempt_of_settings hsettings
    obtain ⟨hkept, hfault⟩ := generate_of_prepare_error hprepare
    rw [hdisk, hresult, hkept, hfault]
    exact ⟨rfl, rfl⟩

/-- A run with a plan writes it. -/
theorem attempt_of_planned_ok {settings : Settings} {files : List SourceFile}
    (h : planned o d = .ok (settings, files)) :
    (attempt { o with check := false } d).1 = (d.writeFiles (.ofText settings.outDir) files).1 ∧
      (attempt { o with check := false } d).2.result =
        (d.writeFiles (.ofText settings.outDir) files).2.result >>= fun _ => .ok 0 := by
  obtain ⟨hsettings, hprepare⟩ := planned_eq_ok_iff.mp h
  obtain ⟨hdisk, hresult⟩ := attempt_of_settings hsettings
  obtain ⟨hwritten, hfiles⟩ := generate_of_prepare_ok hprepare
  rw [hdisk, hresult, hwritten, hfiles]
  refine ⟨rfl, ?_⟩
  cases (d.writeFiles (.ofText settings.outDir) files).2.result <;> rfl

/-- **A check predicts a run**: for options that ask for a check by one command line and for a run by another, the
check leaves any disk, whatever its outcome, and it ends with the exit code 0 exactly when the run has a plan. Without
a plan the run leaves the disk as well, and ends with the exit code 1 when its fault is a problem of the models or a
refusal of the disk. With a plan it is the writing of the files alone that decides what is on the disk and whether the
run ends with the exit code 0. -/
theorem check_predicts_run {checking running : List String}
    (hchecking : Request.ofArguments checking = .ok (.run { o with check := true }))
    (hrunning : Request.ofArguments running = .ok (.run { o with check := false })) (d : Disk) :
    (run d checking).disk = d ∧
      ((run d checking).exit = .ok 0 ↔ ∃ settings files, planned o d = .ok (settings, files)) ∧
      (∀ e, planned o d = .error e → (run d running).disk = d ∧
        (IsReported e → (run d running).exit = .ok 1) ∧ (¬IsReported e → (run d running).exit = .error e)) ∧
      ∀ settings files, planned o d = .ok (settings, files) →
        (run d running).disk = (d.writeFiles (.ofText settings.outDir) files).1 ∧
        ((run d running).exit = .ok 0 ↔ (d.writeFiles (.ofText settings.outDir) files).2.result = .ok ()) := by
  obtain ⟨hchecked, hcheckExit⟩ := run_of_arguments (d := d) hchecking
  obtain ⟨hran, hrunExit⟩ := run_of_arguments (d := d) hrunning
  rw [hchecked, hcheckExit, hran, hrunExit, handle_eq_zero_iff, handle_eq_zero_iff]
  refine ⟨attempt_check_disk, attempt_check_eq_zero_iff, fun e he => ?_, fun settings files hplan => ?_⟩
  · obtain ⟨hkept, hfault⟩ := attempt_of_planned_error he
    exact ⟨hkept, handle_of_isReported hfault, handle_of_not_isReported hfault⟩
  · obtain ⟨hwritten, hresult⟩ := attempt_of_planned_ok hplan
    refine ⟨hwritten, ?_⟩
    rw [hresult, Results.bind_eq_ok_iff]
    exact ⟨fun ⟨_, hok, _⟩ => hok, fun hok => ⟨(), hok, rfl⟩⟩

end ModelCompiler.Command

/-! ## A run on a sample tree -/

namespace ModelCompiler

open Command

namespace Sample

/-- The sample tree with settings in the file that they are read from by default. -/
def configured : Disk :=
  (work ["A"]).put ["work", defaultConfig] (.file "\x7b\"outDir\":\"out\",\"inDir\":\"models\"\x7d".toUTF8)

theorem planned_configured : planned ⟨defaultConfig, false, true, true⟩ configured =
    .ok (⟨"out", "models", false⟩, [(bareModule "A").file]) := by
  have hsettings : settingsOf ⟨defaultConfig, false, true, true⟩ configured = .ok ⟨"out", "models", false⟩ := by
    decide +kernel
  have hload : (configured.loadDirectory (.ofText "models")).result = .ok [bare "A"] := by
    decide +kernel
  exact planned_eq_ok_iff.mpr ⟨hsettings, prepare_eq_ok_iff.mpr ⟨_, _, hload, compile_bare, rfl⟩⟩

end Sample

open Sample

theorem check_predicts_run_configured :
    Request.ofArguments ["--check", "--no-cycles", "-v"] = .ok (.run ⟨defaultConfig, true, true, true⟩) ∧
    Request.ofArguments ["--no-cycles", "-v"] = .ok (.run ⟨defaultConfig, false, true, true⟩) ∧
    (run configured ["--check", "--no-cycles", "-v"]).disk = configured ∧
    (run configured ["--check", "--no-cycles", "-v"]).exit = .ok 0 ∧
    (run configured ["--no-cycles", "-v"]).disk =
      (configured.writeFiles (.ofText "out") [(bareModule "A").file]).1 := by
  have hrunning : Request.ofArguments ["--no-cycles", "-v"] = .ok (.run ⟨defaultConfig, false, true, true⟩) := by
    decide
  have hchecking : Request.ofArguments ["--check", "--no-cycles", "-v"] =
      .ok (.run ⟨defaultConfig, true, true, true⟩) := by
    rw [Request.ofArguments_check, hrunning]
    rfl
  obtain ⟨hkept, hexit, -, hwritten⟩ :=
    check_predicts_run (o := ⟨defaultConfig, false, true, true⟩) hchecking hrunning configured
  exact ⟨hchecking, hrunning, hkept, hexit.mpr ⟨_, _, planned_configured⟩, (hwritten _ _ planned_configured).1⟩

end ModelCompiler
