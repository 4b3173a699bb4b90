import ModelCompiler.Proofs.Directories
import ModelCompiler.Proofs.LongIntegers

/-!
# What contents are refused for

Whatever a readable file holds, it is loaded, or it is refused for what is malformed in it, or reading comes to an
integer that is too long (`Surfaces`). The decoding and the reading fail in these ways (`surfaces_jsonOfBytes`), and
what is done with the value afterwards fails only for what is malformed (`Surfaces.bind`). So this holds of the
settings, of a file of models and of the files of a directory, where the first that does not load decides
(`FirstMeets`).

This does not settle what is made of two kinds of contents that are read. A string with a surrogate that has no partner
is no text, so it cannot be written again (`Legible` contents have none); and a name in the settings may set an option
of their reader (`Unreserved` contents have none).
-/

namespace ModelCompiler

/-! ## Contents of texts -/

/-- No escape writes a surrogate without its partner. What follows an escape that is malformed is not read. -/
def Json.surrogatesPaired (s : List Char) : Bool :=
  match s with
  | '\\' :: 'u' :: r =>
    match codeEscape r with
    | .ok (point, n) => !isSurrogate point && surrogatesPaired (r.drop n)
    | .error _ => true
  | '\\' :: _ :: r => surrogatesPaired r
  | _ :: r => surrogatesPaired r
  | [] => true
termination_by s.length
decreasing_by
  all_goals
    simp only [List.length_cons, List.length_drop]
    omega

/-- If a content is read, its strings are texts. A string with a surrogate that has no partner is none: it can be read,
but neither be written nor be in the name of a file. -/
def Legible (content : ByteArray) : Prop :=
  ∀ subject document text, jsonOfBytes subject content = .ok document → String.fromUTF8? content = some text →
    Json.surrogatesPaired text.toList = true

/-- Whether a document has a name that starts with an underscore, as the names of the options of a reader of settings
do. -/
def Settings.reserves (document : Json) : Bool :=
  document.members?.any fun members => members.items.any fun m => m.1.toList.head? = some '_'

/-- If a content is read, it sets no option of the reader of settings. -/
def Unreserved (content : ByteArray) : Prop :=
  ∀ subject document, jsonOfBytes subject content = .ok document → Settings.reserves document = false

theorem Json.surrogatesPaired_of_not_mem : ∀ {s : List Char}, '\\' ∉ s → surrogatesPaired s = true
  | [], _ => by rw [surrogatesPaired]
  | c :: s, h => by
    obtain ⟨hc, hs⟩ := not_or.mp (mt List.mem_cons.mpr h)
    rw [surrogatesPaired]
    · exact surrogatesPaired_of_not_mem hs
    · rintro r rfl
      exact absurd rfl hc
    · rintro d r rfl
      exact absurd rfl hc

theorem fromUTF8?_toUTF8 (s : String) : String.fromUTF8? s.toUTF8 = some s := by
  rw [String.fromUTF8?, String.toUTF8_eq_toByteArray, dif_pos s.isValidUTF8]
  rfl

/-- Where nothing is escaped, no surrogate is. -/
theorem legible_toUTF8 {s : String} (h : '\\' ∉ s.toList) : Legible s.toUTF8 := by
  intro subject document text _ htext
  obtain rfl := Option.some.inj ((fromUTF8?_toUTF8 s).symm.trans htext)
  exact Json.surrogatesPaired_of_not_mem h

/-! ## What reading is refused for -/

/-- Reading the text of a file comes to an integer of `n` digits, more than are read. -/
def ContentMeets (n : Nat) (content : ByteArray) : Prop :=
  ∃ text, String.fromUTF8? content = some text ∧ Json.ValueMeets n (Json.skipBlanks (unifyLineEnds text.toList))

/-- A fault of a file that does not hold what it should. -/
def IsMalformed (e : Fault) : Prop := ∃ subject failures, e = .problem (.shape subject failures)

/-- What the content of a file is loaded as when nothing but a malformed content and an integer that is too long can
make it fail, the integer just when reading comes to it. -/
structure Surfaces {α : Type} (content : ByteArray) (x : Except Fault α) : Prop where
  fault : ∀ e, x = .error e → IsMalformed e ∨ ∃ n, e = .longInteger n
  longInteger_iff : ∀ n, x = .error (.longInteger n) ↔ ContentMeets n content

theorem not_isMalformed_longInteger {n : Nat} : ¬IsMalformed (.longInteger n) := by
  rintro ⟨_, _, h⟩
  cases h

variable {content : ByteArray}

theorem surfaces_jsonOfBytes (subject : String) : Surfaces content (jsonOfBytes subject content) := by
  unfold jsonOfBytes
  cases htext : String.fromUTF8? content with
  | none =>
    refine ⟨fun e h => .inl ⟨subject, _, (Except.error.inj h).symm⟩, fun n => iff_of_false (by simp) ?_⟩
    rintro ⟨text, h, -⟩
    rw [htext] at h
    cases h
  | some text =>
    have hmeets : ∀ n, ContentMeets n content ↔
        Json.read (String.ofList (unifyLineEnds text.toList)) = .error (.longInteger n) := by
      intro n
      rw [Json.read_eq_longInteger_iff, String.toList_ofList, ContentMeets, htext]
      simp
    constructor
    · intro e h
      dsimp only at h
      split at h
      · cases h
      · exact .inl ⟨subject, _, (Except.error.inj h).symm⟩
      · exact .inr ⟨_, (Except.error.inj h).symm⟩
    · intro n
      rw [hmeets]
      dsimp only
      split
      all_goals
        rename_i hread
        simp [hread]

/-- What is done with the value of a content fails as it does only for what is malformed. -/
theorem Surfaces.bind {α β : Type} {x : Except Fault α} {f : α → Except Fault β} (h : Surfaces content x)
    (hf : ∀ a e, f a = .error e → IsMalformed e) : Surfaces content (x >>= f) := by
  constructor
  · intro e he
    rcases Results.bind_eq_error_iff.mp he with he | ⟨a, -, he⟩
    · exact h.fault e he
    · exact .inl (hf a e he)
  · intro n
    rw [← h.longInteger_iff, Results.bind_eq_error_iff]
    refine or_iff_left ?_
    rintro ⟨a, -, he⟩
    exact not_isMalformed_longInteger (hf a _ he)

theorem Settings.parse_eq_error {document : Json} {p : Problem} (h : Settings.parse document = .error p) :
    ∃ failures, p = .shape "config" failures := by
  unfold Settings.parse at h
  split at h
  · exact ⟨_, (Except.error.inj h).symm⟩
  · split at h
    · cases h
    · exact ⟨_, (Except.error.inj h).symm⟩

namespace Disk

variable {d : Disk} {p : Path} {l : Location}

theorem surfaces_loadSettings (h : d.readFile p = .ok content) : Surfaces content (d.loadSettings p) := by
  rw [loadSettings, h]
  refine (surfaces_jsonOfBytes _).bind fun document e he => ?_
  cases hparse : Settings.parse document with
  | ok s =>
    rw [hparse] at he
    cases he
  | error problem =>
    rw [hparse] at he
    obtain ⟨failures, rfl⟩ := Settings.parse_eq_error hparse
    exact ⟨_, failures, (Except.error.inj he).symm⟩

theorem isMalformed_of_parseRecords {file : String} {index : Nat} {records : List Json} {e : Fault}
    (h : (parseRecords file index records).mapError Fault.problem = .error e) : IsMalformed e := by
  cases hrecords : parseRecords file index records with
  | ok models =>
    rw [hrecords] at h
    cases h
  | error problem =>
    rw [hrecords] at h
    obtain ⟨before, record, after, -, -, -, rfl⟩ := parseRecords_eq_error_iff.mp hrecords
    exact ⟨_, _, (Except.error.inj h).symm⟩

/-- The value of a file fails to give models only where a record is malformed. -/
theorem surfaces_readNamed (p : Path) (f : NamedFile) : Surfaces f.content (readNamed p f).result := by
  unfold readNamed
  rw [Logged.result_bind, Logged.result_ofExcept]
  refine (surfaces_jsonOfBytes _).bind fun j e he => ?_
  split at he
  · exact isMalformed_of_parseRecords he
  · cases he

theorem surfaces_loadFile (h : d.readFile p = .ok content) : Surfaces content (d.loadFile p).result := by
  rw [loadFile, h, Logged.result_bind, Logged.result_ofExcept]
  refine (surfaces_jsonOfBytes ("JSON in " ++ p.text)).bind fun j e he => ?_
  split at he
  · exact isMalformed_of_parseRecords he
  · cases he

theorem surfaces_loadNamed (p : Path) (f : NamedFile) : Surfaces f.content (loadNamed p f).result := by
  unfold loadNamed
  rw [Logged.result_bind]
  refine (surfaces_readNamed p f).bind fun models e he => ?_
  cases he

theorem loadsAs_longInteger_iff {f : NamedFile} {n : Nat} :
    LoadsAs p f (.error (.longInteger n)) [] ↔ ContentMeets n f.content := by
  rw [← (surfaces_loadNamed p f).longInteger_iff]
  constructor
  · intro h
    rw [h.loadNamed_eq]
  · intro h
    rcases exists_loadsAs p f with ⟨models, lines, hf⟩ | ⟨e, hf⟩
    · rw [hf.loadNamed_eq] at h
      cases h
    · rw [hf.loadNamed_eq] at h
      obtain rfl := Except.error.inj h
      exact hf

/-- In the files of a directory, a content whose reading comes to an integer of `n` digits, more than are read, comes
after none that fails to load. -/
def FirstMeets (d : Disk) (p : Path) (l : Location) (n : Nat) : Prop :=
  ∃ before f after loads, d.JsonFilesOf l (before ++ f :: after) ∧ AllLoad p before loads ∧ ContentMeets n f.content

theorem DirectoryAt.loadDirectory_fault (h : d.DirectoryAt p l) {e : Fault}
    (he : (d.loadDirectory p).result = .error e) : IsMalformed e ∨ ∃ n, e = .longInteger n := by
  obtain ⟨before, f, after, loads, -, -, hf⟩ := h.loadDirectory_eq_error_iff.mp he
  exact (surfaces_loadNamed p f).fault e (congrArg Logged.result hf.loadNamed_eq)

theorem DirectoryAt.loadDirectory_eq_longInteger_iff (h : d.DirectoryAt p l) {n : Nat} :
    (d.loadDirectory p).result = .error (.longInteger n) ↔ d.FirstMeets p l n := by
  rw [h.loadDirectory_eq_error_iff, FirstMeets]
  simp only [loadsAs_longInteger_iff]

end Disk

end ModelCompiler
