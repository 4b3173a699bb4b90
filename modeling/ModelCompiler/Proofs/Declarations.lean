import ModelCompiler.Proofs.MemberNames
import ModelCompiler.Proofs.Texts

/-!
# Declarations in the text of a class

The text of a class gives the name of its model and what the model declares of each field (`Model.readClass_classText`),
whatever scope it was rendered in, when the names of the model have neither blanks nor line feeds. So models whose
classes have one text declare the same (`Model.classText_injective`).

* **Lines** (`Model.exists_linesOf_classLayout`, `splitOn_intercalate_append`): the text begins with the line of the
  name, that of the constructor and one for each field. How the rest of it is split into lines does not matter.
* **Words** (`Field.text_parameter`, `evens_intersperse`): the line of a field is its keyword, its parameter, and its
  types with bars between them. The keyword says whether the parameter has an underscore before the name of the field.
-/

namespace ModelCompiler

/-! ## Declarations -/

/-- What a model declares of a field. -/
structure Declaration where
  name : String
  types : List String
  visibility : Visibility
  deriving DecidableEq

def Field.declaration (f : Field) : Declaration := ⟨f.name, f.types, f.visibility⟩

def Model.declarations (m : Model) : List Declaration := m.fields.items.map Field.declaration

/-- The text has neither blanks nor line feeds. -/
def Unspaced (text : String) : Prop := ' ' ∉ text.toList ∧ '\n' ∉ text.toList

instance (text : String) : Decidable (Unspaced text) := inferInstanceAs (Decidable (_ ∧ _))

/-- The names of the model, of its fields and of their types have neither blanks nor line feeds. -/
structure Model.NamesUnspaced (m : Model) : Prop where
  name : Unspaced m.name
  fields : ∀ f ∈ m.fields.items, Unspaced f.name ∧ ∀ type ∈ f.types, Unspaced type

/-! ## Reading a class -/

/-- The declaration that the words of the line of a parameter stand for. -/
def Declaration.ofWords? : List (List Char) → Option Declaration
  | keyword :: parameter :: types =>
    (Visibility.ofKeyword? (String.ofList keyword)).map fun visibility =>
      let name := parameter.dropLast
      { name := String.ofList (if visibility = .everyone then name else name.tail)
        types := (evens types).map String.ofList
        visibility }
  | _ => none

/-- The declaration of a line: its words come after four blanks and before a comma. -/
def Declaration.ofLine? (line : List Char) : Option Declaration := ofWords? ((line.drop 4).dropLast.splitOn ' ')

def isParameterLine (line : List Char) : Bool := line.take 4 = List.replicate 4 ' '

/-- The name of a model and its declarations, from the text of its class. -/
def readClass (text : String) : Option (String × List Declaration) :=
  match text.toList.splitOn '\n' with
  | header :: _ :: lines =>
    ((lines.takeWhile isParameterLine).mapM Declaration.ofLine?).map fun declarations =>
      (String.ofList ((header.drop "export class ".length).dropLast.dropLast), declarations)
  | _ => none

theorem ofKeyword?_keyword (v : Visibility) : Visibility.ofKeyword? v.keyword = some v := by
  cases v <;> rfl

namespace Field

variable {f : Field}

/-- The words of the line of a parameter. -/
def words (f : Field) : List (List Char) :=
  f.visibility.keyword.toList :: (f.backingName ++ ":").toList :: (f.types.map String.toList).intersperse ['|']

/-- The line of a parameter is its words with blanks between them, and a comma. -/
theorem text_parameter (f : Field) : f.parameter.text.toList = [' '].intercalate f.words ++ [','] := by
  have htypes : (f.types.map String.toList).intersperse ['|'] ≠ [] := by
    have hne := f.types_ne_nil
    cases htypes : f.types with
    | nil => exact absurd htypes hne
    | cons type types => cases types <;> simp
  have hunion : f.unionText.toList = [' '].intercalate ((f.types.map String.toList).intersperse ['|']) := by
    rw [unionText, String.toList_intercalate]
    exact intercalate_spaced ' ' '|' _
  rw [words, List.intercalate_cons_cons, List.intercalate_cons_of_ne_nil htypes, ← hunion]
  simp [Parameter.text, parameter]

theorem unspaced_backingName (h : Unspaced f.name) : Unspaced f.backingName := by
  unfold backingName
  split
  · exact h
  · exact ⟨by simp [h.1], by simp [h.2]⟩

theorem unspaced_words (hname : Unspaced f.name) (htypes : ∀ type ∈ f.types, Unspaced type) :
    ∀ word ∈ f.words, ' ' ∉ word ∧ '\n' ∉ word := by
  intro word hword
  rw [words, List.mem_cons, List.mem_cons] at hword
  rcases hword with rfl | rfl | hword
  · cases f.visibility <;> decide
  · have hbacking := unspaced_backingName hname
    exact ⟨by simp [hbacking.1], by simp [hbacking.2]⟩
  · rcases mem_intersperse hword with rfl | hword
    · decide
    · obtain ⟨type, htype, rfl⟩ := List.mem_map.mp hword
      exact htypes type htype

/-- The keyword tells a parameter with an underscore from one without. -/
theorem ofWords?_words (f : Field) : Declaration.ofWords? f.words = some f.declaration := by
  have hname : (if f.visibility = .everyone then f.backingName.toList else f.backingName.toList.tail) =
      f.name.toList := by
    by_cases hpublic : f.visibility = .everyone
    · simp [backingName, isPublic, hpublic]
    · simp [backingName, isPublic, hpublic]
  simp [words, Declaration.ofWords?, ofKeyword?_keyword, evens_intersperse, hname, declaration]

/-- The declaration of a field is read from the line of its parameter. -/
theorem ofLine?_parameter (hname : Unspaced f.name) (htypes : ∀ type ∈ f.types, Unspaced type) :
    Declaration.ofLine? (List.replicate 4 ' ' ++ f.parameter.text.toList) = some f.declaration := by
  have hwords := List.splitOn_intercalate ' ' (fun word hword => (unspaced_words hname htypes word hword).1)
    (List.cons_ne_nil _ _ : f.words ≠ [])
  rw [Declaration.ofLine?, List.drop_left' (List.length_replicate ..), text_parameter, List.dropLast_concat, hwords,
    ofWords?_words]

/-- The line of a parameter in the text of a class. -/
def parameterLine (f : Field) : String := Layout.indent 2 f.parameter.text

theorem toList_parameterLine (f : Field) :
    f.parameterLine.toList = List.replicate 4 ' ' ++ f.parameter.text.toList := by
  simp [parameterLine, Layout.indent]

theorem not_mem_parameterLine (hname : Unspaced f.name) (htypes : ∀ type ∈ f.types, Unspaced type) :
    '\n' ∉ f.parameterLine.toList := by
  have hwords : '\n' ∉ [' '].intercalate f.words := by
    rw [mem_intercalate_singleton (by decide)]
    rintro ⟨word, hword, hmem⟩
    exact (unspaced_words hname htypes word hword).2 hmem
  rw [toList_parameterLine, text_parameter]
  simp [hwords]

end Field

namespace Model

variable {s : Scope} {m : Model} {text : String}

/-- The lines that a class begins with. -/
def firstLines (m : Model) : List String :=
  ("export class " ++ m.name ++ " \x7b") :: "  constructor(" :: m.fields.items.map Field.parameterLine ++
    ["  ) \x7b\x7d"]

theorem linesOf_parameters (fields : List Field) :
    Layout.linesOf (fields.map fun f => .line f.parameter.text) 2 = fields.map Field.parameterLine := by
  have hline : ∀ f : Field, (if f.parameter.text.isEmpty then "" else Layout.indent 2 f.parameter.text) =
      f.parameterLine := fun f => if_neg (by simp [Parameter.text])
  have hlines := Layout.linesOf_map_line (fields.map fun f => f.parameter.text) 2
  simp only [List.map_map, Function.comp_def, hline] at hlines
  exact hlines

theorem linesOf_constructorLayout (m : Model) : Layout.lines m.constructorLayout 1 =
    "  constructor(" :: m.fields.items.map Field.parameterLine ++ ["  ) \x7b\x7d"] := by
  rw [← linesOf_parameters]
  rfl

/-- A class begins with its first lines and has some more. -/
theorem exists_linesOf_classLayout (m : Model) (v : Validator) :
    ∃ rest, rest ≠ [] ∧ Layout.linesOf [m.classLayout v] 0 = m.firstLines ++ rest := by
  refine ⟨Layout.linesOf (m.getterLayouts ++ [.blank, m.toJsonLayout, .blank, m.fromJsonLayout, .blank,
    m.isDataModelLayout, .blank, v.layout]) 1 ++ ["\x7d"], by simp, ?_⟩
  have hdepth : Layout.inner true 0 = 1 := rfl
  have hindent : ∀ line, Layout.indent 0 line = line := fun line => String.empty_append
  simp only [classLayout, Layout.braced, Layout.between, Layout.linesOf, Layout.lines, hdepth, firstLines,
    linesOf_constructorLayout, List.cons_append]
  simp [hindent]

theorem not_mem_firstLines (hm : m.NamesUnspaced) : ∀ line ∈ m.firstLines.map String.toList, '\n' ∉ line := by
  intro line hline
  rw [firstLines, List.map_append, List.map_cons, List.map_cons, List.mem_append, List.mem_cons, List.mem_cons] at hline
  rcases hline with (rfl | rfl | hline) | hline
  · simp [hm.name.2]
  · decide
  · obtain ⟨_, hparameter, rfl⟩ := List.mem_map.mp hline
    obtain ⟨f, hf, rfl⟩ := List.mem_map.mp hparameter
    obtain ⟨hname, htypes⟩ := hm.fields f hf
    exact Field.not_mem_parameterLine hname htypes
  · obtain rfl := List.mem_singleton.mp hline
    decide

/-- The lines of the parameters are those that begin with four blanks, up to the end of the constructor. -/
theorem takeWhile_parameters (fields : List Field) (rest : List (List Char)) :
    ((fields.map fun f => f.parameterLine.toList) ++ "  ) \x7b\x7d".toList :: rest).takeWhile isParameterLine =
      fields.map fun f => f.parameterLine.toList := by
  have hlines : ∀ line ∈ fields.map fun f => f.parameterLine.toList, isParameterLine line = true := by
    intro line hline
    obtain ⟨f, -, rfl⟩ := List.mem_map.mp hline
    rw [Field.toList_parameterLine]
    simp [isParameterLine]
  rw [List.takeWhile_append_of_pos hlines, List.takeWhile_cons_of_neg (by decide), List.append_nil]

theorem mapM_ofLine? (hm : m.NamesUnspaced) :
    (m.fields.items.map fun f => f.parameterLine.toList).mapM Declaration.ofLine? = some m.declarations := by
  rw [Results.mapM_eq_some_iff, declarations, List.forall₂_map_left_iff, List.forall₂_map_right_iff, List.forall₂_same]
  intro f hf
  obtain ⟨hname, htypes⟩ := hm.fields f hf
  rw [Field.toList_parameterLine]
  exact Field.ofLine?_parameter hname htypes

/-- The name and the declarations of a model are read from the text of its class. -/
theorem readClass_classText (hm : m.NamesUnspaced) (h : m.classText s = .ok text) :
    readClass text = some (m.name, m.declarations) := by
  obtain ⟨v, -, rfl⟩ := classText_eq_ok_iff.mp h
  obtain ⟨rest, hrest, hlines⟩ := exists_linesOf_classLayout m v
  have hne : rest.map String.toList ≠ [] := by simpa using hrest
  -- the guards in the rest may have line feeds, but the first lines come out of the text as they were put in
  have hsplit : (Layout.document [m.classLayout v]).toList.splitOn '\n' =
      m.firstLines.map String.toList ++ ("\n".toList.intercalate (rest.map String.toList)).splitOn '\n' := by
    rw [Layout.document, hlines, String.toList_intercalate, List.map_append]
    exact splitOn_intercalate_append hne (not_mem_firstLines hm)
  have hheader : (("export class " ++ m.name ++ " \x7b").toList.drop "export class ".length).dropLast.dropLast =
      m.name.toList := by
    rw [String.toList_append, String.toList_append, List.append_assoc, List.drop_left' String.length_toList]
    simp
  simp only [readClass, hsplit, firstLines, List.map_append, List.map_cons, List.map_nil, List.map_map,
    List.cons_append, List.append_assoc, List.nil_append]
  rw [Function.comp_def, takeWhile_parameters, mapM_ofLine? hm, hheader, Option.map_some, String.ofList_toList]

/-- **Emission loses no declaration**: when the names of two models, of their fields and of the types of these have
neither blanks nor line feeds, as words of letters, digits, `_` and `$` have not, and the models have classes of one
text in whatever scopes, then they have one name, and the same names, types and visibilities of fields in one order. -/
theorem classText_injective {s s' : Scope} {m m' : Model} {text : String} (hm : m.NamesUnspaced)
    (hm' : m'.NamesUnspaced) (h : m.classText s = .ok text) (h' : m'.classText s' = .ok text) :
    m.name = m'.name ∧ m.declarations = m'.declarations := by
  have hread : some (m.name, m.declarations) = some (m'.name, m'.declarations) :=
    (readClass_classText hm h).symm.trans (readClass_classText hm' h')
  exact Prod.mk.inj (Option.some.inj hread)

end Model

namespace Sample

/-- Its first field has the usual visibility, the second the name of a parameter. -/
def account : Model :=
  ⟨"Account", ⟨[⟨"owner", ["string", "Date"], none, by decide, by decide⟩,
    ⟨"_owner", ["number", "null"], some .everyone, by decide, by decide⟩], by decide⟩⟩

/-- The same with the usual visibility written out. -/
def spelledAccount : Model :=
  ⟨"Account", ⟨[⟨"owner", ["string", "Date"], some .subclasses, by decide, by decide⟩,
    ⟨"_owner", ["number", "null"], some .everyone, by decide, by decide⟩], by decide⟩⟩

end Sample

namespace Model

theorem classText_injective_account :
    let s : Scope := ⟨⟨Keyed.empty, Keyed.empty⟩, .standard⟩
    let s' : Scope := ⟨⟨Keyed.empty, ⟨[Sample.twins], by decide⟩⟩, .standard⟩
    Sample.account ≠ Sample.spelledAccount ∧ Sample.account.NamesUnspaced ∧ Sample.spelledAccount.NamesUnspaced ∧
      ∃ text, Sample.account.classText s = .ok text ∧ Sample.spelledAccount.classText s' = .ok text ∧
        Sample.account.declarations = Sample.spelledAccount.declarations := by
  intro s s'
  have hm : Sample.account.NamesUnspaced := ⟨by decide, by decide⟩
  have hm' : Sample.spelledAccount.NamesUnspaced := ⟨by decide, by decide⟩
  obtain ⟨text, h⟩ : ∃ text, Sample.account.classText s = .ok text := ⟨_, rfl⟩
  have h' : Sample.spelledAccount.classText s' = .ok text := h ▸ rfl
  exact ⟨by decide, hm, hm', text, h, h', (classText_injective hm hm' h h').2⟩

end Model

end ModelCompiler
