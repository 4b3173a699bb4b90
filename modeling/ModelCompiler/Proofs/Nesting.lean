import ModelCompiler.Proofs.Brackets
import ModelCompiler.Proofs.Compiled

/-!
# Nesting of generated modules

When the names of a model have neither brackets nor white space and the guards of the built-in types are single lines
with balanced brackets, the text of the model's module is nested (`SourceModule.nested_of_rendered`).

* **Layouts**: each layout of a module is balanced, by one lemma for each of them. A line is a chain of literals, whose
  brackets are read off, and of names and guards, which leave the brackets as they are.
* **Parts** (`SourceModule.contents_map_document`): the parts of a module are one document with empty lines between
  them.
-/

namespace ModelCompiler

open Brackets Layout

/-! ## Names and guards -/

/-- The guards of the built-in types are single lines with balanced brackets. -/
def Universe.GuardsBalanced (u : Universe) : Prop :=
  ∀ b ∈ u.scalars.items ++ u.objects.items, '\n' ∉ b.guard.toList ∧ read [] b.guard.toList = some []

theorem Universe.guardsBalanced_iff {u : Universe} :
    u.GuardsBalanced ↔ ∀ b ∈ u.scalars.items ++ u.objects.items, Phrase [] [] b.guard :=
  forall₂_congr fun _ _ => phrase_iff.symm

namespace BuiltIn

variable {name type body : String}

theorem phrase_guardSource (htype : Phrase [] [] type) (hbody : Phrase [] [] body) :
    Phrase [] [] (guardSource type body) :=
  (((Phrase.literal rfl).add htype).add (.literal rfl)).add hbody

theorem phrase_instanceGuard (hname : Plain name) (htype : Plain type) : Phrase [] [] (instanceGuard name type) :=
  phrase_guardSource (htype.phrase []) ((Phrase.literal rfl).add (hname.phrase []))

theorem phrase_typeofGuard (htype : Plain type) : Phrase [] [] (typeofGuard type) :=
  phrase_guardSource (htype.phrase []) (((Phrase.literal rfl).add (htype.phrase [])).add (.literal rfl))

theorem phrase_scalars : ∀ b ∈ scalars, Phrase [] [] b.guard := by
  simp only [scalars, List.forall_mem_cons]
  exact ⟨phrase_typeofGuard (by decide), phrase_instanceGuard (by decide) (by decide), phrase_typeofGuard (by decide),
    phrase_instanceGuard (by decide) (by decide), phrase_typeofGuard (by decide),
    phrase_instanceGuard (by decide) (by decide), phrase_typeofGuard (by decide), phrase_typeofGuard (by decide),
    phrase_guardSource (.literal rfl) (.literal rfl), phrase_guardSource (.literal rfl) (.literal rfl), by simp⟩

theorem phrase_objects : ∀ b ∈ objects, Phrase [] [] b.guard := by
  simp only [objects, List.forall_mem_cons]
  exact ⟨phrase_instanceGuard (by decide) (by decide), phrase_instanceGuard (by decide) (by decide),
    phrase_guardSource (.literal rfl) (.literal rfl), phrase_guardSource (.literal rfl) (.literal rfl), by simp⟩

end BuiltIn

theorem Universe.guardsBalanced_standard : Universe.standard.GuardsBalanced :=
  guardsBalanced_iff.mpr (List.forall_mem_append.mpr ⟨BuiltIn.phrase_scalars, BuiltIn.phrase_objects⟩)

/-- The name of the field and the names of its types are plain. -/
def Field.PlainNames (f : Field) : Prop := Plain f.name ∧ ∀ type ∈ f.types, Plain type

instance (f : Field) : Decidable f.PlainNames := inferInstanceAs (Decidable (_ ∧ ∀ type ∈ f.types, Plain type))

/-- The names of the model, of its fields and of their types have neither brackets nor white space. -/
structure Model.PlainNames (m : Model) : Prop where
  name : Plain m.name
  fields : ∀ f ∈ m.fields.items, f.PlainNames

namespace Field.PlainNames

variable {f : Field}

theorem backingName (h : f.PlainNames) : Plain f.backingName := by
  unfold Field.backingName
  split
  · exact h.1
  · exact .append (by decide) h.1

theorem unionText (h : f.PlainNames) : Phrase [] [] f.unionText :=
  .intercalate (.literal rfl) fun type htype => (h.2 type htype).phrase []

end Field.PlainNames

theorem Model.PlainNames.interfaceName {m : Model} (h : m.PlainNames) : Plain (interfaceName m.name) :=
  h.name.append (by decide)

variable {s : Scope} {m : Model}

/-! ## Validators -/

theorem Rejection.sentence_source {model field type : String} {r : Rejection} (hu : s.builtIns.GuardsBalanced)
    (hfield : Plain field) (htype : Plain type) (h : Rejection.resolve s type model field = .ok r) :
    Sentence [] [] (r.source field) := by
  unfold Rejection.resolve at h
  split at h
  · cases h
    exact (((Sentence.literal rfl).after_plain htype).add (hfield.phrase [')'])).add (.literal rfl)
  · split at h
    · rename_i b hb
      cases h
      have hguard := (Universe.guardsBalanced_iff.mp hu b (Universe.mem_of_get? hb).1).inside [')']
      exact ((((Sentence.literal rfl).add hguard).add (.literal rfl)).add (hfield.phrase [')'])).add (.literal rfl)
    · cases h

namespace Clause

theorem sentence_conjunction : ∀ {conditions : List String}, (∀ condition ∈ conditions, Sentence [] [] condition) →
    ∀ line ∈ conjunction conditions, Sentence [] [] line
  | [], _ => by simp [conjunction]
  | [condition], h => h
  | condition :: next :: conditions, h => by
    obtain ⟨hcondition, hrest⟩ := List.forall_mem_cons.mp h
    exact List.forall_mem_cons.mpr ⟨hcondition.add (.literal rfl), sentence_conjunction hrest⟩

/-- The clause of a field is a pair of blocks that share a line. -/
theorem balanced_layout {model : String} {f : Field} {c : Clause} (hu : s.builtIns.GuardsBalanced)
    (hf : f.PlainNames) (h : Clause.ofField s model f = .ok c) : Balanced c.layout := by
  obtain ⟨hname, hrejections⟩ := ofField_eq_ok_iff.mp h
  have hfield : Plain c.field := hname ▸ hf.1
  have hconditions : ∀ condition ∈ c.rejections.map (Rejection.source c.field), Sentence [] [] condition := by
    intro condition hcondition
    obtain ⟨r, hr, rfl⟩ := List.mem_map.mp hcondition
    obtain ⟨type, htype, hresolve⟩ := Results.exists_left_of_mem hrejections hr
    rw [hname]
    exact Rejection.sentence_source hu hf.1 (hf.2 type htype) hresolve
  have hconjunction : Balanced ((conjunction (c.rejections.map (Rejection.source c.field))).map .line) :=
    .map_line (f := id) (sentence_conjunction hconditions)
  exact .between_block (.literal rfl) hconjunction (.literal rfl) (.line (.around rfl hfield rfl)) (.literal rfl)

end Clause

theorem Validator.balanced_layout {v : Validator} (hu : s.builtIns.GuardsBalanced) (hm : m.PlainNames)
    (h : Validator.ofModel s m = .ok v) : Balanced [v.layout] := by
  obtain ⟨hroot, hclauses⟩ := Validator.ofModel_eq_ok_iff.mp h
  -- The guard stands inside the brackets of the condition and of its own.
  have hguard : Phrase [')', ')'] [')', ')'] v.root.guard :=
    (Universe.guardsBalanced_iff.mp hu _ (List.mem_append_right _ (Keyed.get?_eq_some_iff.mp hroot).1)).inside _
  have hclause : ∀ c ∈ v.clauses, Balanced c.layout := by
    intro c hc
    obtain ⟨f, hf, hfield⟩ := Results.exists_left_of_mem hclauses hc
    exact Clause.balanced_layout hu (hm.fields f hf) hfield
  have htest : Sentence [] [] ("if (!(" ++ v.root.guard ++ ")(input))") :=
    ((Sentence.literal rfl).add hguard).add (.literal rfl)
  have hstart : Balanced
      [.braced ("if (!(" ++ v.root.guard ++ ")(input))") [.line ("return ['" ++ rootFailure ++ "'];")],
       .line "const output: string[] = [];"] :=
    .cons (.braced htest (.line (.literal rfl))) (.line (.literal rfl))
  exact .braced (.literal rfl) ((hstart.append (.flatMap hclause)).append (.line (.literal rfl)))

/-! ## Imports, interface and class -/

namespace Model

theorem balanced_importLines (c : Classification) (h : m.PlainNames) : Balanced ((m.importLines c).map .line) := by
  refine .map_line (f := id) fun line hline => ?_
  unfold importLines at hline
  split at hline
  · obtain ⟨⟨_, type⟩, hreference, rfl⟩ := List.mem_map.mp hline
    obtain ⟨f, hf, -, htype⟩ := Model.mem_references.mp (List.mem_filter.mp hreference).1
    have hplain : Plain type := (h.fields f hf).2 type htype
    have hmodule : Plain (moduleSpecifier type) := ((by decide : Plain "./").append hplain).append (by decide)
    exact ((Sentence.around rfl hplain rfl).add (hmodule.phrase [])).add (.literal rfl)
  · cases hline

/-- The declaration of the interface. -/
theorem balanced_interface (h : m.PlainNames) : Balanced [.braced ("export interface " ++ interfaceName m.name)
    (m.fields.items.map fun f => .line (f.name ++ ": " ++ f.unionText ++ ";"))] := by
  refine .braced ((Sentence.literal rfl).add (h.interfaceName.phrase [])) (.map_line fun f hf => ?_)
  have hnames := h.fields f hf
  exact (((Sentence.literal rfl).after_plain hnames.1).add hnames.unionText).add (.literal rfl)

theorem balanced_constructorLayout (h : m.PlainNames) : Balanced [m.constructorLayout] := by
  refine .between (.literal rfl) (.map_line fun f hf => ?_) (.literal rfl)
  have hnames := h.fields f hf
  have hkeyword : Sentence [] [] (f.visibility.keyword ++ " ") := by cases f.visibility <;> exact .literal rfl
  exact (((hkeyword.add (hnames.backingName.phrase [])).add (.literal rfl)).add hnames.unionText).add (.literal rfl)

theorem balanced_getterLayouts (h : m.PlainNames) : Balanced m.getterLayouts := by
  refine .flatMap fun f hf => ?_
  have hnames := h.fields f (List.mem_filter.mp hf).1
  have hheader : Sentence [] [] ("get " ++ f.name ++ "(): " ++ f.unionText) :=
    (Sentence.around rfl hnames.1 rfl).add hnames.unionText
  exact Balanced.blank.cons (.braced hheader (.line (.around rfl hnames.backingName rfl)))

theorem balanced_toJsonLayout (h : m.PlainNames) : Balanced [m.toJsonLayout] := by
  refine .braced ((Sentence.literal rfl).add (h.interfaceName.phrase [])) ?_
  refine .between (.literal rfl) (.map_line fun f hf => ?_) (.literal rfl)
  have hname := (h.fields f hf).1
  exact (((Sentence.literal rfl).after_plain hname).add (hname.phrase [])).add (.literal rfl)

theorem balanced_fromJsonLayout (h : m.PlainNames) : Balanced [m.fromJsonLayout] := by
  have hheader : Sentence [] [] ("static fromJSON(input: " ++ interfaceName m.name ++ "): " ++ m.name) :=
    (Sentence.around rfl h.interfaceName rfl).add (h.name.phrase [])
  have harguments : Balanced (m.fields.items.map fun f => .line ("input." ++ f.name ++ ",")) :=
    .map_line fun f hf => .around rfl (h.fields f hf).1 rfl
  refine .braced hheader (.cons (.braced (.around rfl h.name rfl) (.line (.around rfl h.name rfl))) ?_)
  exact .between (.around rfl h.name rfl) harguments (.literal rfl)

theorem balanced_isDataModelLayout (h : m.PlainNames) : Balanced [m.isDataModelLayout] :=
  .braced ((Sentence.literal rfl).add (h.name.phrase [])) (.line (.around rfl h.name rfl))

theorem balanced_classLayout {v : Validator} (h : m.PlainNames) (hv : Balanced [v.layout]) :
    Balanced [m.classLayout v] := by
  have hmembers : Balanced
      [.blank, m.toJsonLayout, .blank, m.fromJsonLayout, .blank, m.isDataModelLayout, .blank, v.layout] :=
    .cons .blank <| .cons (balanced_toJsonLayout h) <| .cons .blank <| .cons (balanced_fromJsonLayout h) <|
      .cons .blank <| .cons (balanced_isDataModelLayout h) <| .cons .blank hv
  exact .braced ((Sentence.literal rfl).add (h.name.phrase []))
    (((balanced_constructorLayout h).cons (balanced_getterLayouts h)).append hmembers)

end Model

/-! ## The text of a module -/

namespace Layout

theorem linesOf_ne_nil {layouts : List Layout} (h : document layouts ≠ "") : linesOf layouts 0 ≠ [] :=
  fun hlines => h (congrArg ("\n".intercalate ·) hlines)

theorem linesOf_intercalate_ne_nil {part : List Layout} (h : document part ≠ "") (parts : List (List Layout)) :
    linesOf ([.blank].intercalate (part :: parts)) 0 ≠ [] := by
  cases parts with
  | nil =>
    rw [List.intercalate_singleton]
    exact linesOf_ne_nil h
  | cons next parts =>
    rw [List.intercalate_cons_cons, List.append_assoc, linesOf_append]
    exact List.append_ne_nil_of_left_ne_nil (linesOf_ne_nil h) _

/-- Documents with an empty line between them are one document. -/
theorem intercalate_map_document : ∀ {parts : List (List Layout)}, (∀ part ∈ parts, document part ≠ "") →
    "\n\n".intercalate (parts.map document) = document ([.blank].intercalate parts)
  | [], _ => rfl
  | [part], _ => by rw [List.map_singleton, String.intercalate_singleton, List.intercalate_singleton]
  | part :: next :: parts, h => by
    obtain ⟨hpart, hrest⟩ := List.forall_mem_cons.mp h
    have hlines := linesOf_ne_nil hpart
    have hnext := linesOf_intercalate_ne_nil (hrest next List.mem_cons_self) parts
    -- Two line feeds are what a line without text adds between its neighbours.
    have hfeeds : "\n\n" = "\n" ++ ("" ++ "\n") := rfl
    calc "\n\n".intercalate (document part :: document next :: parts.map document)
        = document part ++ "\n\n" ++ document ([.blank].intercalate (next :: parts)) := by
          rw [String.intercalate_cons_cons, ← List.map_cons, intercalate_map_document hrest]
      _ = "\n".intercalate (linesOf part 0 ++ ([""] ++ linesOf ([.blank].intercalate (next :: parts)) 0)) := by
          rw [String.intercalate_append_of_ne_nil hlines (by simp), String.intercalate_append_of_ne_nil (by simp) hnext,
            String.intercalate_singleton, hfeeds]
          simp only [document, String.append_assoc]
      _ = document ([.blank].intercalate (part :: next :: parts)) := by
          rw [List.intercalate_cons_cons, List.append_assoc, document, linesOf_append, linesOf_append]
          rfl

end Layout

namespace SourceModule

theorem contents_map_document (parts : List (List Layout)) : contents (parts.map document) =
    document ([.blank].intercalate (parts.filter fun part => !(document part).isEmpty)) := by
  rw [contents, List.filter_map]
  refine intercalate_map_document fun part hpart => ?_
  simpa using (List.mem_filter.mp hpart).2

theorem nested_contents {parts : List (List Layout)} (h : ∀ part ∈ parts, Balanced part) :
    Nested (contents (parts.map document)) := by
  rw [contents_map_document]
  exact (Balanced.intercalate .blank fun part hpart => h part (List.mem_of_mem_filter hpart)).nested

/-- **Modules are nested**: the guards of the standard types are single lines with balanced brackets. Where all guards
are, and the names of a model have neither brackets nor white space, the text of the model's module is nested. -/
theorem nested_of_rendered : Universe.standard.GuardsBalanced ∧ ∀ {s : Scope} {m : Model} {x : SourceModule},
    s.builtIns.GuardsBalanced → m.PlainNames → (SourceModule.ofModel s m).result = .ok x → Nested x.text := by
  refine ⟨Universe.guardsBalanced_standard, fun {s m x} hu hm h => ?_⟩
  obtain ⟨classText, hclass, rfl⟩ := SourceModule.result_ofModel_eq_ok_iff.mp h
  obtain ⟨v, hv, rfl⟩ := Model.classText_eq_ok_iff.mp hclass
  have himports := Model.balanced_importLines s.classification hm
  have hinterface := Model.balanced_interface hm
  have hclass := Model.balanced_classLayout hm (Validator.balanced_layout hu hm hv)
  have hparts := List.forall_mem_cons.mpr ⟨himports, List.forall_mem_cons.mpr ⟨hinterface,
    List.forall_mem_singleton.mpr hclass⟩⟩
  exact nested_contents hparts

theorem nested_of_rendered_link :
    let s : Scope := ⟨⟨Keyed.empty, Sample.chains⟩, .standard⟩
    ∃ x, s.builtIns.GuardsBalanced ∧ Sample.link.PlainNames ∧ (SourceModule.ofModel s Sample.link).result = .ok x ∧
      Nested x.text := by
  intro s
  have hm : Sample.link.PlainNames := ⟨by decide, by decide⟩
  obtain ⟨x, hx⟩ : ∃ x, (SourceModule.ofModel s Sample.link).result = .ok x := ⟨_, rfl⟩
  exact ⟨x, nested_of_rendered.1, hm, hx, nested_of_rendered.2 nested_of_rendered.1 hm hx⟩

end SourceModule

end ModelCompiler
