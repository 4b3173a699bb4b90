import ModelCompiler.Proofs.Conformity
import ModelCompiler.Proofs.ReferenceGraph

/-!
# Running generated validators

The validators of a classification are read as a program (`Validator.Returns`): a validator returns the root when its
guard rejects the input, and otherwise the names of the clauses whose conjuncts all hold. A conjunct by a guard holds
when the guard's type rejects the field's value; a conjunct by a model holds when the validator of that model, found by
the name of its class, returns a list that is not empty.

* **Text** (`Validator.lines`, `Model.document_classLayout`): what is read so stands at the end of the class of the
  model, a line for the guard, for each conjunct and for each name that is pushed.
* **One list** (`Returns.unique`): a validator returns at most one list on a value.
* **Simulation** (`returns_report`): on every value the validator of a model returns the report of the model. The
  induction is on the value; a clause and its field are matched conjunct by alternative (`all_holds_eq`).
-/

namespace ModelCompiler

/-! ## The text of a validator -/

/-- A conjunct of the clause of a field. -/
def Rejection.text (field : String) : Rejection → String
  | .byGuard b => "!(" ++ b.guard ++ ")(input." ++ field ++ ")"
  | .byModel name => name ++ ".isDataModelTest(input." ++ field ++ ").length !== 0"

/-- The lines of a clause: its conjuncts, all but the last with an operator behind them, and what it pushes. -/
def Clause.lines (c : Clause) : List String :=
  let conjuncts := c.rejections.map (Rejection.text c.field)
  "    if (" :: (conjuncts.dropLast.map (· ++ " &&") ++ conjuncts.getLast?.toList).map ("      " ++ ·) ++
    ["    ) \x7b", "      output.push('" ++ c.field ++ "');", "    \x7d"]

/-- The lines of a validator. -/
def Validator.lines (v : Validator) : List String :=
  ["  static isDataModelTest(input: unknown): string[] \x7b",
   "    if (!(" ++ v.root.guard ++ ")(input)) \x7b",
   "      return ['root'];",
   "    \x7d",
   "    const output: string[] = [];"] ++
  v.clauses.flatMap Clause.lines ++
  ["    return output;", "  \x7d"]

/-- The members of a class before its validator. -/
def Model.otherMembers (m : Model) : List Layout :=
  m.constructorLayout :: m.getterLayouts ++
    [.blank, m.toJsonLayout, .blank, m.fromJsonLayout, .blank, m.isDataModelLayout, .blank]

/-- The lines of a class. -/
def Model.classLines (m : Model) (v : Validator) : List String :=
  ("export class " ++ m.name ++ " \x7b") :: Layout.linesOf m.otherMembers 1 ++ v.lines ++ ["\x7d"]

theorem Rejection.source_eq_text (field : String) : Rejection.source field = Rejection.text field := by
  funext r
  cases r <;> rfl

theorem Rejection.text_ne_empty (field : String) (r : Rejection) : r.text field ≠ "" := by
  cases r <;> simp [text]

namespace Clause

theorem conjunction_eq : ∀ conditions : List String,
    conjunction conditions = conditions.dropLast.map (· ++ " &&") ++ conditions.getLast?.toList
  | [] => rfl
  | [_] => rfl
  | condition :: next :: conditions => by
    show (condition ++ " &&") :: conjunction (next :: conditions) = _
    rw [conjunction_eq (next :: conditions)]
    simp

theorem not_mem_conjunction {conditions : List String} (h : "" ∉ conditions) : "" ∉ conjunction conditions := by
  rw [conjunction_eq, List.mem_append, List.mem_map]
  rintro (⟨condition, -, he⟩ | hlast)
  · simp at he
  · exact h (List.mem_of_getLast? (Option.mem_toList.mp hlast))

theorem linesOf_layout (c : Clause) : Layout.linesOf c.layout 2 = c.lines := by
  have hne : "" ∉ c.rejections.map (Rejection.text c.field) := by
    intro hmem
    obtain ⟨r, -, he⟩ := List.mem_map.mp hmem
    exact r.text_ne_empty c.field he
  have hconjuncts : Layout.linesOf ((conjunction (c.rejections.map (Rejection.text c.field))).map .line) (2 + 1) =
      (conjunction (c.rejections.map (Rejection.text c.field))).map ("      " ++ ·) := by
    rw [Layout.linesOf_map_line]
    refine List.map_congr_left fun text htext => if_neg ?_
    rw [String.isEmpty_iff]
    rintro rfl
    exact not_mem_conjunction hne htext
  have hpush : Layout.lines (.block none (some "\x7d") true [.line ("output.push('" ++ c.field ++ "');")]) 2 =
      ["      output.push('" ++ c.field ++ "');", "    \x7d"] := by
    simp [Layout.lines, Layout.linesOf, Layout.inner, Layout.indent, ← String.toList_inj]
  have hopening : Layout.indent 2 "if (" = "    if (" := by decide
  have hclosing : Layout.indent 2 ") \x7b" = "    ) \x7b" := by decide
  rw [layout, Rejection.source_eq_text, Layout.linesOf, Layout.linesOf, Layout.lines_between, hconjuncts,
    conjunction_eq, hpush, hopening, hclosing, lines, Layout.linesOf, List.append_nil, List.append_assoc]
  rfl

end Clause

theorem Validator.lines_layout (v : Validator) : Layout.lines v.layout 1 = v.lines := by
  have hopening : Layout.indent 1 ("static isDataModelTest(input: unknown): string[]" ++ " \x7b") =
      "  static isDataModelTest(input: unknown): string[] \x7b" := by decide
  have hroot : Layout.linesOf [.braced ("if (!(" ++ v.root.guard ++ ")(input))")
        [.line ("return ['" ++ rootFailure ++ "'];")], .line "const output: string[] = [];"] (1 + 1) =
      ["    if (!(" ++ v.root.guard ++ ")(input)) \x7b", "      return ['root'];", "    \x7d",
        "    const output: string[] = [];"] := by
    simp [Layout.lines_braced, Layout.lines, Layout.linesOf, Layout.indent, rootFailure, ← String.toList_inj]
  have hclauses : Layout.linesOf (v.clauses.flatMap Clause.layout) (1 + 1) = v.clauses.flatMap Clause.lines := by
    rw [Layout.linesOf_flatMap]
    exact List.flatMap_congr fun c _ => c.linesOf_layout
  have hend : Layout.linesOf [.line "return output;"] (1 + 1) = ["    return output;"] := by decide
  have hclosing : Layout.indent 1 "\x7d" = "  \x7d" := by decide
  rw [layout, Layout.lines_braced, Layout.linesOf_append, Layout.linesOf_append, hroot, hclauses, hend, hopening,
    hclosing, lines, List.append_assoc]
  simp

/-- The text of a class is made of its lines. -/
theorem Model.document_classLayout (m : Model) (v : Validator) :
    Layout.document [m.classLayout v] = "\n".intercalate (m.classLines v) := by
  have hindent : ∀ text, Layout.indent 0 text = text := fun text => String.empty_append
  have hmembers : Layout.linesOf (m.otherMembers ++ [v.layout]) (0 + 1) =
      Layout.linesOf m.otherMembers 1 ++ v.lines := by
    rw [Layout.linesOf_append, Layout.linesOf, Layout.linesOf, List.append_nil]
    exact congrArg _ v.lines_layout
  have hclass : m.classLayout v = .braced ("export class " ++ m.name) (m.otherMembers ++ [v.layout]) := by
    simp [classLayout, otherMembers]
  rw [hclass, Layout.document, Layout.linesOf, Layout.lines_braced, hmembers, hindent, hindent, classLines,
    Layout.linesOf, List.append_nil]
  simp only [List.cons_append]

/-! ## The meaning of a validator -/

/-- Whether a conjunct holds for a field's value, given what the validators of the other modules return on it. -/
def Rejection.holds (value : Value) (returned : String → List String) : Rejection → Bool
  | .byGuard b => !b.accepts value
  | .byModel name => !(returned name).isEmpty

/-- Whether all conjuncts of a clause hold for an input. -/
def Clause.holds (input : Value) (returned : String → Value → List String) (c : Clause) : Bool :=
  c.rejections.all (Rejection.holds (input.member c.field) fun name => returned name (input.member c.field))

namespace Validator

/-- The names that the clauses push, given what the validators of the other modules return. -/
def pushed (v : Validator) (input : Value) (returned : String → Value → List String) : List String :=
  (v.clauses.filter (Clause.holds input returned)).map Clause.field

/-- A validator asks the validator of a model about the value of a field. -/
def Asks (v : Validator) (field name : String) : Prop := ∃ c ∈ v.clauses, c.field = field ∧ .byModel name ∈ c.rejections

/-- What a call of a validator returns, where `modules` has the validators by the names of their classes. -/
inductive Returns (modules : String → Option Validator) : Validator → Value → List String → Prop
  | root {v : Validator} {input : Value} (rejected : v.root.accepts input = false) :
      Returns modules v input [rootFailure]
  | clauses {v : Validator} {members : List (String × Value)} (callee : String → Validator)
      (returned : String → Value → List String) (accepted : v.root.accepts (.object members) = true)
      (resolved : ∀ field name, v.Asks field name → modules name = some (callee name))
      (calls : ∀ field name, v.Asks field name →
        Returns modules (callee name) ((Value.object members).member field)
          (returned name ((Value.object members).member field))) :
      Returns modules v (.object members) (v.pushed (.object members) returned)

end Validator

/-- The generated validators by the names of their classes. -/
def Scope.validators (s : Scope) (name : String) : Option Validator :=
  (s.classification.models.find? fun m => m.name = name).bind fun m => (Validator.ofModel s m).toOption

/-! ## One list -/

namespace Validator

variable {modules : String → Option Validator}

/-- What is pushed depends on the lists that are asked for only. -/
theorem pushed_congr {v : Validator} {input : Value} {r₁ r₂ : String → Value → List String}
    (h : ∀ field name, v.Asks field name → r₁ name (input.member field) = r₂ name (input.member field)) :
    v.pushed input r₁ = v.pushed input r₂ := by
  unfold pushed
  congr 1
  refine List.filter_congr fun c hc => ?_
  unfold Clause.holds
  rw [Bool.eq_iff_iff, List.all_eq_true, List.all_eq_true]
  refine forall₂_congr fun r hr => ?_
  cases r with
  | byGuard b => rfl
  | byModel name => simp only [Rejection.holds, h c.field name ⟨c, hc, rfl, hr⟩]

/-- A validator returns at most one list. -/
theorem Returns.unique {v : Validator} {input : Value} {a b : List String} (ha : Returns modules v input a)
    (hb : Returns modules v input b) : a = b := by
  induction ha generalizing b with
  | root rejected =>
    cases hb with
    | root => rfl
    | clauses _ _ accepted => rw [rejected] at accepted; cases accepted
  | clauses _ _ accepted resolved _ ih =>
    cases hb with
    | root rejected => rw [rejected] at accepted; cases accepted
    | clauses _ _ _ resolved' calls' =>
      refine pushed_congr fun field name hask => ih field name hask ?_
      have hcallee := resolved field name hask
      rw [resolved' field name hask] at hcallee
      exact Option.some.inj hcallee ▸ calls' field name hask

end Validator

/-! ## Conjuncts and alternatives -/

section Simulation

variable {s : Scope}

/-- What the model of a name reports on a value. -/
def Scope.reportOf (s : Scope) (name : String) (value : Value) : List String :=
  ((s.model? name).map fun m => s.report m value).getD []

/-- A conjunct holds when its alternative does not admit the value. -/
theorem Rejection.holds_eq {type model field : String} {r : Rejection}
    (hr : Rejection.resolve s type model field = .ok r) (value : Value) :
    r.holds value (fun name => s.reportOf name value) = !s.admits value type := by
  unfold resolve at hr
  unfold Scope.admits
  cases hm : s.model? type with
  | some m =>
    have hmodel : s.isModel type = true := Classification.isModel_iff_model?.mpr ⟨m, hm⟩
    rw [if_pos hmodel] at hr
    cases hr
    simp [holds, Scope.reportOf, hm]
  | none =>
    have hmodel : s.isModel type = false := Classification.isModel_eq_false_of_model? hm
    rw [if_neg (Bool.eq_false_iff.mp hmodel)] at hr
    cases hb : s.builtIns.get? type with
    | none => rw [hb] at hr; cases hr
    | some b =>
      rw [hb] at hr
      cases hr
      rfl

theorem all_holds_eq {model field : String} {value : Value} : ∀ {types : List String} {rs : List Rejection},
    List.Forall₂ (fun t r => Rejection.resolve s t model field = .ok r) types rs →
      rs.all (Rejection.holds value fun name => s.reportOf name value) = !types.any (s.admits value)
  | _, _, .nil => rfl
  | _, _, .cons hr hrest => by
    rw [List.all_cons, List.any_cons, Rejection.holds_eq hr, all_holds_eq hrest, Bool.not_or]

/-- All conjuncts of a clause hold when no alternative of the field admits the value. -/
theorem Clause.holds_eq {model : String} {f : Field} {c : Clause} (hc : Clause.ofField s model f = .ok c)
    (input : Value) : c.holds input s.reportOf = !f.types.any (s.admits (input.member f.name)) := by
  obtain ⟨hfield, hrs⟩ := Clause.ofField_eq_ok_iff.mp hc
  rw [holds, hfield]
  exact all_holds_eq hrs

theorem filter_holds_eq {model : String} {input : Value} : ∀ {fields : List Field} {cs : List Clause},
    List.Forall₂ (fun f c => Clause.ofField s model f = .ok c) fields cs →
      (cs.filter (Clause.holds input s.reportOf)).map Clause.field =
        (fields.filter fun f => !f.types.any (s.admits (input.member f.name))).map Field.name
  | _, _, .nil => rfl
  | f :: _, _, .cons hc hrest => by
    rw [List.filter_cons, List.filter_cons, Clause.holds_eq hc]
    cases f.types.any (s.admits (input.member f.name)) with
    | true => exact filter_holds_eq hrest
    | false =>
      simp only [Bool.not_false, if_true, List.map_cons, (Clause.ofField_eq_ok_iff.mp hc).1, filter_holds_eq hrest]

namespace Validator

variable {m : Model} {v : Validator}

/-- The names that the clauses push are those of the fields that fail. -/
theorem pushed_eq (hv : Validator.ofModel s m = .ok v) (input : Value) : v.pushed input s.reportOf =
    (m.fields.items.filter fun f => !f.types.any (s.admits (input.member f.name))).map Field.name :=
  filter_holds_eq (ofModel_eq_ok_iff.mp hv).2

/-! ## The simulation -/

/-- A validator asks validators of models only. -/
theorem Asks.isModel (hv : Validator.ofModel s m = .ok v) {field name : String} (h : v.Asks field name) :
    s.isModel name = true := by
  obtain ⟨c, hc, -, hr⟩ := h
  obtain ⟨f, -, hf⟩ := Results.exists_left_of_mem (ofModel_eq_ok_iff.mp hv).2 hc
  obtain ⟨type, -, htype⟩ := Results.exists_left_of_mem (Clause.ofField_eq_ok_iff.mp hf).2 hr
  unfold Rejection.resolve at htype
  split at htype
  · rename_i hmodel
    cases htype
    exact hmodel
  · split at htype <;> cases htype

theorem validators_eq (hd : s.classification.Disjoint) (hm : m ∈ s.classification.models)
    (hv : Validator.ofModel s m = .ok v) : s.validators m.name = some v := by
  have hfind : (s.classification.models.find? fun m' => m'.name = m.name) = some m := by
    cases h : s.classification.models.find? fun m' => m'.name = m.name with
    | none => simpa using List.find?_eq_none.mp h m hm
    | some m' =>
      have hname : m'.name = m.name := by simpa using List.find?_some h
      have h₁ := (Classification.model?_eq_some_iff hd).mpr ⟨List.mem_of_find?_eq_some h, hname⟩
      rw [(Classification.model?_eq_some_iff hd).mpr ⟨hm, rfl⟩] at h₁
      exact h₁.symm
  rw [Scope.validators, hfind, Option.bind_some, hv]
  rfl

/-- On every value the validator of a model returns the report of the model. -/
theorem returns_report (hs : s.Sound) (hd : s.classification.Disjoint) (value : Value) :
    ∀ m ∈ s.classification.models, ∀ v, Validator.ofModel s m = .ok v →
      v.Returns s.validators value (s.report m value) := by
  induction value using Value.member_induction with
  | other value hv =>
    intro m hm v hof
    rw [Scope.report_other hs.closed (hs.settles hm) hv]
    refine .root (Bool.eq_false_iff.mpr fun h => ?_)
    obtain ⟨members, rfl⟩ := hs.objectsOnly v.root (ofModel_eq_ok_iff.mp hof).1 value h
    exact hv members rfl
  | object members ih =>
    intro m hm v hof
    have hroot := (ofModel_eq_ok_iff.mp hof).1
    rw [Scope.report_object hs.closed (hs.settles hm) hroot]
    cases haccepts : v.root.accepts (.object members) with
    | false => exact .root haccepts
    | true =>
      -- every validator that is asked is that of a model of the classification
      have hasked : ∀ field name, v.Asks field name → ∃ m' ∈ s.classification.models, m'.name = name ∧
          s.model? name = some m' ∧ ∃ v', Validator.ofModel s m' = .ok v' ∧ s.validators name = some v' := by
        intro field name hask
        obtain ⟨m', hm'⟩ := Classification.isModel_iff_model?.mp (hask.isModel hof)
        obtain ⟨hmem, rfl⟩ := Classification.mem_of_model? hm'
        obtain ⟨v', hv'⟩ := exists_ofModel_iff.mpr ⟨hs.root m' hmem, hs.knows m' hmem⟩
        exact ⟨m', hmem, rfl, hm', v', hv', validators_eq hd hmem hv'⟩
      rw [if_pos rfl, ← pushed_eq hof]
      refine .clauses (fun name => (s.validators name).getD v) s.reportOf haccepts ?_ ?_
      · intro field name hask
        obtain ⟨_, _, _, _, v', _, hv'⟩ := hasked field name hask
        simp [hv']
      · intro field name hask
        obtain ⟨m', hmem, _, hm', v', hof', hv'⟩ := hasked field name hask
        simpa [hv', Scope.reportOf, hm'] using ih field m' hmem v' hof'

/-- **Generated and direct validation agree**: where the object type accepts plain objects only and every model has a
class, the class of a model ends with the lines of a validator that returns one list on every value, the fields of the
value that do not conform to the model. -/
theorem returns_iff_failures (hd : s.classification.Disjoint) (ho : s.builtIns.ObjectsOnly)
    (hclass : ∀ m ∈ s.classification.models, ∃ text, m.classText s = .ok text) :
    ∀ m ∈ s.classification.models, ∃ v, Validator.ofModel s m = .ok v ∧
      m.classText s = .ok ("\n".intercalate (m.classLines v)) ∧
      ∀ value, ∃ names, s.failures m value = .ok names ∧
        ∀ output, v.Returns s.validators value output ↔ output = names := by
  intro m hm
  have hs := Scope.sound_of_classText ho hclass
  obtain ⟨v, hv⟩ := exists_ofModel_iff.mpr ⟨hs.root m hm, hs.knows m hm⟩
  refine ⟨v, hv, Model.classText_eq_ok_iff.mpr ⟨v, hv, m.document_classLayout v⟩, fun value => ?_⟩
  have hreturns := returns_report hs hd value m hm v hv
  refine ⟨s.report m value, Scope.failures_eq_report hs value m hm, fun output => ⟨fun h => h.unique hreturns, ?_⟩⟩
  rintro rfl
  exact hreturns

/-- A chain whose link holds a chain that neither goes on nor ends: the inner fault is reported at the outer field. -/
theorem returns_iff_failures_chains :
    let s : Scope := ⟨⟨Keyed.empty, Sample.chains⟩, .standard⟩
    let value : Value := .object [("rest", .object [("size", .int 1), ("chain", .object [("rest", .null)])])]
    s.classification.Disjoint ∧ s.builtIns.ObjectsOnly ∧
      (∀ m ∈ s.classification.models, ∃ text, m.classText s = .ok text) ∧ Sample.chain ∈ s.classification.models ∧
      ∃ v, Validator.ofModel s Sample.chain = .ok v ∧ v.Returns s.validators value ["rest"] := by
  intro s value
  have hd : s.classification.Disjoint := fun name h => by simp [s, Keyed.contains, Keyed.empty] at h
  have hclass : ∀ m ∈ s.classification.models, ∃ text, m.classText s = .ok text := by
    intro m (hm : m ∈ [Sample.link, Sample.chain])
    obtain rfl | rfl : m = Sample.link ∨ m = Sample.chain := by simpa using hm
    · exact ⟨_, rfl⟩
    · exact ⟨_, rfl⟩
  have hm : Sample.chain ∈ s.classification.models := List.mem_cons_of_mem _ List.mem_cons_self
  obtain ⟨v, hv, -, h⟩ := returns_iff_failures hd Universe.objectsOnly_standard hclass Sample.chain hm
  obtain ⟨names, hnames, houtput⟩ := h value
  have hfailures : s.failures Sample.chain value = .ok ["rest"] := rfl
  rw [hfailures] at hnames
  exact ⟨hd, Universe.objectsOnly_standard, hclass, hm, v, hv, (houtput ["rest"]).mpr (Except.ok.inj hnames)⟩

end Validator

end Simulation

end ModelCompiler
