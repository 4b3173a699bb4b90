import ModelCompiler.Proofs.Resolution

/-!
# Names of class members

The class of a model has a constructor parameter for each field, which is a property of the class, and a getter for each
field that is not public (`classText_eq`). A public field gives its name to its parameter and any other field to its
getter, while the parameter of that one has an underscore before the name. All of them share one namespace.

* **Distinct names** (`distinct_of_free`, `free_of_distinct`): the members are named apart exactly when no field has the
  name of a field that is not public with an underscore before it.
* **Reading** (`reads_name_iff`, `free_of_reads`): this is also when the name of each field comes to one argument of the
  constructor, that of the field. A clash makes two fields share a parameter, or hides a parameter behind a getter
  (`members_clash`).
-/

namespace ModelCompiler

/-! ## Members -/

/-- A parameter of the constructor, which is a property of the class. -/
structure Parameter where
  visibility : Visibility
  name : String
  type : String

/-- A getter that returns a property of the class. -/
structure Getter where
  name : String
  type : String
  property : String

def Parameter.text (p : Parameter) : String := p.visibility.keyword ++ " " ++ p.name ++ ": " ++ p.type ++ ","

def Getter.layouts (g : Getter) : List Layout :=
  [.blank, .braced ("get " ++ g.name ++ "(): " ++ g.type) [.line ("return this." ++ g.property ++ ";")]]

namespace Field

def parameter (f : Field) : Parameter := ⟨f.visibility, f.backingName, f.unionText⟩

def getter (f : Field) : Getter := ⟨f.name, f.unionText, f.backingName⟩

theorem backingName_of_public {f : Field} (h : f.isPublic = true) : f.backingName = f.name := if_pos h

theorem backingName_of_not_public {f : Field} (h : f.isPublic = false) : f.backingName = "_" ++ f.name :=
  if_neg (Bool.eq_false_iff.mp h)

end Field

namespace Model

def parameters (m : Model) : List Parameter := m.fields.items.map Field.parameter

def getters (m : Model) : List Getter := (m.fields.items.filter fun f => !f.isPublic).map Field.getter

/-- The class begins with its parameters and getters. -/
theorem classText_eq (s : Scope) (m : Model) : m.classText s = (Validator.ofModel s m).map fun v =>
    Layout.document [.braced ("export class " ++ m.name)
      (.between "constructor(" ") \x7b\x7d" (m.parameters.map fun p => .line p.text) ::
        m.getters.flatMap Getter.layouts ++
        [.blank, m.toJsonLayout, .blank, m.fromJsonLayout, .blank, m.isDataModelLayout, .blank, v.layout])] := by
  have hgetters : m.getterLayouts = m.getters.flatMap Getter.layouts := by
    simp only [getterLayouts, getters, List.flatMap_map]
    rfl
  have hconstructor : m.constructorLayout =
      .between "constructor(" ") \x7b\x7d" (m.parameters.map fun p => .line p.text) := by
    simp only [constructorLayout, parameters, List.map_map]
    rfl
  unfold classText classLayout
  rw [hgetters, hconstructor]
  cases Validator.ofModel s m <;> rfl

/-- No two parameters have one name, nor two getters, nor a getter and a parameter. -/
structure MembersDistinct (m : Model) : Prop where
  parameters : (m.parameters.map Parameter.name).Nodup
  getters : (m.getters.map Getter.name).Nodup
  apart : ∀ g ∈ m.getters, g.name ∉ m.parameters.map Parameter.name

/-- What a name comes to in an object of the class: an argument of the constructor, by a parameter of the name or by a
getter of the name that returns it. -/
inductive Reads (m : Model) : String → Nat → Prop
  | parameter {i : Nat} {p : Parameter} (bound : m.parameters[i]? = some p) : Reads m p.name i
  | getter {i : Nat} {g : Getter} (declared : g ∈ m.getters) (returned : Reads m g.property i) : Reads m g.name i

/-- No field has the name of a field that is not public with an underscore before it. -/
def UnderscoresFree (m : Model) : Prop := ∀ f ∈ m.fields.items, f.isPublic = false → "_" ++ f.name ∉ m.fields.keys

variable {m : Model}

theorem mem_getters {g : Getter} : g ∈ m.getters ↔ ∃ f ∈ m.fields.items, f.isPublic = false ∧ f.getter = g := by
  simp [getters, and_assoc]

theorem getElem?_parameters {i : Nat} {p : Parameter} :
    m.parameters[i]? = some p ↔ ∃ f, m.fields.items[i]? = some f ∧ f.parameter = p := by
  simp [parameters]

theorem mem_names_parameters {name : String} :
    name ∈ m.parameters.map Parameter.name ↔ ∃ f ∈ m.fields.items, f.backingName = name := by
  simp [parameters, Field.parameter]

theorem nodup_fields (m : Model) : m.fields.items.Nodup := m.fields.nodup.of_map

/-- A field is the only one of its name. -/
theorem eq_of_name_eq {f g : Field} (hf : f ∈ m.fields.items) (hg : g ∈ m.fields.items) (h : f.name = g.name) : f = g :=
  Keyed.eq_of_key_eq hf hg h

/-! ## Distinct names -/

/-- Where underscores are free, a parameter is that of one field. -/
theorem UnderscoresFree.eq_of_backingName (h : m.UnderscoresFree) {f g : Field} (hf : f ∈ m.fields.items)
    (hg : g ∈ m.fields.items) (hname : f.backingName = g.backingName) : f = g := by
  have hkey : ∀ {f' : Field}, f' ∈ m.fields.items → f'.name ∈ m.fields.keys := List.mem_map_of_mem
  cases hfp : f.isPublic <;> cases hgp : g.isPublic
  · rw [Field.backingName_of_not_public hfp, Field.backingName_of_not_public hgp] at hname
    exact eq_of_name_eq hf hg (by simpa using hname)
  · rw [Field.backingName_of_not_public hfp, Field.backingName_of_public hgp] at hname
    exact absurd (hname ▸ hkey hg) (h f hf hfp)
  · rw [Field.backingName_of_public hfp, Field.backingName_of_not_public hgp] at hname
    exact absurd (hname ▸ hkey hf) (h g hg hgp)
  · rw [Field.backingName_of_public hfp, Field.backingName_of_public hgp] at hname
    exact eq_of_name_eq hf hg hname

/-- Where underscores are free, no getter has the name of a parameter. -/
theorem UnderscoresFree.name_ne_backingName (h : m.UnderscoresFree) {f g : Field} (hf : f ∈ m.fields.items)
    (hfp : f.isPublic = false) (hg : g ∈ m.fields.items) : f.name ≠ g.backingName := by
  intro hname
  cases hgp : g.isPublic with
  | true =>
    rw [Field.backingName_of_public hgp] at hname
    rw [eq_of_name_eq hf hg hname, hgp] at hfp
    cases hfp
  | false =>
    rw [Field.backingName_of_not_public hgp] at hname
    exact h g hg hgp (hname ▸ List.mem_map_of_mem hf)

theorem distinct_of_free (h : m.UnderscoresFree) : m.MembersDistinct where
  parameters := by
    rw [Model.parameters, List.map_map]
    exact m.nodup_fields.map_on fun f hf g hg hname => h.eq_of_backingName hf hg hname
  getters := by
    rw [Model.getters, List.map_map]
    exact (List.filter_sublist.map Field.name).nodup m.fields.nodup
  apart := by
    intro g hg hparameter
    obtain ⟨f, hf, hfp, rfl⟩ := mem_getters.mp hg
    obtain ⟨f', hf', hname⟩ := mem_names_parameters.mp hparameter
    exact h.name_ne_backingName hf hfp hf' hname.symm

theorem free_of_distinct (h : m.MembersDistinct) : m.UnderscoresFree := by
  intro f hf hfp hkey
  obtain ⟨g, hg, hname⟩ := List.mem_map.mp hkey
  cases hgp : g.isPublic with
  | true =>
    -- the parameter of the public field and that of the other one
    have hbacking : f.backingName = g.backingName := by
      rw [Field.backingName_of_not_public hfp, Field.backingName_of_public hgp, hname]
    have hnodup := h.parameters
    rw [Model.parameters, List.map_map] at hnodup
    rw [List.inj_on_of_nodup_map hnodup hf hg hbacking, hgp] at hfp
    cases hfp
  | false =>
    -- the getter of the one field and the parameter of the other
    refine h.apart g.getter (mem_getters.mpr ⟨g, hg, hgp, rfl⟩) (mem_names_parameters.mpr ⟨f, hf, ?_⟩)
    rw [Field.backingName_of_not_public hfp]
    exact hname.symm

/-! ## Reading -/

/-- The parameter of a field reads the argument of the field. -/
theorem UnderscoresFree.reads_backingName_iff (h : m.UnderscoresFree) {i j : Nat} {f : Field}
    (hf : m.fields.items[i]? = some f) : m.Reads f.backingName j ↔ j = i := by
  constructor
  · generalize hname : f.backingName = name
    rintro (@⟨_, p, bound⟩ | @⟨_, g, declared, returned⟩)
    · obtain ⟨f', hf', rfl⟩ := getElem?_parameters.mp bound
      obtain rfl := h.eq_of_backingName (List.mem_of_getElem? hf) (List.mem_of_getElem? hf') hname
      exact (List.getElem?_inj (List.getElem?_eq_some_iff.mp hf').1 m.nodup_fields).mp (hf'.trans hf.symm)
    · obtain ⟨f', hf', hfp', rfl⟩ := mem_getters.mp declared
      exact absurd hname.symm (h.name_ne_backingName hf' hfp' (List.mem_of_getElem? hf))
  · rintro rfl
    exact .parameter (getElem?_parameters.mpr ⟨f, hf, rfl⟩)

/-- The name of a field reads the argument of the field. -/
theorem UnderscoresFree.reads_name_iff (h : m.UnderscoresFree) {i j : Nat} {f : Field}
    (hf : m.fields.items[i]? = some f) : m.Reads f.name j ↔ j = i := by
  have hmem := List.mem_of_getElem? hf
  cases hfp : f.isPublic with
  | true =>
    rw [← Field.backingName_of_public hfp]
    exact h.reads_backingName_iff hf
  | false =>
    constructor
    · generalize hname : f.name = name
      rintro (@⟨_, p, bound⟩ | @⟨_, g, declared, returned⟩)
      · obtain ⟨f', hf', rfl⟩ := getElem?_parameters.mp bound
        exact absurd hname (h.name_ne_backingName hmem hfp (List.mem_of_getElem? hf'))
      · obtain ⟨f', hf', -, rfl⟩ := mem_getters.mp declared
        obtain rfl := eq_of_name_eq hmem hf' hname
        exact (h.reads_backingName_iff hf).mp returned
    · rintro rfl
      exact .getter (mem_getters.mpr ⟨f, hmem, hfp, rfl⟩) ((h.reads_backingName_iff hf).mpr rfl)

/-- A field whose name has two readings is that of a parameter of another field. -/
theorem free_of_reads (h : ∀ i f, m.fields.items[i]? = some f → ∀ j, m.Reads f.name j ↔ j = i) :
    m.UnderscoresFree := by
  intro f hf hfp hkey
  obtain ⟨g, hg, hname⟩ := List.mem_map.mp hkey
  obtain ⟨i, hi⟩ := List.mem_iff_getElem?.mp hf
  obtain ⟨j, hj⟩ := List.mem_iff_getElem?.mp hg
  have hreads : m.Reads f.backingName i := .parameter (getElem?_parameters.mpr ⟨f, hi, rfl⟩)
  rw [Field.backingName_of_not_public hfp, ← hname, h j g hj] at hreads
  obtain rfl : f = g := Option.some.inj (hi.symm.trans (hreads ▸ hj))
  have hlength := congrArg String.length hname
  simp at hlength

/-- **When class members are named apart**: the parameters and the getters that a class is made of have distinct names
exactly when no field is called as a field that is not public with an underscore before its name, and exactly when the
name of each field reads the argument that the constructor is given for that field. -/
theorem membersDistinct_iff_underscoresFree (m : Model) :
    (m.MembersDistinct ↔ m.UnderscoresFree) ∧
      (m.MembersDistinct ↔ ∀ i f, m.fields.items[i]? = some f → ∀ j, m.Reads f.name j ↔ j = i) ∧
      ∀ s, m.classText s = (Validator.ofModel s m).map fun v =>
        Layout.document [.braced ("export class " ++ m.name)
          (.between "constructor(" ") \x7b\x7d" (m.parameters.map fun p => .line p.text) ::
            m.getters.flatMap Getter.layouts ++
            [.blank, m.toJsonLayout, .blank, m.fromJsonLayout, .blank, m.isDataModelLayout, .blank, v.layout])] :=
  ⟨⟨free_of_distinct, distinct_of_free⟩,
    ⟨fun h _ _ hf _ => (free_of_distinct h).reads_name_iff hf, fun h => distinct_of_free (free_of_reads h)⟩,
    fun s => classText_eq s m⟩

end Model

namespace Sample

/-- A public field called as the parameter of the field before it. -/
def twins : Model :=
  ⟨"Twins", ⟨[⟨"a", ["string"], none, by decide, by decide⟩, ⟨"_a", ["boolean"], some .everyone, by decide, by decide⟩],
    by decide⟩⟩

/-- The same with a getter in place of the public field. -/
def hidden : Model :=
  ⟨"Hidden", ⟨[⟨"a", ["string"], none, by decide, by decide⟩, ⟨"_a", ["boolean"], none, by decide, by decide⟩],
    by decide⟩⟩

end Sample

namespace Model

/-- **Members that clash**: the class of the twins has two parameters `_a`, so that `this._a` is the argument of either
field; the other class has a parameter `_a` and a getter `_a` that returns another one. -/
theorem members_clash : Sample.twins.parameters.map Parameter.name = ["_a", "_a"] ∧ ¬Sample.twins.MembersDistinct ∧
    Sample.twins.Reads "_a" 0 ∧ Sample.twins.Reads "_a" 1 ∧
    Sample.hidden.parameters.map Parameter.name = ["_a", "__a"] ∧ Sample.hidden.getters.map Getter.name = ["a", "_a"] ∧
    ¬Sample.hidden.MembersDistinct := by
  have hfirst : Sample.twins.parameters[0]? = some ⟨.subclasses, "_a", "string"⟩ := rfl
  have hsecond : Sample.twins.parameters[1]? = some ⟨.everyone, "_a", "boolean"⟩ := rfl
  have hgetter : ⟨"_a", "boolean", "__a"⟩ ∈ Sample.hidden.getters := List.mem_cons_of_mem _ List.mem_cons_self
  exact ⟨rfl, fun h => absurd h.parameters (by decide), .parameter hfirst, .parameter hsecond, rfl, rfl,
    fun h => h.apart _ hgetter (by decide)⟩

end Model

end ModelCompiler
