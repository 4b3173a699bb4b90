import ModelCompiler.Proofs.Acceptance
import ModelCompiler.Proofs.Classified
import ModelCompiler.Proofs.Conformity
import ModelCompiler.Proofs.ReferenceGraph
import ModelCompiler.Proofs.SelfEquality
import ModelCompiler.Proofs.Serialisation
import ModelCompiler.Record

/-!
# Reading and writing records

A value without failures is read as the record of its declared members (`Record.ofMembers`), any other one as a problem
that lists its failures (`fromJson_of_failures`).

* **No fault** (`fromJson_total`): where every model in use has a class, reading ends in a record or in that problem.
* **Writing what was read** (`toJson_fromJson`): the object of a record that was read has the declared members of the
  value, and reads as the same record.
* **Reading what was written** (`fromJson_toJson`): where the object of a record has no failures, it reads as an equal
  record. The values of that record are those of the first one made plain (`fields_ofMembers_toJson`), and records are
  compared by what they serialise to.
-/

namespace ModelCompiler

/-- A folder is in another folder or in none. -/
def Sample.folder : Model := ⟨"Folder", ⟨[⟨"parent", ["Folder", "null"], none, by decide, by decide⟩], by decide⟩⟩

namespace Record

variable {s : Scope} {m : Model} {value : Value}

/-! ## The record of a value -/

/-- The record of the declared members of a value. -/
def ofMembers (m : Model) (value : Value) : Record :=
  ⟨m, m.fields.keys.map value.member, by simp [Keyed.keys, Keyed.size]⟩

theorem fields_ofMembers (m : Model) (value : Value) :
    (ofMembers m value).fields = m.fields.keys.map fun name => (name, value.member name) := by
  rw [List.map_prod_left_eq_zip]
  rfl

/-- What is read: the declared members of a value without failures, or else a problem with the failures. -/
theorem fromJson_of_failures {names : List String} (h : s.failures m value = .ok names) :
    fromJson s m value =
      if names = [] then .ok (ofMembers m value) else .error (.problem (.shape m.name names)) := by
  rw [fromJson, h]
  cases names with
  | nil => exact dif_pos (ofMembers m value).length_values
  | cons name names => rfl

theorem fromJson_of_failures_nil (h : s.failures m value = .ok []) : fromJson s m value = .ok (ofMembers m value) :=
  fromJson_of_failures h

/-- **Reading never faults**: where the object type accepts plain objects only and every model that a name stands for
has a class, a model with a class judges every value, and reading the value gives the record of its declared members or
the problem that lists the failures. -/
theorem fromJson_total (ho : s.builtIns.ObjectsOnly)
    (hclass : ∀ name m, s.model? name = some m → ∃ text, m.classText s = .ok text) :
    ∀ m, (∃ text, m.classText s = .ok text) → ∀ value, ∃ names, s.failures m value = .ok names ∧
      fromJson s m value =
        if names = [] then .ok (ofMembers m value) else .error (.problem (.shape m.name names)) := by
  intro m hm value
  have hs : s.Closed := ⟨ho, fun name m' h => Scope.settles_iff_classText.mpr (hclass name m' h)⟩
  have hfailures := Scope.failures_eq_report_of_settles hs value m (Scope.settles_iff_classText.mpr hm)
  exact ⟨s.report m value, hfailures, fromJson_of_failures hfailures⟩

/-- A model that refers to itself: what is wrong with the outer folder is wrong with its parent. -/
theorem fromJson_total_folder :
    let s : Scope := ⟨⟨⟨[Sample.folder], by decide⟩, Keyed.empty⟩, .standard⟩
    let value : Value := .object [("parent", .object [("parent", .text "none")])]
    s.builtIns.ObjectsOnly ∧ (∀ name m, s.model? name = some m → ∃ text, m.classText s = .ok text) ∧
      (∃ text, Sample.folder.classText s = .ok text) ∧
      fromJson s Sample.folder value = .error (.problem (.shape "Folder" ["parent"])) := by
  intro s value
  have hfolder : ∃ text, Sample.folder.classText s = .ok text := ⟨_, rfl⟩
  have hclass : ∀ name m, s.model? name = some m → ∃ text, m.classText s = .ok text := by
    intro name m hm
    have hmem : m ∈ [Sample.folder] := (Classification.mem_of_model? hm).1
    obtain rfl := List.mem_singleton.mp hmem
    exact hfolder
  obtain ⟨names, hnames, hread⟩ := fromJson_total Universe.objectsOnly_standard hclass Sample.folder hfolder value
  have hfailures : s.failures Sample.folder value = .ok ["parent"] := rfl
  rw [hfailures] at hnames
  obtain rfl := Except.ok.inj hnames
  exact ⟨Universe.objectsOnly_standard, hclass, hfolder, hread⟩

/-! ## Equal records -/

/-- Records of one model that serialise to one object are equal. -/
theorem equals_of_toJson {r r' : Record} (hm : r'.model = r.model) (hjson : r'.toJson = r.toJson)
    (hnan : r.toValue.hasNaN = false) : r'.equals r.toValue = true := by
  have hcomparable : r'.toValue.comparable = r.toValue.comparable := by
    rw [toValue, toValue, Value.comparable_record, Value.comparable_record, hm]
    exact congrArg (fun members => Value.record r.model (Value.comparableMembers members)) hjson
  rw [equals, Value.equal, hcomparable]
  exact Value.equal_self hnan

/-! ## Reading what was written -/

theorem map_fst_fields (r : Record) : r.fields.map Prod.fst = r.model.fields.keys := by
  have hlength : r.model.fields.keys.length = r.values.length := by
    rw [r.length_values, Keyed.keys, List.length_map, Keyed.size]
  exact List.map_fst_zip (Nat.le_of_eq hlength)

theorem nodup_names (r : Record) : (r.fields.map Prod.fst).Nodup := r.map_fst_fields ▸ r.model.fields.nodup

/-- The object that a record serialises to holds the record's values made plain. -/
theorem fields_ofMembers_toJson (r : Record) :
    (ofMembers r.model (.object r.toJson)).fields = Value.plainFields r.fields := by
  rw [fields_ofMembers, ← map_fst_fields, List.map_map, Value.plainFields]
  refine List.map_congr_left fun f hf => ?_
  exact congrArg (Prod.mk f.1) (Value.member_serialised r.nodup_names hf)

/-- **Reading what was written**: where the object that a record serialises to has no failures, it is read as an equal
record, which serialises to the same members in the same order. -/
theorem fromJson_toJson {r : Record} (hnan : r.toValue.hasNaN = false)
    (h : s.failures r.model (.object r.toJson) = .ok []) :
    ∃ r', fromJson s r.model (.object r.toJson) = .ok r' ∧ r'.equals r.toValue = true ∧ r'.toJson = r.toJson := by
  have hjson : (ofMembers r.model (.object r.toJson)).toJson = r.toJson := by
    rw [toJson, fields_ofMembers_toJson, Value.serialised_plainFields, toJson]
  exact ⟨_, fromJson_of_failures_nil h, equals_of_toJson rfl hjson hnan, hjson⟩

/-- A record inside a record, which is read as a plain object. -/
theorem fromJson_toJson_wrapper :
    let s : Scope := ⟨Sample.wrappers.partition .standard, .standard⟩
    let r : Record := ⟨Sample.wrapper, [.record Sample.point [("x", .int 1), ("y", .int 2)]], rfl⟩
    r.toValue.hasNaN = false ∧ s.failures r.model (.object r.toJson) = .ok [] ∧
      ∃ r', fromJson s r.model (.object r.toJson) = .ok r' ∧ r'.equals r.toValue = true ∧ r'.toJson = r.toJson := by
  intro s r
  have hnan : r.toValue.hasNaN = false := rfl
  have hfailures : s.failures r.model (.object r.toJson) = .ok [] := rfl
  exact ⟨hnan, hfailures, fromJson_toJson hnan hfailures⟩

end Record

/-! ## Writing what was read -/

/-- The declared members that a value has, in order of declaration. -/
def Model.presentMembers (m : Model) (value : Value) : List (String × Value) :=
  m.fields.keys.filterMap fun name => (value.member name).present? name

namespace Record

variable {s : Scope} {m : Model} {value : Value}

/-- The record of a value without records in its declared members serialises to those of them that are there. -/
theorem toJson_ofMembers (h : ∀ name ∈ m.fields.keys, (value.member name).plain = value.member name) :
    (ofMembers m value).toJson = m.presentMembers value := by
  rw [toJson, fields_ofMembers, Model.presentMembers, Value.serialised_map_of_plain h]

theorem hasNaN_ofMembers (h : value.hasNaN = false) : (ofMembers m value).toValue.hasNaN = false := by
  rw [toValue, Value.hasNaN, Value.memberHasNaN_eq_false_iff, fields_ofMembers, List.forall_mem_map]
  exact fun name _ => Value.hasNaN_member h name

/-- The object that such a record serialises to has the values of the declared members. -/
theorem member_toJson_ofMembers (h : ∀ name ∈ m.fields.keys, (value.member name).plain = value.member name)
    {name : String} (hname : name ∈ m.fields.keys) :
    (Value.object (ofMembers m value).toJson).member name = value.member name := by
  have hfield : (name, value.member name) ∈ (ofMembers m value).fields := by
    rw [fields_ofMembers]
    exact List.mem_map_of_mem hname
  rw [toJson, Value.member_serialised (nodup_names _) hfield, h name hname]

/-- An object with the values of a value without failures in the declared fields has none and reads as it does. -/
theorem fromJson_congr (hu : s.builtIns.StandardTests) (h : s.failures m value = .ok [])
    {members : List (String × Value)}
    (hmembers : ∀ name ∈ m.fields.keys, (Value.object members).member name = value.member name) :
    s.failures m (.object members) = .ok [] ∧ fromJson s m (.object members) = .ok (ofMembers m value) := by
  obtain ⟨members', rfl⟩ := hu.exists_object h
  obtain ⟨b, hb, -⟩ := Scope.accepted_of_failures h
  have haccepts : b.accepts (.object members) = true := (hu.object b hb _).mpr ⟨members, rfl⟩
  have hfailures : s.failures m (.object members) = .ok [] :=
    Scope.failures_object_congr h ⟨b, hb, haccepts⟩ fun f hf => hmembers f.name (List.mem_map_of_mem hf)
  have hrecord : ofMembers m (.object members) = ofMembers m (.object members') := by
    simp only [ofMembers, List.map_congr_left hmembers]
  exact ⟨hfailures, hrecord ▸ fromJson_of_failures_nil hfailures⟩

/-- **Writing what was read**: where the built-in types test values as the standard ones do, a value without failures is
read as a record that serialises to the declared members of the value, unchanged and in order of declaration. That
object has no failures and is read as an equal record, which serialises to it again; so does every object with the same
values in the declared fields, whatever it holds beside them and in whatever order. -/
theorem toJson_fromJson (hu : s.builtIns.StandardTests) (hnan : value.hasNaN = false)
    (h : s.failures m value = .ok []) :
    ∃ r, fromJson s m value = .ok r ∧ r.toJson = m.presentMembers value ∧
      s.failures m (.object r.toJson) = .ok [] ∧
      (∃ r', fromJson s m (.object r.toJson) = .ok r' ∧ r'.equals r.toValue = true ∧ r'.toJson = r.toJson) ∧
      ∀ members, (∀ name ∈ m.fields.keys, (Value.object members).member name = value.member name) →
        fromJson s m (.object members) = .ok r := by
  have hplain : ∀ name ∈ m.fields.keys, (value.member name).plain = value.member name := by
    intro name hname
    obtain ⟨f, hf, rfl⟩ := List.mem_map.mp hname
    exact Value.plain_of_not_record (hu.member_ne_record h hf)
  obtain ⟨hfailures, hread⟩ := fromJson_congr hu h fun _ => member_toJson_ofMembers hplain
  exact ⟨ofMembers m value, fromJson_of_failures_nil h, toJson_ofMembers hplain, hfailures,
    ⟨_, hread, Value.equal_self (hasNaN_ofMembers hnan), rfl⟩, fun members hmembers => (fromJson_congr hu h hmembers).2⟩

/-- A link whose members are out of order and beside an undeclared one. -/
theorem toJson_fromJson_link :
    let s : Scope := ⟨Sample.chains.partition .standard, .standard⟩
    let value : Value := .object [("size", .int 3), ("color", .text "red"), ("chain", .object [("rest", .missing)])]
    s.builtIns.StandardTests ∧ value.hasNaN = false ∧ s.failures Sample.link value = .ok [] ∧
      ∃ r, fromJson s Sample.link value = .ok r ∧
        r.toJson = [("chain", .object [("rest", .missing)]), ("size", .int 3)] ∧
        ∃ r', fromJson s Sample.link (.object r.toJson) = .ok r' ∧ r'.equals r.toValue = true := by
  intro s value
  have hnan : value.hasNaN = false := rfl
  have hfailures : s.failures Sample.link value = .ok [] := rfl
  obtain ⟨r, hr, hjson, -, ⟨r', hr', hequal, -⟩, -⟩ := toJson_fromJson Universe.standardTests_standard hnan hfailures
  exact ⟨Universe.standardTests_standard, hnan, hfailures, r, hr, hjson, r', hr', hequal⟩

end Record

end ModelCompiler
