import Mathlib.Logic.Relation
import ModelCompiler.Proofs.ReferenceGraph
import ModelCompiler.Proofs.Serialisation
import ModelCompiler.Record

/-!
# Records that a serialisation leaves

A record serialises to an object in which its fields stand as plain values, and so do the fields of records that are
reached through fields alone. What a list, a tuple, a set or an object holds is not looked at, so a record in one of
these stays (`not_recordFree_route`).

* **What is left** (`recordFree_toJson_iff`): the object of a record holds no record at any depth exactly when no
  container that is reached from the record through fields holds one.
* **What would be left of none** (`recordFree_plainThrough`): `plainThrough` replaces every record by its object, at any
  depth. Serialising gives its outcome exactly when it leaves no record.
-/

namespace ModelCompiler

namespace Value

/-! ## The parts of a value -/

/-- The values directly in a value. -/
def parts : Value → List Value
  | .list items | .tuple items | .set _ items => items
  | .object members | .record _ members => members.map Prod.snd
  | _ => []

theorem sizeOf_lt_of_mem_members {members : List (String × Value)} {w : Value} (h : w ∈ members.map Prod.snd) :
    sizeOf w < sizeOf members := by
  obtain ⟨⟨name, v⟩, he, rfl⟩ := List.mem_map.mp h
  have := List.sizeOf_lt_of_mem he
  simp only [Prod.mk.sizeOf_spec] at this
  show sizeOf v < sizeOf members
  omega

theorem sizeOf_lt_of_mem_parts {v w : Value} (h : w ∈ v.parts) : sizeOf w < sizeOf v := by
  cases v with
  | list items | tuple items | set frozen items =>
    have := List.sizeOf_lt_of_mem (show w ∈ items from h)
    simp only [list.sizeOf_spec, tuple.sizeOf_spec, set.sizeOf_spec]
    omega
  | object members | record m members =>
    have := sizeOf_lt_of_mem_members (show w ∈ members.map Prod.snd from h)
    simp only [object.sizeOf_spec, record.sizeOf_spec]
    omega
  | _ => cases h

/-- What holds of a value when it holds of its parts holds of every value. -/
theorem part_induction {P : Value → Prop} (h : ∀ v, (∀ w ∈ v.parts, P w) → P v) (v : Value) : P v :=
  h v fun w _ => part_induction h w
termination_by sizeOf v
decreasing_by exact sizeOf_lt_of_mem_parts ‹_›

/-! ## Values without records -/

def isRecord : Value → Bool
  | .record .. => true
  | _ => false

/-- `w` is `v`, or in `v` at some depth. -/
def Holds (v w : Value) : Prop := Relation.ReflTransGen (fun v w => w ∈ v.parts) v w

/-- The value holds no record at any depth. -/
def RecordFree (v : Value) : Prop := ∀ w, v.Holds w → w.isRecord = false

theorem recordFree_iff {v : Value} : v.RecordFree ↔ v.isRecord = false ∧ ∀ w ∈ v.parts, w.RecordFree := by
  constructor
  · intro h
    exact ⟨h v .refl, fun w hw u hu => h u (.head hw hu)⟩
  · rintro ⟨hv, hparts⟩ w hw
    rcases hw.cases_head with rfl | ⟨u, hu, hw⟩
    · exact hv
    · exact hparts u hu w hw

theorem recordFree_missing : missing.RecordFree := recordFree_iff.mpr ⟨rfl, fun _ h => by cases h⟩

/-! ## Serialising -/

/-- `w` is `v`, or reached from `v` through fields of records. -/
def Reaches (v w : Value) : Prop :=
  Relation.ReflTransGen (fun v w => v.isRecord = true ∧ w ∈ v.parts) v w

/-- No value that is reached through fields and is no record itself holds a record. -/
def RecordsInFields (v : Value) : Prop := ∀ c, v.Reaches c → c.isRecord = false → c.RecordFree

theorem recordsInFields_of_not_record {v : Value} (h : v.isRecord = false) : v.RecordsInFields ↔ v.RecordFree := by
  constructor
  · intro hv
    exact hv v .refl h
  · rintro hv c hc -
    rcases hc.cases_head with rfl | ⟨u, ⟨hrecord, -⟩, -⟩
    · exact hv
    · rw [h] at hrecord
      cases hrecord

theorem recordsInFields_record {m : Model} {fields : List (String × Value)} :
    (record m fields).RecordsInFields ↔ ∀ f ∈ fields, f.2.RecordsInFields := by
  constructor
  · intro h f hf c hc
    exact h c (.head ⟨rfl, List.mem_map_of_mem hf⟩ hc)
  · intro h c hc hrecord
    rcases hc.cases_head with rfl | ⟨u, ⟨-, hu⟩, hc⟩
    · cases hrecord
    · obtain ⟨f, hf, rfl⟩ := List.mem_map.mp hu
      exact h f hf c hc hrecord

theorem recordFree_serialised_iff {fields : List (String × Value)} :
    (object (serialised fields)).RecordFree ↔ ∀ f ∈ fields, f.2.plain.RecordFree := by
  rw [recordFree_iff]
  constructor
  · rintro ⟨-, h⟩ ⟨name, v⟩ hf
    by_cases hv : v = .missing
    · subst hv
      exact recordFree_missing
    · exact h _ (List.mem_map.mpr ⟨(name, v.plain), mem_serialised.mpr ⟨v, hf, hv, rfl⟩, rfl⟩)
  · intro h
    refine ⟨rfl, fun w hw => ?_⟩
    obtain ⟨⟨name, u⟩, hf, rfl⟩ := List.mem_map.mp hw
    obtain ⟨v, hv, -, rfl⟩ := mem_serialised.mp hf
    exact h (name, v) hv

/-- A value made plain holds no record exactly when its records are reached through fields alone. -/
theorem recordFree_plain_iff (v : Value) : v.plain.RecordFree ↔ v.RecordsInFields := by
  induction v using part_induction with
  | h v ih =>
    cases v with
    | record m fields =>
      rw [recordsInFields_record, plain, recordFree_serialised_iff]
      exact forall₂_congr fun f hf => ih f.2 (List.mem_map_of_mem hf)
    | _ => exact (recordsInFields_of_not_record rfl).symm

/-! ## Serialising throughout -/

mutual

/-- The value with the object of every record in its place, at any depth. -/
def plainThrough : Value → Value
  | .list items => .list (plainItems items)
  | .tuple items => .tuple (plainItems items)
  | .set frozen elements => .set frozen (plainItems elements)
  | .object members => .object (plainMembers members)
  | .record _ fields => .object (presentFields fields)
  | v => v

def plainItems : List Value → List Value
  | [] => []
  | v :: vs => plainThrough v :: plainItems vs

def plainMembers : List (String × Value) → List (String × Value)
  | [] => []
  | (name, v) :: members => (name, plainThrough v) :: plainMembers members

/-- The members that the fields of a record make: those with a value. -/
def presentFields : List (String × Value) → List (String × Value)
  | [] => []
  | (_, .missing) :: fields => presentFields fields
  | (name, v) :: fields => (name, plainThrough v) :: presentFields fields

end

theorem plainItems_eq_map (items : List Value) : plainItems items = items.map plainThrough := by
  induction items with
  | nil => rfl
  | cons v items ih => rw [plainItems, ih, List.map_cons]

theorem plainMembers_eq_map (members : List (String × Value)) :
    plainMembers members = members.map fun e => (e.1, e.2.plainThrough) := by
  induction members with
  | nil => rfl
  | cons e members ih => rw [plainMembers, ih, List.map_cons]

theorem presentFields_cons_of_ne {name : String} {v : Value} {fields : List (String × Value)} (hv : v ≠ .missing) :
    presentFields ((name, v) :: fields) = (name, plainThrough v) :: presentFields fields := by
  cases v with
  | missing => exact absurd rfl hv
  | _ => rfl

theorem exists_of_mem_presentFields {w : Value} : ∀ {fields : List (String × Value)},
    w ∈ (presentFields fields).map Prod.snd → ∃ f ∈ fields, f.2.plainThrough = w
  | (name, v) :: fields, h => by
    by_cases hv : v = .missing
    · subst hv
      have hrest : w ∈ (presentFields fields).map Prod.snd := h
      obtain ⟨f, hf, hw⟩ := exists_of_mem_presentFields hrest
      exact ⟨f, List.mem_cons_of_mem _ hf, hw⟩
    · rw [presentFields_cons_of_ne hv, List.map_cons, List.mem_cons] at h
      rcases h with rfl | h
      · exact ⟨_, List.mem_cons_self, rfl⟩
      · obtain ⟨f, hf, hw⟩ := exists_of_mem_presentFields h
        exact ⟨f, List.mem_cons_of_mem _ hf, hw⟩

/-- The parts that are left come from parts of the value. -/
theorem exists_of_mem_parts_plainThrough {v w : Value} (h : w ∈ v.plainThrough.parts) :
    ∃ u ∈ v.parts, u.plainThrough = w := by
  cases v with
  | list items | tuple items | set frozen items =>
    simp only [plainThrough, parts, plainItems_eq_map] at h
    exact List.mem_map.mp h
  | object members =>
    simp only [plainThrough, parts, plainMembers_eq_map, List.map_map] at h
    obtain ⟨e, he, rfl⟩ := List.mem_map.mp h
    exact ⟨e.2, List.mem_map_of_mem he, rfl⟩
  | record m fields =>
    obtain ⟨f, hf, hw⟩ := exists_of_mem_presentFields h
    exact ⟨f.2, List.mem_map_of_mem hf, hw⟩
  | _ => cases h

theorem isRecord_plainThrough (v : Value) : v.plainThrough.isRecord = false := by cases v <;> rfl

/-- Serialised throughout, a value holds no record. -/
theorem recordFree_plainThrough (v : Value) : v.plainThrough.RecordFree := by
  induction v using part_induction with
  | h v ih =>
    refine recordFree_iff.mpr ⟨v.isRecord_plainThrough, fun w hw => ?_⟩
    obtain ⟨u, hu, rfl⟩ := exists_of_mem_parts_plainThrough hw
    exact ih u hu

/-- A value without records stays as it is. -/
theorem plainThrough_of_recordFree (v : Value) (hv : v.RecordFree) : v.plainThrough = v := by
  induction v using part_induction with
  | h v ih =>
    obtain ⟨hrecord, hparts⟩ := recordFree_iff.mp hv
    have hpart : ∀ w ∈ v.parts, w.plainThrough = w := fun w hw => ih w hw (hparts w hw)
    cases v with
    | list items | tuple items | set frozen items =>
      have hitems : items.map plainThrough = items := (List.map_congr_left hpart).trans (List.map_id items)
      rw [plainThrough, plainItems_eq_map, hitems]
    | object members =>
      have hmember : ∀ e ∈ members, (e.1, e.2.plainThrough) = e := fun e he =>
        congrArg (Prod.mk e.1) (hpart e.2 (List.mem_map_of_mem he))
      have hmembers : (members.map fun e => (e.1, e.2.plainThrough)) = members :=
        (List.map_congr_left hmember).trans (List.map_id members)
      rw [plainThrough, plainMembers_eq_map, hmembers]
    | record m fields => cases hrecord
    | _ => rfl

theorem plainMembers_serialised {fields : List (String × Value)}
    (h : ∀ f ∈ fields, f.2.plain.plainThrough = f.2.plainThrough) :
    plainMembers (serialised fields) = presentFields fields := by
  induction fields with
  | nil => rfl
  | cons f fields ih =>
    obtain ⟨name, v⟩ := f
    rw [List.forall_mem_cons] at h
    by_cases hv : v = .missing
    · subst hv
      exact ih h.2
    · rw [serialised_cons_of_ne hv, presentFields_cons_of_ne hv, plainMembers, h.1, ih h.2]

/-- What serialising leaves can be serialised throughout afterwards. -/
theorem plainThrough_plain (v : Value) : v.plain.plainThrough = v.plainThrough := by
  induction v using part_induction with
  | h v ih =>
    cases v with
    | record m fields =>
      have hfields : plainMembers (serialised fields) = presentFields fields :=
        plainMembers_serialised fun f hf => ih f.2 (List.mem_map_of_mem hf)
      rw [plain, plainThrough, plainThrough, hfields]
    | _ => rfl

/-- Serialising leaves no record exactly when it does what serialising throughout does. -/
theorem recordFree_plain_iff_eq (v : Value) : v.plain.RecordFree ↔ v.plain = v.plainThrough := by
  constructor
  · intro h
    rw [← plainThrough_plain, plainThrough_of_recordFree _ h]
  · intro h
    rw [h]
    exact v.recordFree_plainThrough

end Value

/-- **Records that a serialisation leaves**: the object that a record serialises to holds no record at any depth exactly
when no list, tuple, set or object that is reached from the record through fields of records holds one. It is then the
object in which every record, at any depth, is replaced by its own object; that object itself never holds a record, and
it is what serialising the outcome throughout gives in any case. -/
theorem Record.recordFree_toJson_iff (r : Record) :
    ((Value.object r.toJson).RecordFree ↔ ∀ c, r.toValue.Reaches c → c.isRecord = false → c.RecordFree) ∧
      ((Value.object r.toJson).RecordFree ↔ Value.object r.toJson = r.toValue.plainThrough) ∧
      r.toValue.plainThrough.RecordFree ∧ (Value.object r.toJson).plainThrough = r.toValue.plainThrough :=
  ⟨r.toValue.recordFree_plain_iff, r.toValue.recordFree_plain_iff_eq, r.toValue.recordFree_plainThrough,
    r.toValue.plainThrough_plain⟩

namespace Sample

/-- A route passes through any number of points. -/
def route : Model := ⟨"Route", ⟨[⟨"points", ["Array"], none, by decide, by decide⟩], by decide⟩⟩

end Sample

/-- **A record in a list**: a route with the list of its points serialises to an object with the points in it. -/
theorem Record.not_recordFree_route :
    let point : Value := .record Sample.point [("x", .int 1), ("y", .int 2)]
    let r : Record := ⟨Sample.route, [.list [point]], rfl⟩
    r.toJson = [("points", .list [point])] ∧ ¬(Value.object r.toJson).RecordFree ∧
      r.toValue.plainThrough = .object [("points", .list [.object [("x", .int 1), ("y", .int 2)]])] := by
  intro point r
  refine ⟨rfl, fun h => ?_, rfl⟩
  have hlist := (Value.recordFree_iff.mp h).2 (.list [point]) List.mem_cons_self
  have hpoint := (Value.recordFree_iff.mp hlist).2 point List.mem_cons_self
  cases hpoint point .refl

end ModelCompiler
