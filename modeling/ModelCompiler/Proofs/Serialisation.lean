import Mathlib.Data.List.Nodup
import ModelCompiler.Value.Equality

/-!
# Serialised fields

What the members of serialised fields are: those fields that are not missing, made plain (`mem_serialised`). Looked up
by its name, a field is its value made plain, a missing one being absent (`member_serialised`).

Fields serialise as their plain values do (`serialised_plainFields`), for a plain value stays as it is. What a record
compares as is known from what its fields serialise to (`comparable_record`).
-/

namespace ModelCompiler.Value

/-! ## Members by name -/

/-- Among distinct names a value is found under its own name. -/
theorem lookup_eq_some_iff {members : List (String × Value)} (hn : (members.map Prod.fst).Nodup) {name : String}
    {v : Value} : members.lookup name = some v ↔ (name, v) ∈ members := by
  constructor
  · intro h
    obtain ⟨before, after, rfl, -⟩ := List.lookup_eq_some_iff.mp h
    simp
  · intro h
    obtain ⟨before, after, rfl⟩ := List.append_of_mem h
    refine List.lookup_eq_some_iff.mpr ⟨before, after, rfl, fun e he => ?_⟩
    have hne : e.1 ≠ name := by
      rw [List.map_append, List.map_cons, List.nodup_append] at hn
      exact hn.2.2 e.1 (List.mem_map_of_mem he) name List.mem_cons_self
    simpa using hne.symm

theorem isSome_lookup_iff {members : List (String × Value)} {name : String} :
    (members.lookup name).isSome ↔ name ∈ members.map Prod.fst := by
  rw [Option.isSome_iff_ne_none, ne_eq, List.lookup_eq_none_iff]
  simp

theorem member_of_mem {members : List (String × Value)} (hn : (members.map Prod.fst).Nodup) {name : String}
    {v : Value} (h : (name, v) ∈ members) : (Value.object members).member name = v := by
  rw [member, (lookup_eq_some_iff hn).mpr h, Option.getD_some]

/-- A name that no member has is that of a missing one. -/
theorem member_of_not_mem {members : List (String × Value)} {name : String} (h : ∀ v, (name, v) ∉ members) :
    (Value.object members).member name = .missing := by
  have hlookup : members.lookup name = none := by
    refine List.lookup_eq_none_iff.mpr fun e he => ?_
    have hne : name ≠ e.1 := by
      rintro rfl
      exact h e.2 he
    simpa using hne
  rw [member, hlookup, Option.getD_none]

/-! ## Plain values -/

/-- A value that is no record is plain. -/
theorem plain_of_not_record {v : Value} (h : ∀ m fields, v ≠ .record m fields) : plain v = v := by
  cases v with
  | record m fields => exact absurd rfl (h m fields)
  | _ => rfl

theorem plain_plain (v : Value) : plain (plain v) = plain v := by cases v <;> rfl

theorem plain_eq_missing_iff {v : Value} : plain v = .missing ↔ v = .missing := by cases v <;> simp [plain]

/-! ## The members of serialised fields -/

theorem serialised_cons_of_ne {name : String} {v : Value} {fields : List (String × Value)} (hv : v ≠ .missing) :
    serialised ((name, v) :: fields) = (name, plain v) :: serialised fields := by
  cases v with
  | missing => exact absurd rfl hv
  | _ => rfl

theorem mem_serialised {name : String} {w : Value} {fields : List (String × Value)} :
    (name, w) ∈ serialised fields ↔ ∃ v, (name, v) ∈ fields ∧ v ≠ .missing ∧ plain v = w := by
  induction fields with
  | nil => simp [serialised]
  | cons f fields ih =>
    obtain ⟨k, u⟩ := f
    by_cases hu : u = .missing
    · subst hu
      rw [serialised, ih]
      refine exists_congr fun v => ?_
      rw [List.mem_cons, Prod.mk.injEq]
      constructor
      · rintro ⟨h, hv⟩
        exact ⟨.inr h, hv⟩
      · rintro ⟨⟨-, rfl⟩ | h, hv, hw⟩
        · exact absurd rfl hv
        · exact ⟨h, hv, hw⟩
    · rw [serialised_cons_of_ne hu, List.mem_cons, Prod.mk.injEq, ih]
      constructor
      · rintro (⟨rfl, rfl⟩ | ⟨v, h, hv⟩)
        · exact ⟨u, List.mem_cons_self, hu, rfl⟩
        · exact ⟨v, List.mem_cons_of_mem _ h, hv⟩
      · rintro ⟨v, h, hv, hw⟩
        rcases List.mem_cons.mp h with h | h
        · cases h
          exact .inl ⟨rfl, hw.symm⟩
        · exact .inr ⟨v, h, hv, hw⟩

/-- The names of serialised fields are in the order of the fields. -/
theorem names_serialised_sublist (fields : List (String × Value)) :
    ((serialised fields).map Prod.fst).Sublist (fields.map Prod.fst) := by
  induction fields with
  | nil => exact List.Sublist.refl _
  | cons f fields ih =>
    obtain ⟨k, u⟩ := f
    by_cases hu : u = .missing
    · subst hu
      exact ih.cons k
    · rw [serialised_cons_of_ne hu]
      exact ih.cons_cons k

/-- A field is found under its name as its plain value, and a missing one as an absent member. -/
theorem member_serialised {fields : List (String × Value)} (hn : (fields.map Prod.fst).Nodup) {name : String}
    {v : Value} (h : (name, v) ∈ fields) : (Value.object (serialised fields)).member name = plain v := by
  by_cases hv : v = .missing
  · subst hv
    refine member_of_not_mem fun w hw => ?_
    obtain ⟨v', hv', hne, -⟩ := mem_serialised.mp hw
    exact hne (congrArg Prod.snd (List.inj_on_of_nodup_map hn hv' h rfl))
  · exact member_of_mem ((names_serialised_sublist fields).nodup hn) (mem_serialised.mpr ⟨v, h, hv, rfl⟩)

/-! ## Plain fields -/

/-- The fields with their values made plain. -/
def plainFields (fields : List (String × Value)) : List (String × Value) := fields.map fun f => (f.1, plain f.2)

theorem serialised_plainFields (fields : List (String × Value)) :
    serialised (plainFields fields) = serialised fields := by
  induction fields with
  | nil => rfl
  | cons f fields ih =>
    obtain ⟨k, v⟩ := f
    have hcons : plainFields ((k, v) :: fields) = (k, plain v) :: plainFields fields := rfl
    by_cases hv : v = .missing
    · subst hv
      exact ih
    · rw [hcons, serialised_cons_of_ne (mt plain_eq_missing_iff.mp hv), serialised_cons_of_ne hv, plain_plain, ih]

/-! ## Fields that are there -/

/-- The member that a value makes under a name; a missing one makes none. -/
def present? (name : String) : Value → Option (String × Value)
  | .missing => none
  | v => some (name, v)

/-- Without records, serialised fields are the fields that are there. -/
theorem serialised_map_of_plain {g : String → Value} : ∀ {names : List String},
    (∀ name ∈ names, plain (g name) = g name) →
      serialised (names.map fun name => (name, g name)) = names.filterMap fun name => (g name).present? name
  | [], _ => rfl
  | name :: names, h => by
    rw [List.forall_mem_cons] at h
    have ih := serialised_map_of_plain h.2
    rw [List.map_cons, List.filterMap_cons]
    cases hv : g name with
    | missing => exact ih
    | record m fields => simp [hv, plain] at h
    | _ => exact congrArg (List.cons _) ih

/-! ## Comparison -/

mutual

/-- A record compares as the object that it serialises to, once both are objects. -/
theorem comparable_plain : ∀ v : Value, comparable (plain v) = objectOf (comparable v)
  | .record _ fields => by
    simp only [plain, comparable, objectOf, comparableMembers_serialised fields]
  | .missing | .null | .bool _ | .int _ | .real _ | .text _ | .list _ | .tuple _ | .set .. | .date _ | .dateTime _
  | .object _ => by simp only [plain, comparable, objectOf]

theorem comparableMembers_serialised : ∀ fields : List (String × Value),
    comparableMembers (serialised fields) = comparableFields fields
  | [] => rfl
  | (name, v) :: fields => by
    have hv := comparable_plain v
    have hfields := comparableMembers_serialised fields
    cases v <;> simp only [serialised, comparableMembers, comparableFields, hv, hfields]

end

/-- A record compares by its model and the object that it serialises to. -/
theorem comparable_record (m : Model) (fields : List (String × Value)) :
    comparable (.record m fields) = .record m (comparableMembers (serialised fields)) := by
  rw [comparable, comparableMembers_serialised]

end ModelCompiler.Value
