import ModelCompiler.Value.Equality

/-!
# Values that are equal to themselves

Only the number that is not one differs from itself. A value that holds it nowhere (`Value.hasNaN`) is equal to itself
(`Value.equal_self`): the parts of a list are compared place by place, and the elements of a set and the members of an
object are looked for in a list that has them. That the records in the value are compared by their serialised fields
brings no such number in (`hasNaN_comparable`).
-/

namespace ModelCompiler.Value

/-! ## Numbers that differ from themselves -/

mutual

/-- Whether the number that differs from itself is in a value, at any depth. -/
def hasNaN : Value → Bool
  | .real x => x = .notANumber
  | .list items => anyHasNaN items
  | .tuple items => anyHasNaN items
  | .set _ elements => anyHasNaN elements
  | .object members => memberHasNaN members
  | .record _ fields => memberHasNaN fields
  | _ => false

def anyHasNaN : List Value → Bool
  | [] => false
  | v :: vs => hasNaN v || anyHasNaN vs

def memberHasNaN : List (String × Value) → Bool
  | [] => false
  | (_, v) :: members => hasNaN v || memberHasNaN members

end

theorem memberHasNaN_eq_false_iff {members : List (String × Value)} :
    memberHasNaN members = false ↔ ∀ e ∈ members, e.2.hasNaN = false := by
  induction members with
  | nil => simp [memberHasNaN]
  | cons e es ih => rw [memberHasNaN, Bool.or_eq_false_iff, ih, List.forall_mem_cons]

theorem hasNaN_member {v : Value} (h : v.hasNaN = false) (name : String) : (v.member name).hasNaN = false := by
  cases v with
  | object members =>
    rw [hasNaN, memberHasNaN_eq_false_iff] at h
    rw [member]
    cases hlookup : members.lookup name with
    | none => rfl
    | some w =>
      obtain ⟨before, after, rfl, -⟩ := List.lookup_eq_some_iff.mp hlookup
      exact h (name, w) (by simp)
  | _ => rfl

theorem hasNaN_objectOf (v : Value) : hasNaN (objectOf v) = hasNaN v := by
  cases v <;> simp [objectOf, hasNaN]

mutual

theorem hasNaN_comparable : ∀ v : Value, hasNaN (comparable v) = hasNaN v
  | .list items | .tuple items | .set _ items => by
    simp only [comparable, hasNaN, anyHasNaN_comparableItems items]
  | .object members => by simp only [comparable, hasNaN, memberHasNaN_comparableMembers members]
  | .record _ fields => by simp only [comparable, hasNaN, memberHasNaN_comparableFields fields]
  | .missing | .null | .bool _ | .int _ | .real _ | .text _ | .date _ | .dateTime _ => by simp only [comparable]

theorem anyHasNaN_comparableItems : ∀ vs : List Value, anyHasNaN (comparableItems vs) = anyHasNaN vs
  | [] => rfl
  | v :: vs => by simp only [comparableItems, anyHasNaN, hasNaN_comparable v, anyHasNaN_comparableItems vs]

theorem memberHasNaN_comparableMembers : ∀ members : List (String × Value),
    memberHasNaN (comparableMembers members) = memberHasNaN members
  | [] => rfl
  | (_, v) :: members => by
    simp only [comparableMembers, memberHasNaN, hasNaN_comparable v, memberHasNaN_comparableMembers members]

theorem memberHasNaN_comparableFields : ∀ fields : List (String × Value),
    memberHasNaN (comparableFields fields) = memberHasNaN fields
  | [] => rfl
  | (_, v) :: fields => by
    have hv := hasNaN_comparable v
    have hfields := memberHasNaN_comparableFields fields
    cases v <;> simp [comparableFields, memberHasNaN, hasNaN_objectOf, hv, hfields, hasNaN]

end

/-! ## Reflexivity -/

mutual

theorem eqv_self : ∀ v : Value, hasNaN v = false → eqv v v = true
  | .missing, _ | .null, _ | .text _, _ | .date _, _ | .dateTime _, _ => by simp [eqv]
  | .bool b, _ => by simp [eqv, number?, sameNumber]
  | .int n, _ => by simp [eqv, number?, sameNumber]
  | .real x, h => by simpa [eqv, number?, sameNumber] using Binary64.same_self (by simpa [hasNaN] using h)
  | .list items, h | .tuple items, h => by simpa [eqv] using eqvItems_self items h
  | .set _ elements, h => by simpa [eqv] using itemsIn_of_subset elements elements h (List.Subset.refl _)
  | .object members, h => by simpa [eqv] using membersIn_of_subset members members h (List.Subset.refl _)
  | .record _ fields, h => by simpa [eqv] using membersIn_of_subset fields fields h (List.Subset.refl _)

theorem eqvItems_self : ∀ vs : List Value, anyHasNaN vs = false → eqvItems vs vs = true
  | [], _ => by rw [eqvItems]
  | v :: vs, h => by
    rw [anyHasNaN, Bool.or_eq_false_iff] at h
    rw [eqvItems, eqv_self v h.1, eqvItems_self vs h.2, Bool.and_self]

theorem itemsIn_of_subset : ∀ vs ws : List Value, anyHasNaN vs = false → vs ⊆ ws → itemsIn vs ws = true
  | [], _, _, _ => by rw [itemsIn]
  | v :: vs, ws, h, hsub => by
    rw [anyHasNaN, Bool.or_eq_false_iff] at h
    rw [List.cons_subset] at hsub
    rw [itemsIn, itemsIn_of_subset vs ws h.2 hsub.2, Bool.and_true, List.any_eq_true]
    exact ⟨v, hsub.1, eqv_self v h.1⟩

theorem membersIn_of_subset : ∀ es fs : List (String × Value), memberHasNaN es = false → es ⊆ fs →
    membersIn es fs = true
  | [], _, _, _ => by rw [membersIn]
  | (name, v) :: es, fs, h, hsub => by
    rw [memberHasNaN, Bool.or_eq_false_iff] at h
    rw [List.cons_subset] at hsub
    rw [membersIn, membersIn_of_subset es fs h.2 hsub.2, Bool.and_true, List.any_eq_true]
    exact ⟨(name, v), hsub.1, by simpa using eqv_self v h.1⟩

end

/-- **Reflexivity**: a value without such a number is equal to itself. -/
theorem equal_self {v : Value} (h : v.hasNaN = false) : v.equal v = true :=
  eqv_self _ ((hasNaN_comparable v).trans h)

end ModelCompiler.Value
