import ModelCompiler.Proofs.Classified

/-!
# Catalogs that grow under a universe

A universe is founded on two catalogs that share no name, and either of them may take more types afterwards. A run of
registrations is a list of calls, each on one of the catalogs; a call that is refused leaves both as they are.

* **Step** (`disjoint_grown_iff`): a call keeps the catalogs disjoint exactly when the other catalog does not have the
  name that it registers. Its own catalog refuses only the names that it has itself.
* **Run** (`get?_scalars_run`, `get?_objects_run`): a catalog keeps the entry of every name that it has.
* **Ambiguity** (`unambiguous_iff_no_clash`): the names of a universe keep their meaning throughout a run exactly when
  no call clashes with the other catalog. The name of a scalar type is never lost; that of an object type is, once the
  scalars take it (`date_shadowed`).
-/

namespace ModelCompiler

namespace Keyed

variable {α κ : Type} {key : α → κ} [DecidableEq κ]

theorem get?_of_add? {t t' : Keyed key} {a : α} (h : t.add? a = some t') (k : κ) :
    t'.get? k = (t.get? k).or (if key a = k then some a else none) := by
  rw [get?, items_add? h, List.find?_append]
  by_cases hk : key a = k <;> simp [get?, hk]

end Keyed

/-! ## Growing a catalog -/

namespace Catalog

/-- The catalog after a call that registers a type; a refused type leaves it as it is. -/
def grown (c : Catalog) (b : BuiltIn) : Catalog :=
  match c.register b with
  | .ok c' => c'
  | .error _ => c

/-- A name that a catalog has keeps its entry, and the name that it is given gets the new one otherwise. -/
theorem get?_grown (c : Catalog) (b : BuiltIn) (name : String) :
    (c.grown b).get? name = (c.get? name).or (if b.name = name then some b else none) := by
  unfold grown register
  cases hadd : c.add? b with
  | some c' => exact Keyed.get?_of_add? hadd name
  | none =>
    obtain ⟨b', hb'⟩ := Keyed.contains_iff_get?.mp (Keyed.add?_eq_none_iff.mp hadd)
    by_cases hname : b.name = name
    · subst hname
      simp [hb']
    · simp [hname]

theorem contains_grown {c : Catalog} {b : BuiltIn} {name : String} :
    (c.grown b).contains name = true ↔ c.contains name = true ∨ b.name = name := by
  rw [Keyed.contains_iff_get?, Keyed.contains_iff_get?, get?_grown]
  by_cases hname : b.name = name
  · cases c.get? name <;> simp [hname]
  · simp [hname]

end Catalog

/-- A call that registers a type among the scalars or among the objects. -/
inductive Registration where
  | scalar (b : BuiltIn)
  | object (b : BuiltIn)

namespace Universe

/-! ## Disjoint catalogs -/

/-- No name is in both catalogs. -/
def Disjoint (u : Universe) : Prop := ∀ name, ¬(u.scalars.contains name = true ∧ u.objects.contains name = true)

variable {u : Universe}

theorem found_eq_ok_iff {scalars objects : Catalog} : found scalars objects = .ok u ↔
    u = ⟨scalars, objects⟩ ∧ u.Disjoint := by
  have hnone : (objects.items.find? fun b => scalars.contains b.name) = none ↔
      Disjoint ⟨scalars, objects⟩ := by
    rw [List.find?_eq_none]
    constructor
    · rintro h name ⟨hs, ho⟩
      obtain ⟨b, hb, rfl⟩ := Keyed.contains_iff_exists.mp ho
      exact h b hb hs
    · intro h b hb hs
      exact h b.name ⟨hs, Keyed.contains_of_mem hb⟩
  unfold found
  cases hfind : objects.items.find? fun b => scalars.contains b.name with
  | none =>
    constructor
    · intro h
      obtain rfl := Except.ok.inj h
      exact ⟨rfl, hnone.mp hfind⟩
    · rintro ⟨rfl, -⟩
      rfl
  | some b =>
    refine iff_of_false (by simp) ?_
    rintro ⟨rfl, hd⟩
    rw [hnone.mpr hd] at hfind
    cases hfind

/-! ## The kind of a name -/

theorem resolve_eq_scalar_iff {name : String} : u.resolve name = .scalar ↔ u.scalars.contains name = true := by
  unfold resolve
  cases u.scalars.contains name <;> cases u.objects.contains name <;> simp

theorem resolve_eq_object_iff {name : String} : u.resolve name = .object ↔
    u.scalars.contains name = false ∧ u.objects.contains name = true := by
  unfold resolve
  cases u.scalars.contains name <;> cases u.objects.contains name <;> simp

theorem get?_of_scalar {name : String} {b : BuiltIn} (h : u.scalars.get? name = some b) : u.get? name = some b := by
  simp [get?, h]

theorem get?_of_not_scalar {name : String} (h : u.scalars.contains name = false) :
    u.get? name = u.objects.get? name := by
  cases hs : u.scalars.get? name with
  | none => simp [get?, hs]
  | some b =>
    rw [Keyed.contains_iff_get?.mpr ⟨b, hs⟩] at h
    cases h

/-! ## One call -/

/-- The universe after a call on one of its catalogs. -/
def grown (u : Universe) : Registration → Universe
  | .scalar b => { u with scalars := u.scalars.grown b }
  | .object b => { u with objects := u.objects.grown b }

/-- Whether the call is for a name that the other catalog has. -/
def clashes (u : Universe) : Registration → Bool
  | .scalar b => u.objects.contains b.name
  | .object b => u.scalars.contains b.name

theorem get?_scalars_grown {name : String} {b : BuiltIn} (r : Registration) (h : u.scalars.get? name = some b) :
    (u.grown r).scalars.get? name = some b := by
  cases r with
  | scalar b' => simp [grown, Catalog.get?_grown, h]
  | object b' => exact h

theorem get?_objects_grown {name : String} {b : BuiltIn} (r : Registration) (h : u.objects.get? name = some b) :
    (u.grown r).objects.get? name = some b := by
  cases r with
  | scalar b' => exact h
  | object b' => simp [grown, Catalog.get?_grown, h]

theorem contains_scalars_grown {name : String} {r : Registration} : (u.grown r).scalars.contains name = true ↔
    u.scalars.contains name = true ∨ ∃ b, r = .scalar b ∧ b.name = name := by
  cases r with
  | scalar b => simp [grown, Catalog.contains_grown]
  | object b => simp [grown]

/-- A call keeps the catalogs disjoint when it does not clash. -/
theorem disjoint_grown_iff (hd : u.Disjoint) {r : Registration} : (u.grown r).Disjoint ↔ ¬u.clashes r := by
  cases r with
  | scalar b =>
    simp only [Disjoint, grown, clashes, Catalog.contains_grown]
    constructor
    · exact fun h hclash => h b.name ⟨.inr rfl, hclash⟩
    · rintro h name ⟨hs | rfl, ho⟩
      · exact hd name ⟨hs, ho⟩
      · exact h ho
  | object b =>
    simp only [Disjoint, grown, clashes, Catalog.contains_grown]
    constructor
    · exact fun h hclash => h b.name ⟨hclash, .inr rfl⟩
    · rintro h name ⟨hs, ho | rfl⟩
      · exact hd name ⟨hs, ho⟩
      · exact h hs

/-! ## A run of calls -/

/-- The universe after a run of calls. -/
def run (u : Universe) (calls : List Registration) : Universe := calls.foldl grown u

theorem run_concat (u : Universe) (calls : List Registration) (r : Registration) :
    u.run (calls ++ [r]) = (u.run calls).grown r := by
  simp [run]

theorem get?_scalars_run {name : String} {b : BuiltIn} (h : u.scalars.get? name = some b)
    (calls : List Registration) : (u.run calls).scalars.get? name = some b := by
  induction calls using List.reverseRecOn with
  | nil => exact h
  | append_singleton calls r ih =>
    rw [run_concat]
    exact get?_scalars_grown r ih

theorem get?_objects_run {name : String} {b : BuiltIn} (h : u.objects.get? name = some b)
    (calls : List Registration) : (u.run calls).objects.get? name = some b := by
  induction calls using List.reverseRecOn with
  | nil => exact h
  | append_singleton calls r ih =>
    rw [run_concat]
    exact get?_objects_grown r ih

/-- The scalars have the names that they had and those that calls registered with them. -/
theorem contains_scalars_run {name : String} {calls : List Registration} :
    (u.run calls).scalars.contains name = true ↔
      u.scalars.contains name = true ∨ ∃ b, .scalar b ∈ calls ∧ b.name = name := by
  induction calls using List.reverseRecOn with
  | nil => simp [run]
  | append_singleton calls r ih =>
    rw [run_concat, contains_scalars_grown, ih, or_assoc, ← exists_or]
    simp only [List.mem_append, List.mem_singleton, or_and_right, eq_comm]

/-- The catalogs are disjoint all along a run in which no call clashes. -/
theorem disjoint_run (hd : u.Disjoint) {calls : List Registration}
    (h : ∀ before r, before ++ [r] <+: calls → ¬(u.run before).clashes r) : (u.run calls).Disjoint := by
  induction calls using List.reverseRecOn with
  | nil => exact hd
  | append_singleton calls r ih =>
    have hbefore := ih fun before r' hstart => h before r' (hstart.trans (List.prefix_append calls [r]))
    rw [run_concat, disjoint_grown_iff hbefore]
    exact h calls r (List.prefix_refl _)

/-! ## Names that keep their meaning -/

/-- A name has the same kind and the same entry in both universes. -/
def SameMeaning (u u' : Universe) (name : String) : Prop :=
  u'.resolve name = u.resolve name ∧ u'.get? name = u.get? name

/-- The name of a scalar type keeps its meaning in every run. -/
theorem sameMeaning_of_scalar {name : String} (h : u.resolve name = .scalar) (calls : List Registration) :
    u.SameMeaning (u.run calls) name := by
  obtain ⟨b, hb⟩ := Keyed.contains_iff_get?.mp (resolve_eq_scalar_iff.mp h)
  have hb' := get?_scalars_run hb calls
  refine ⟨?_, (get?_of_scalar hb').trans (get?_of_scalar hb).symm⟩
  rw [h, resolve_eq_scalar_iff]
  exact Keyed.contains_iff_get?.mpr ⟨b, hb'⟩

/-- The name of an object type keeps its meaning for as long as the scalars do not have it. -/
theorem sameMeaning_of_object_iff {name : String} (h : u.resolve name = .object) (calls : List Registration) :
    u.SameMeaning (u.run calls) name ↔ (u.run calls).scalars.contains name = false := by
  obtain ⟨hs, ho⟩ := resolve_eq_object_iff.mp h
  constructor
  · rintro ⟨hkind, -⟩
    rw [h, resolve_eq_object_iff] at hkind
    exact hkind.1
  · intro hfree
    obtain ⟨b, hb⟩ := Keyed.contains_iff_get?.mp ho
    have hb' := get?_objects_run hb calls
    refine ⟨?_, ?_⟩
    · rw [h, resolve_eq_object_iff]
      exact ⟨hfree, Keyed.contains_iff_get?.mpr ⟨b, hb'⟩⟩
    · rw [get?_of_not_scalar hfree, get?_of_not_scalar hs, hb, hb']

/-- All names of a universe keep their meaning in a run that leaves the catalogs disjoint. -/
theorem sameMeaning_of_disjoint {calls : List Registration} (hd : (u.run calls).Disjoint) {name : String}
    (h : u.resolve name ≠ .unknown) : u.SameMeaning (u.run calls) name := by
  cases hkind : u.resolve name with
  | scalar => exact sameMeaning_of_scalar hkind calls
  | object =>
    rw [sameMeaning_of_object_iff hkind, Bool.eq_false_iff]
    intro hs
    obtain ⟨b, hb⟩ := Keyed.contains_iff_get?.mp (resolve_eq_object_iff.mp hkind).2
    exact hd name ⟨hs, Keyed.contains_iff_get?.mpr ⟨b, get?_objects_run hb calls⟩⟩
  | unknown => exact absurd hkind h

/-- At every moment of a run the catalogs share no name, and the names that had a meaning at its start have it still. -/
def Unambiguous (u : Universe) (calls : List Registration) : Prop :=
  ∀ before, before <+: calls → (u.run before).Disjoint ∧
    ∀ name, u.resolve name ≠ .unknown → u.SameMeaning (u.run before) name

/-- **When a universe stays unambiguous**: a universe founded on two catalogs is unambiguous throughout a run exactly
when no call of it registers a name that the other catalog then has. In any run, the name of a scalar type keeps its
meaning, and that of an object type keeps it exactly when no call registers it among the scalars. -/
theorem unambiguous_iff_no_clash {scalars objects : Catalog} (h : found scalars objects = .ok u)
    (calls : List Registration) :
    (u.Unambiguous calls ↔ ∀ before r, before ++ [r] <+: calls → ¬(u.run before).clashes r) ∧
      (∀ name, u.resolve name = .scalar → u.SameMeaning (u.run calls) name) ∧
      ∀ name, u.resolve name = .object →
        (u.SameMeaning (u.run calls) name ↔ ∀ b, .scalar b ∈ calls → b.name ≠ name) := by
  obtain ⟨-, hd⟩ := found_eq_ok_iff.mp h
  refine ⟨⟨fun hkept before r hstart => ?_, fun hfree before hstart => ?_⟩,
    fun name hkind => sameMeaning_of_scalar hkind calls, fun name hkind => ?_⟩
  · have hbefore := (hkept before ((List.prefix_append before [r]).trans hstart)).1
    rw [← disjoint_grown_iff hbefore, ← run_concat]
    exact (hkept _ hstart).1
  · have hbefore := disjoint_run hd fun before' r hstart' => hfree before' r (hstart'.trans hstart)
    exact ⟨hbefore, fun name => sameMeaning_of_disjoint hbefore⟩
  · rw [sameMeaning_of_object_iff hkind, Bool.eq_false_iff, Ne, contains_scalars_run,
      (resolve_eq_object_iff.mp hkind).1]
    simp

end Universe

namespace Sample

/-- A type that is called "Date" and has the texts as its values. -/
def textDate : BuiltIn := ⟨"Date", BuiltIn.acceptsString, BuiltIn.typeofGuard "string"⟩

def mapType : BuiltIn := ⟨"Map", BuiltIn.acceptsObject, BuiltIn.instanceGuard "Map" "Map<unknown, unknown>"⟩

end Sample

namespace Universe

open Sample

/-- The objects take a new type and refuse a second date, and nothing changes its meaning. A scalar of the name of the
new type would clash. -/
theorem unambiguous_iff_no_clash_standard : found standard.scalars standard.objects = .ok standard ∧
    standard.Unambiguous [.object mapType, .object textDate] ∧
    ¬standard.Unambiguous [.object mapType, .scalar mapType] := by
  have hfound : found standard.scalars standard.objects = .ok standard := rfl
  refine ⟨hfound, (unambiguous_iff_no_clash hfound _).1.mpr ?_, fun h => ?_⟩
  · intro before r hstart
    obtain ⟨rfl, rfl⟩ | ⟨rfl, rfl⟩ :
        before = [] ∧ r = .object mapType ∨ before = [.object mapType] ∧ r = .object textDate := by
      have hmem := (List.mem_inits _ _).mpr hstart
      simpa [List.append_eq_cons_iff, List.singleton_eq_append_iff] using hmem
    · decide
    · decide
  · refine (unambiguous_iff_no_clash hfound _).1.mp h [.object mapType] (.scalar mapType) (List.prefix_refl _) ?_
    decide

/-- **A date is shadowed**: the standard scalars take a type of the name of an object type, which then is a scalar type
with another guard, and the name is in both catalogs. -/
theorem date_shadowed : found standard.scalars standard.objects = .ok standard ∧ standard.resolve "Date" = .object ∧
    (standard.run [.scalar textDate]).resolve "Date" = .scalar ∧
    ((standard.run [.scalar textDate]).get? "Date").map BuiltIn.guard ≠ (standard.get? "Date").map BuiltIn.guard ∧
    ¬(standard.run [.scalar textDate]).Disjoint ∧ ¬standard.Unambiguous [.scalar textDate] := by
  have hshared : ¬(standard.run [.scalar textDate]).Disjoint := fun h => h "Date" (by decide)
  exact ⟨rfl, by decide, by decide, by decide, hshared, fun h => hshared (h _ (List.prefix_refl _)).1⟩

end Universe

end ModelCompiler
