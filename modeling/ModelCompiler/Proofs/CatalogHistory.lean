import ModelCompiler.Proofs.Registrations

/-!
# The history of two catalogs

Calls on two catalogs register types with one of them or found a universe over both (`Universe.Call`). A call that is
refused leaves the catalogs as they are.

* **One catalog** (`Catalog.KeepsFirst`): it holds the types that it accepted, in their order, and the entry of a name
  is the first type that was tried under the name. One more attempt keeps this (`KeepsFirst.grown`), and so does a run
  (`KeepsFirst.foldl_grown`).
* **Two catalogs** (`scalars_after`, `objects_after`, `runCalls_of_after`): each sees only the attempts on itself.
* **Look-ups** (`lookupsAgree`): the kind of a name and its entry come from one catalog, whatever the catalogs hold.
-/

namespace ModelCompiler

/-! ## One catalog -/

namespace Catalog

variable {c c' : Catalog} {b : BuiltIn}

theorem register_eq_ok_iff : c.register b = .ok c' ↔ c.add? b = some c' := by
  unfold register
  cases c.add? b <;> simp

theorem grown_of_register (h : c.register b = .ok c') : c.grown b = c' := by
  rw [grown, h]

theorem grown_of_refused {p : Problem} (h : c.register b = .error p) : c.grown b = c := by
  rw [grown, h]

/-- The types of a list that a catalog accepts, when they are registered one after the other. -/
def accepted (c : Catalog) : List BuiltIn → List BuiltIn
  | [] => []
  | b :: bs =>
    match c.register b with
    | .ok next => b :: accepted next bs
    | .error _ => accepted c bs

/-- The items of a catalog are the types that it accepted, and a name has the first type that was tried under it. -/
structure KeepsFirst (c : Catalog) (accepted tried : List BuiltIn) : Prop where
  distinct : c.keys.Nodup
  in_order : c.items = accepted
  first : ∀ name, c.get? name = tried.find? fun b => b.name = name

theorem keepsFirst_empty : KeepsFirst Keyed.empty [] [] where
  distinct := List.nodup_nil
  in_order := rfl
  first _ := rfl

/-- One more attempt. -/
theorem KeepsFirst.grown {before tried : List BuiltIn} (h : c.KeepsFirst before tried) (b : BuiltIn) :
    (c.grown b).KeepsFirst (before ++ c.accepted [b]) (tried ++ [b]) where
  distinct := (c.grown b).nodup
  in_order := by
    cases hreg : c.register b with
    | ok next =>
      rw [grown_of_register hreg, Keyed.items_add? (register_eq_ok_iff.mp hreg), h.in_order]
      simp [accepted, hreg]
    | error p =>
      rw [grown_of_refused hreg, h.in_order]
      simp [accepted, hreg]
  first name := by
    rw [get?_grown, h.first, List.find?_append]
    by_cases hname : b.name = name <;> simp [hname]

theorem accepted_cons (c : Catalog) (b : BuiltIn) (bs : List BuiltIn) :
    c.accepted (b :: bs) = c.accepted [b] ++ (c.grown b).accepted bs := by
  cases hreg : c.register b with
  | ok next => simp [accepted, hreg, grown_of_register hreg]
  | error p => simp [accepted, hreg, grown_of_refused hreg]

theorem KeepsFirst.foldl_grown {c : Catalog} {before tried : List BuiltIn} (h : c.KeepsFirst before tried) :
    ∀ bs : List BuiltIn, (bs.foldl Catalog.grown c).KeepsFirst (before ++ c.accepted bs) (tried ++ bs)
  | [] => by simpa [accepted] using h
  | b :: bs => by
    have hrest := (h.grown b).foldl_grown bs
    rw [List.append_assoc, List.append_assoc, ← accepted_cons] at hrest
    exact hrest

/-- Types that are all accepted. -/
theorem foldl_grown_of_foldlM : ∀ {bs : List BuiltIn} {c : Catalog}, bs.foldlM register c = .ok c' →
    bs.foldl grown c = c' ∧ c.accepted bs = bs
  | [], c, h => ⟨Except.ok.inj h, rfl⟩
  | b :: bs, c, h => by
    rw [List.foldlM_cons, Results.bind_eq_ok_iff] at h
    obtain ⟨next, hreg, hrest⟩ := h
    obtain ⟨hgrown, haccepted⟩ := foldl_grown_of_foldlM hrest
    rw [List.foldl_cons, accepted_cons, grown_of_register hreg]
    exact ⟨hgrown, by simp [accepted, hreg, haccepted]⟩

theorem keepsFirst_ofTypes {types : List BuiltIn} (h : ofTypes types = .ok c) : c.KeepsFirst types types := by
  obtain ⟨hgrown, haccepted⟩ := foldl_grown_of_foldlM h
  have hkeeps := keepsFirst_empty.foldl_grown types
  rw [hgrown, haccepted] at hkeeps
  exact hkeeps

end Catalog

/-! ## Calls on two catalogs -/

namespace Universe

variable {u : Universe}

/-- A registration, or the founding of a universe. -/
inductive Call where
  | register (r : Registration)
  | found

namespace Call

/-- The type that a call tries to add to the scalars. -/
def scalar? : Call → Option BuiltIn
  | .register (.scalar b) => some b
  | _ => none

/-- The type that a call tries to add to the objects. -/
def object? : Call → Option BuiltIn
  | .register (.object b) => some b
  | _ => none

end Call

/-- What a call on the catalogs of `u` gives: the catalogs with one more type, or the universe over them. -/
def outcome (u : Universe) : Call → Except Problem Universe
  | .register (.scalar b) => (u.scalars.register b).map fun c => { u with scalars := c }
  | .register (.object b) => (u.objects.register b).map fun c => { u with objects := c }
  | .found => found u.scalars u.objects

/-- The catalogs after a call. -/
def after (u : Universe) (call : Call) : Universe :=
  match u.outcome call with
  | .ok next => next
  | .error _ => u

/-- The catalogs after a run of calls. -/
def runCalls (u : Universe) (calls : List Call) : Universe := calls.foldl after u

theorem after_of_refused {call : Call} {p : Problem} (h : u.outcome call = .error p) : u.after call = u := by
  rw [after, h]

theorem after_register (u : Universe) (r : Registration) : u.after (.register r) = u.grown r := by
  cases r with
  | scalar b =>
    rw [after, outcome, grown, Catalog.grown]
    cases u.scalars.register b <;> rfl
  | object b =>
    rw [after, outcome, grown, Catalog.grown]
    cases u.objects.register b <;> rfl

/-- A universe that is founded has the catalogs as they are. -/
theorem after_found (u : Universe) : u.after .found = u := by
  cases hfound : found u.scalars u.objects with
  | error p => exact after_of_refused hfound
  | ok v =>
    rw [after, outcome, hfound]
    exact (found_eq_ok_iff.mp hfound).1

theorem scalars_after (u : Universe) (call : Call) :
    (u.after call).scalars = call.scalar?.elim u.scalars u.scalars.grown := by
  cases call with
  | register r =>
    rw [after_register]
    cases r <;> rfl
  | found => rw [after_found]; rfl

theorem objects_after (u : Universe) (call : Call) :
    (u.after call).objects = call.object?.elim u.objects u.objects.grown := by
  cases call with
  | register r =>
    rw [after_register]
    cases r <;> rfl
  | found => rw [after_found]; rfl

/-- A catalog that changes with the attempts on it, and with nothing else, holds what they make of it. -/
theorem runCalls_of_after {catalog : Universe → Catalog} {tried? : Call → Option BuiltIn}
    (hafter : ∀ u call, catalog (u.after call) = (tried? call).elim (catalog u) (catalog u).grown) :
    ∀ (calls : List Call) (u : Universe),
      catalog (u.runCalls calls) = (calls.filterMap tried?).foldl Catalog.grown (catalog u)
  | [], _ => rfl
  | call :: calls, u => by
    have hrest := runCalls_of_after hafter calls (u.after call)
    rw [hafter] at hrest
    rw [runCalls, List.foldl_cons, ← runCalls, hrest, List.filterMap_cons]
    cases tried? call <;> rfl

/-! ## Look-ups -/

/-- The kind of a name and its entry agree: both come from the scalars, or both from the objects alone, or neither is
there. -/
structure LookupsAgree (u : Universe) (name : String) : Prop where
  unknown : u.resolve name = .unknown ↔ u.get? name = none ∧ u.isBuiltIn name = false
  scalar : u.resolve name = .scalar ↔
    u.scalars.contains name = true ∧ ∃ b, u.scalars.get? name = some b ∧ u.get? name = some b
  object : u.resolve name = .object ↔ u.scalars.contains name = false ∧ u.objects.contains name = true ∧
    ∃ b, u.objects.get? name = some b ∧ u.get? name = some b

theorem isBuiltIn_eq_false_iff {name : String} : u.isBuiltIn name = false ↔ u.resolve name = .unknown := by
  simp [isBuiltIn]

theorem lookupsAgree (u : Universe) (name : String) : u.LookupsAgree name where
  unknown := by
    rw [isBuiltIn_eq_false_iff]
    refine (and_iff_right_of_imp fun hunknown => ?_).symm
    rw [← isBuiltIn_eq_false_iff, Bool.eq_false_iff, Ne, isBuiltIn_iff, not_exists] at hunknown
    exact Option.eq_none_iff_forall_ne_some.mpr hunknown
  scalar := by
    rw [resolve_eq_scalar_iff]
    refine (and_iff_left_of_imp fun hscalar => ?_).symm
    obtain ⟨b, hb⟩ := Keyed.contains_iff_get?.mp hscalar
    exact ⟨b, hb, get?_of_scalar hb⟩
  object := by
    rw [resolve_eq_object_iff, ← and_assoc]
    refine (and_iff_left_of_imp ?_).symm
    rintro ⟨hscalar, hobject⟩
    obtain ⟨b, hb⟩ := Keyed.contains_iff_get?.mp hobject
    exact ⟨b, hb, (get?_of_not_scalar hscalar).trans hb⟩

/-- **Catalogs keep what came first**: the catalogs that their types are accepted by, after any run of calls on them.
Each holds, in order, the types that it accepted, no name twice, and the entry of a name is the first type that was
tried under it. A call that is refused changes nothing, and a universe over the catalogs looks every name up alike. -/
theorem catalogs_keep_first {scalarTypes objectTypes : List BuiltIn} {scalars objects : Catalog}
    (hs : Catalog.ofTypes scalarTypes = .ok scalars) (ho : Catalog.ofTypes objectTypes = .ok objects)
    (calls : List Call) :
    let u := runCalls ⟨scalars, objects⟩ calls
    u.scalars.KeepsFirst (scalarTypes ++ scalars.accepted (calls.filterMap Call.scalar?))
        (scalarTypes ++ calls.filterMap Call.scalar?) ∧
      u.objects.KeepsFirst (objectTypes ++ objects.accepted (calls.filterMap Call.object?))
        (objectTypes ++ calls.filterMap Call.object?) ∧
      (∀ call p, u.outcome call = .error p → u.after call = u) ∧
      (∀ v, u.outcome .found = .ok v → v = u) ∧
      ∀ name, u.LookupsAgree name := by
  intro u
  have hscalars : u.scalars = (calls.filterMap Call.scalar?).foldl Catalog.grown scalars :=
    runCalls_of_after scalars_after calls _
  have hobjects : u.objects = (calls.filterMap Call.object?).foldl Catalog.grown objects :=
    runCalls_of_after objects_after calls _
  refine ⟨?_, ?_, fun call p => after_of_refused, fun v hv => (found_eq_ok_iff.mp hv).1, lookupsAgree u⟩
  · rw [hscalars]
    exact (Catalog.keepsFirst_ofTypes hs).foldl_grown _
  · rw [hobjects]
    exact (Catalog.keepsFirst_ofTypes ho).foldl_grown _

/-- The standard objects refuse a second date. The scalars take it, which is then what the name means, and no universe
can be founded on the catalogs any more. -/
theorem catalogs_keep_first_date : Catalog.ofTypes BuiltIn.scalars = .ok standard.scalars ∧
    Catalog.ofTypes BuiltIn.objects = .ok standard.objects ∧
    let u := runCalls standard [.register (.object Sample.textDate), .found, .register (.scalar Sample.textDate)]
    u.objects.items = BuiltIn.objects ∧ u.scalars.items = BuiltIn.scalars ++ [Sample.textDate] ∧
      u.outcome .found = .error (.duplicateType "Date") ∧ u.after .found = u ∧ u.LookupsAgree "Date" ∧
      u.resolve "Date" = .scalar := by
  have hs : Catalog.ofTypes BuiltIn.scalars = .ok standard.scalars := rfl
  have ho : Catalog.ofTypes BuiltIn.objects = .ok standard.objects := rfl
  obtain ⟨hscalars, hobjects, hrefused, -, hagree⟩ := catalogs_keep_first hs ho
    [.register (.object Sample.textDate), .found, .register (.scalar Sample.textDate)]
  have hfound : (runCalls standard [.register (.object Sample.textDate), .found,
      .register (.scalar Sample.textDate)]).outcome .found = .error (.duplicateType "Date") := rfl
  exact ⟨hs, ho, hobjects.in_order, hscalars.in_order, hfound, hrefused _ _ hfound, hagree "Date", rfl⟩

end Universe

end ModelCompiler
