import ModelCompiler.Proofs.Classified

/-!
# The list of structural problems

The structural problems of a set are its offences, each listed once, in the order of the places where they are
(`structuralProblems_exact`). A place is the position of a model, or the positions of a model, of a field in it and of a
type in the field's union; places are ordered lexicographically, so a model comes before its own references
(`ModelSet.OffenceAt`).

* **Places** (`inPlaces`): what is found in the entries of a list gets the position of its entry put before its place.
  This keeps the order (`pairwise_inPlaces`), and without the places it is what the entries give
  (`map_snd_inPlaces`). The offences are such a search in the models, their fields and their types, one in the other.
* **Once each** (`OffenceAt.place_unique`): names of models are distinct in a set, names of fields in a model, and types
  in a union, so what a problem says about names tells its place.
-/

namespace ModelCompiler

/-! ## Searches with places -/

section Places

variable {α β : Type}

/-- What is found in the entries of a list, each place after the position of its entry. -/
def inPlaces (find : α → List (List Nat × β)) (l : List α) : List (List Nat × β) :=
  l.zipIdx.flatMap fun (a, i) => (find a).map fun (place, b) => (i :: place, b)

variable {find : α → List (List Nat × β)} {l : List α}

theorem mem_inPlaces {place : List Nat} {b : β} : (place, b) ∈ inPlaces find l ↔
    ∃ i a rest, l[i]? = some a ∧ (rest, b) ∈ find a ∧ place = i :: rest := by
  simp only [inPlaces, List.mem_flatMap, List.mem_map, Prod.exists, List.mem_zipIdx_iff_getElem?, Prod.mk.injEq]
  constructor
  · rintro ⟨a, i, ha, rest, _, hfound, rfl, rfl⟩
    exact ⟨i, a, rest, ha, hfound, rfl⟩
  · rintro ⟨i, a, rest, ha, hfound, rfl⟩
    exact ⟨a, i, ha, rest, b, hfound, rfl, rfl⟩

theorem map_snd_inPlaces : (inPlaces find l).map Prod.snd = l.flatMap fun a => (find a).map Prod.snd := by
  have hentry : ∀ x : α × Nat, ((find x.1).map fun (place, b) => (x.2 :: place, b)).map Prod.snd =
      (find x.1).map Prod.snd := fun x => by rw [List.map_map]; rfl
  calc (inPlaces find l).map Prod.snd = l.zipIdx.flatMap fun x => (find x.1).map Prod.snd := by
        rw [inPlaces, List.map_flatMap, funext hentry]
    _ = (l.zipIdx.map Prod.fst).flatMap fun a => (find a).map Prod.snd := by rw [List.flatMap_map]
    _ = l.flatMap fun a => (find a).map Prod.snd := by rw [List.zipIdx_map_fst]

theorem pairwise_zipIdx (l : List α) : l.zipIdx.Pairwise fun x y => x.2 < y.2 := by
  rw [← List.pairwise_map, List.zipIdx_map_snd]
  exact List.pairwise_lt_range'

theorem pairwise_inPlaces (h : ∀ a ∈ l, (find a).Pairwise fun x y => x.1 < y.1) :
    (inPlaces find l).Pairwise fun x y => x.1 < y.1 := by
  rw [inPlaces, List.pairwise_flatMap]
  constructor
  · rintro ⟨a, i⟩ ha
    have ha : a ∈ l := List.mem_of_getElem? (List.mem_zipIdx_iff_getElem?.mp ha)
    exact (h a ha).map _ fun _ _ hlt => List.Lex.cons hlt
  · refine (pairwise_zipIdx l).imp fun hij x hx y hy => ?_
    obtain ⟨x', -, rfl⟩ := List.mem_map.mp hx
    obtain ⟨y', -, rfl⟩ := List.mem_map.mp hy
    exact List.Lex.rel hij

end Places

namespace ModelSet

variable {u : Universe} {set : ModelSet}

/-! ## Offences -/

/-- A field of a model of the set lists a type, all three at the given positions. -/
structure ListedAt (set : ModelSet) (i j k : Nat) (m : Model) (f : Field) (t : String) : Prop where
  model : set.items[i]? = some m
  field : m.fields.items[j]? = some f
  type : f.types[k]? = some t

/-- The problem is an offence at the place: a model with the name of a built-in type, a field that lists its own model
where that has no such name, or a field that lists what is neither a built-in type nor a model of the set. -/
def OffenceAt (u : Universe) (set : ModelSet) (place : List Nat) : Problem → Prop
  | .builtInName name => ∃ i m, place = [i] ∧ set.items[i]? = some m ∧ m.name = name ∧ u.isBuiltIn name = true
  | .selfReference model field => ∃ i j k m f, place = [i, j, k] ∧ set.ListedAt i j k m f model ∧ m.name = model ∧
      f.name = field ∧ u.isBuiltIn model = false
  | .unknownType type model field => ∃ i j k m f, place = [i, j, k] ∧ set.ListedAt i j k m f type ∧ m.name = model ∧
      f.name = field ∧ u.isBuiltIn type = false ∧ set.contains type = false
  | _ => False

theorem position_unique {α κ : Type} {key : α → κ} {t : Keyed key} {i j : Nat} {a b : α} (ha : t.items[i]? = some a)
    (hb : t.items[j]? = some b) (h : key a = key b) : i = j := by
  have hlt : i < (t.items.map key).length := by
    rw [List.length_map]
    exact (List.getElem?_eq_some_iff.mp ha).1
  refine (List.getElem?_inj hlt t.nodup).mp ?_
  rw [List.getElem?_map, List.getElem?_map, ha, hb, Option.map_some, Option.map_some, h]

/-- The names of a model, a field and a type tell where the field lists the type. -/
theorem ListedAt.place_unique {i j k i' j' k' : Nat} {m m' : Model} {f f' : Field} {t : String}
    (h : set.ListedAt i j k m f t) (h' : set.ListedAt i' j' k' m' f' t) (hm : m.name = m'.name)
    (hf : f.name = f'.name) : [i, j, k] = [i', j', k'] := by
  obtain rfl := position_unique h.model h'.model hm
  obtain rfl : m = m' := Option.some.inj (h.model.symm.trans h'.model)
  obtain rfl := position_unique h.field h'.field hf
  obtain rfl : f = f' := Option.some.inj (h.field.symm.trans h'.field)
  have hk : k < f.types.length := (List.getElem?_eq_some_iff.mp h.type).1
  rw [(List.getElem?_inj hk f.types_nodup).mp (h.type.trans h'.type.symm)]

/-- A problem is an offence at one place at most. -/
theorem OffenceAt.place_unique {place place' : List Nat} : ∀ {p : Problem}, set.OffenceAt u place p →
    set.OffenceAt u place' p → place = place'
  | .builtInName _, ⟨i, m, hp, hm, hname, _⟩, ⟨i', m', hp', hm', hname', _⟩ => by
    rw [hp, hp', position_unique hm hm' (hname.trans hname'.symm)]
  | .selfReference _ _, ⟨i, j, k, m, f, hp, h, hm, hf, _⟩, ⟨i', j', k', m', f', hp', h', hm', hf', _⟩ => by
    rw [hp, hp', h.place_unique h' (hm.trans hm'.symm) (hf.trans hf'.symm)]
  | .unknownType _ _ _, ⟨i, j, k, m, f, hp, h, hm, hf, _⟩, ⟨i', j', k', m', f', hp', h', hm', hf', _⟩ => by
    rw [hp, hp', h.place_unique h' (hm.trans hm'.symm) (hf.trans hf'.symm)]

/-! ## The offences by place -/

/-- The offences in a field of a model, by the positions of the types. -/
def fieldOffences (u : Universe) (set : ModelSet) (m : Model) (f : Field) : List (List Nat × Problem) :=
  inPlaces (fun t => (referenceProblem? u set m f.name t).toList.map fun p => ([], p)) f.types

/-- The offences of a model: its name and then its fields. -/
def modelOffences (u : Universe) (set : ModelSet) (m : Model) : List (List Nat × Problem) :=
  (if u.isBuiltIn m.name then [([], .builtInName m.name)] else []) ++
    inPlaces (fieldOffences u set m) m.fields.items

def offences (u : Universe) (set : ModelSet) : List (List Nat × Problem) := inPlaces (modelOffences u set) set.items

theorem map_snd_fieldOffences {m : Model} {f : Field} : (fieldOffences u set m f).map Prod.snd =
    (f.types.map fun t => (f.name, t)).filterMap fun (field, t) => referenceProblem? u set m field t := by
  rw [fieldOffences, map_snd_inPlaces, List.filterMap_map, List.filterMap_eq_flatMap_toList]
  refine List.flatMap_congr fun t _ => ?_
  rw [List.map_map]
  exact List.map_id _

theorem map_snd_modelOffences {m : Model} : (modelOffences u set m).map Prod.snd = problemsOf u set m := by
  rw [modelOffences, problemsOf, List.map_append, map_snd_inPlaces, Model.references, List.filterMap_flatMap,
    List.flatMap_congr fun f _ => map_snd_fieldOffences]
  cases u.isBuiltIn m.name <;> rfl

/-- Without their places the offences are the structural problems. -/
theorem map_snd_offences : (set.offences u).map Prod.snd = set.structuralProblems u := by
  rw [offences, map_snd_inPlaces, structuralProblems]
  exact List.flatMap_congr fun m _ => map_snd_modelOffences

theorem pairwise_fieldOffences {m : Model} {f : Field} :
    (fieldOffences u set m f).Pairwise fun x y => x.1 < y.1 := by
  refine pairwise_inPlaces fun t _ => ?_
  cases referenceProblem? u set m f.name t <;> simp

/-- The name of a model has a place before those of its fields. -/
theorem pairwise_modelOffences {m : Model} : (modelOffences u set m).Pairwise fun x y => x.1 < y.1 := by
  rw [modelOffences, List.pairwise_append]
  refine ⟨?_, pairwise_inPlaces fun f _ => pairwise_fieldOffences, ?_⟩
  · cases u.isBuiltIn m.name <;> simp
  · rintro x hx ⟨place, p⟩ hy
    obtain ⟨j, f, rest, -, -, rfl⟩ := mem_inPlaces.mp hy
    have hx : x = ([], .builtInName m.name) := by
      split at hx
      · exact List.mem_singleton.mp hx
      · cases hx
    rw [hx]
    exact List.Lex.nil

theorem pairwise_offences : (set.offences u).Pairwise fun x y => x.1 < y.1 :=
  pairwise_inPlaces fun _ _ => pairwise_modelOffences

theorem referenceProblem?_eq_some_iff {m : Model} {field type : String} {p : Problem} :
    referenceProblem? u set m field type = some p ↔ u.isBuiltIn type = false ∧
      (set.contains type = false ∧ p = .unknownType type m.name field ∨
        set.contains type = true ∧ type = m.name ∧ p = .selfReference m.name field) := by
  unfold referenceProblem?
  by_cases hn : type = m.name
  · subst hn
    cases u.isBuiltIn m.name <;> cases set.contains m.name <;> simp [eq_comm]
  · cases u.isBuiltIn type <;> cases set.contains type <;> simp [hn, eq_comm]

theorem mem_modelOffences {m : Model} {place : List Nat} {p : Problem} : (place, p) ∈ modelOffences u set m ↔
    place = [] ∧ u.isBuiltIn m.name = true ∧ p = .builtInName m.name ∨
      ∃ j f k t, m.fields.items[j]? = some f ∧ f.types[k]? = some t ∧ place = [j, k] ∧
        referenceProblem? u set m f.name t = some p := by
  rw [modelOffences, List.mem_append]
  refine or_congr (by cases u.isBuiltIn m.name <;> simp) ?_
  simp only [mem_inPlaces, fieldOffences, List.mem_map, Option.mem_toList, Prod.mk.injEq]
  constructor
  · rintro ⟨j, f, _, hf, ⟨k, t, _, ht, ⟨_, hp, rfl, rfl⟩, rfl⟩, rfl⟩
    exact ⟨j, f, k, t, hf, ht, rfl, hp⟩
  · rintro ⟨j, f, k, t, hf, ht, rfl, hp⟩
    exact ⟨j, f, [k], hf, ⟨k, t, [], ht, ⟨p, hp, rfl, rfl⟩, rfl⟩, rfl⟩

/-- What is found by place is what offends at the place. -/
theorem mem_offences {place : List Nat} {p : Problem} : (place, p) ∈ set.offences u ↔ set.OffenceAt u place p := by
  simp only [offences, mem_inPlaces, mem_modelOffences, referenceProblem?_eq_some_iff]
  constructor
  · rintro ⟨i, m, _, hm, ⟨rfl, hb, rfl⟩ | ⟨j, f, k, t, hf, ht, rfl, hb, ⟨hc, rfl⟩ | ⟨-, rfl, rfl⟩⟩, rfl⟩
    · exact ⟨i, m, rfl, hm, rfl, hb⟩
    · exact ⟨i, j, k, m, f, rfl, ⟨hm, hf, ht⟩, rfl, rfl, hb, hc⟩
    · exact ⟨i, j, k, m, f, rfl, ⟨hm, hf, ht⟩, rfl, rfl, hb⟩
  · intro h
    cases p with
    | builtInName name =>
      obtain ⟨i, m, rfl, hm, rfl, hb⟩ := h
      exact ⟨i, m, [], hm, .inl ⟨rfl, hb, rfl⟩, rfl⟩
    | selfReference model field =>
      obtain ⟨i, j, k, m, f, rfl, h, rfl, rfl, hb⟩ := h
      have hc : set.contains m.name = true := Keyed.contains_of_mem (List.mem_of_getElem? h.model)
      exact ⟨i, m, [j, k], h.model, .inr ⟨j, f, k, _, h.field, h.type, rfl, hb, .inr ⟨hc, rfl, rfl⟩⟩, rfl⟩
    | unknownType type model field =>
      obtain ⟨i, j, k, m, f, rfl, h, rfl, rfl, hb, hc⟩ := h
      exact ⟨i, m, [j, k], h.model, .inr ⟨j, f, k, _, h.field, h.type, rfl, hb, .inl ⟨hc, rfl⟩⟩, rfl⟩
    | _ => exact h.elim

theorem nodup_structuralProblems (u : Universe) (set : ModelSet) : (set.structuralProblems u).Nodup := by
  rw [← map_snd_offences, List.Nodup, List.pairwise_map]
  refine pairwise_offences.imp_of_mem fun {x y} hx hy hlt heq => ?_
  have hplace : x.1 = y.1 := (mem_offences.mp hx).place_unique (heq ▸ mem_offences.mp hy)
  exact lt_irrefl y.1 (hplace ▸ hlt)

theorem classify_of_head? {allowCycles : Bool} {p : Problem} (h : (set.structuralProblems u).head? = some p) :
    (set.classify u allowCycles).result = .error p := by
  obtain ⟨ps, hps⟩ : ∃ ps, set.structuralProblems u = p :: ps := List.head?_eq_some_iff.mp h
  rw [classify_result, problems, hps]
  rfl

/-- **Every offence is listed once, in the order of the places**: the structural problems are the offences of the set in
the order of the places where they are, no problem is listed twice, and the first one ends a classification. -/
theorem structuralProblems_exact (u : Universe) (set : ModelSet) :
    (∃ located : List (List Nat × Problem), located.map Prod.snd = set.structuralProblems u ∧
      (∀ place p, (place, p) ∈ located ↔ set.OffenceAt u place p) ∧ located.Pairwise fun x y => x.1 < y.1) ∧
    (set.structuralProblems u).Nodup ∧
    ∀ allowCycles p, (set.structuralProblems u).head? = some p → (set.classify u allowCycles).result = .error p :=
  ⟨⟨set.offences u, map_snd_offences, fun _ _ => mem_offences, pairwise_offences⟩, nodup_structuralProblems u set,
    fun _ _ => classify_of_head?⟩

end ModelSet

namespace Sample

/-- Has the name of a built-in type and lists it. -/
def text : Model :=
  ⟨"string", ⟨[⟨"self", ["string", "Nope"], none, by decide, by decide⟩,
    ⟨"node", ["Node"], some .owner, by decide, by decide⟩], by decide⟩⟩

def node : Model :=
  ⟨"Node", ⟨[⟨"next", ["null", "Node"], none, by decide, by decide⟩,
    ⟨"last", ["Node", "Gone"], some .everyone, by decide, by decide⟩], by decide⟩⟩

/-- Two models that break every rule. -/
def tangle : ModelSet := ⟨[text, node], by decide⟩

end Sample

namespace ModelSet

theorem structuralProblems_exact_tangle : Sample.tangle.structuralProblems .standard =
      [.builtInName "string", .unknownType "Nope" "string" "self", .selfReference "Node" "next",
        .selfReference "Node" "last", .unknownType "Gone" "Node" "last"] ∧
    (Sample.tangle.structuralProblems .standard).head? = some (.builtInName "string") ∧
    (Sample.tangle.classify .standard true).result = .error (.builtInName "string") ∧
    Sample.tangle.OffenceAt .standard [1, 1, 1] (.unknownType "Gone" "Node" "last") :=
  ⟨rfl, rfl, (structuralProblems_exact .standard Sample.tangle).2.2 true _ rfl,
    1, 1, 1, Sample.node, _, rfl, ⟨rfl, rfl, rfl⟩, rfl, rfl, rfl, rfl⟩

end ModelSet

end ModelCompiler
