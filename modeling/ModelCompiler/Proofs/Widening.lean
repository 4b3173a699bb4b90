import ModelCompiler.Proofs.Classified
import ModelCompiler.Proofs.Conformity
import ModelCompiler.Proofs.ReferenceGraph

/-!
# Widening models

A model is widened by another one that has no field of its own and lets each field that it keeps have the types it had,
in any order, and perhaps more. Here all models of a classification are widened at once, over one universe.

* **Step** (`admits_of_widened`): an alternative that admits a value still does so, if no model reports more on it.
* **Run** (`report_subset_of_widened`): no model reports more on any value. The induction is on the value; a field fails
  when every alternative does, and a model as an alternative fails when it reports something, so the inclusion turns
  round twice on the way down.
* **Reordering** (`report_eq_of_reordered`): the order of the types of a field changes no report, as each of the two
  classifications widens the other.
-/

namespace ModelCompiler

/-! ## Wider models -/

namespace Model

/-- Each field of the second model is a field of the first and has at least the types that it has there. -/
def WidenedBy (m m' : Model) : Prop :=
  ∀ f' ∈ m'.fields.items, ∃ f ∈ m.fields.items, f.name = f'.name ∧ f.types ⊆ f'.types

/-- The fields of both models have the same names in the same order, and the same types in any order. -/
def ReorderedBy (m m' : Model) : Prop :=
  List.Forall₂ (fun f f' => f.name = f'.name ∧ f.types.Perm f'.types) m.fields.items m'.fields.items

theorem ReorderedBy.symm {m m' : Model} (h : m.ReorderedBy m') : m'.ReorderedBy m :=
  h.flip.imp fun _ _ hf => ⟨hf.1.symm, hf.2.symm⟩

theorem ReorderedBy.widenedBy {m m' : Model} (h : m.ReorderedBy m') : m.WidenedBy m' := by
  intro f' hf'
  obtain ⟨f, hf, hname, htypes⟩ := Results.exists_left_of_mem h hf'
  exact ⟨f, hf, hname, htypes.subset⟩

end Model

namespace Scope

/-- Two scopes have the same built-in types and models of the same names, and the models of one name are related. -/
structure Matches (r : Model → Model → Prop) (s s' : Scope) : Prop where
  builtIns : s'.builtIns = s.builtIns
  isModel : ∀ name, s'.isModel name = s.isModel name
  related : ∀ name m m', s.model? name = some m → s'.model? name = some m' → r m m'

variable {r r' : Model → Model → Prop} {s s' : Scope}

theorem Matches.mono (h : s.Matches r s') (hr : ∀ m m', r m m' → r' m m') : s.Matches r' s' :=
  ⟨h.builtIns, h.isModel, fun name m m' hm hm' => hr m m' (h.related name m m' hm hm')⟩

theorem Matches.flip (h : s.Matches r s') (hr : ∀ m m', r m m' → r' m' m) : s'.Matches r' s :=
  ⟨h.builtIns.symm, fun name => (h.isModel name).symm, fun name m m' hm hm' => hr m' m (h.related name m' m hm' hm)⟩

/-- A name that is that of a model in one scope is that of a model in the other. -/
theorem Matches.exists_model? (h : s.Matches r s') {name : String} {m : Model} (hm : s.model? name = some m) :
    ∃ m', s'.model? name = some m' := by
  have hmodel : s'.isModel name = true := by
    rw [h.isModel]
    exact Classification.isModel_iff_model?.mpr ⟨m, hm⟩
  exact Classification.isModel_iff_model?.mp hmodel

theorem Matches.model?_eq_none (h : s.Matches r s') {name : String} (hm : s.model? name = none) :
    s'.model? name = none := by
  cases hm' : s'.model? name with
  | none => rfl
  | some m' =>
    have hflip : s'.Matches (fun m' m => r m m') s := h.flip fun _ _ hr => hr
    obtain ⟨m, hm''⟩ := hflip.exists_model? hm'
    rw [hm] at hm''
    cases hm''

/-! ## What widening does to a report -/

/-- An alternative that admits a value still does so, if no model reports more on it. -/
theorem admits_of_widened (h : s.Matches Model.WidenedBy s') {value : Value}
    (hreport : ∀ name m m', s.model? name = some m → s'.model? name = some m' →
      s'.report m' value ⊆ s.report m value)
    {type : String} (hadmits : s.admits value type = true) : s'.admits value type = true := by
  unfold admits at hadmits ⊢
  cases hm : s.model? type with
  | none =>
    rw [hm] at hadmits
    rw [h.model?_eq_none hm, h.builtIns]
    exact hadmits
  | some m =>
    obtain ⟨m', hm'⟩ := h.exists_model? hm
    simp only [hm, List.isEmpty_iff] at hadmits
    simp only [hm', List.isEmpty_iff]
    have hsubset := hreport type m m' hm hm'
    rw [hadmits] at hsubset
    exact List.subset_nil.mp hsubset

/-- A wider model reports no field more, if no alternative admits less. -/
theorem failing_subset_of_widened {m m' : Model} (h : m.WidenedBy m') (admits admits' : String → String → Bool)
    (hadmits : ∀ field type, admits field type = true → admits' field type = true) :
    (m'.fields.items.filter fun f => !f.types.any (admits' f.name)).map Field.name ⊆
      (m.fields.items.filter fun f => !f.types.any (admits f.name)).map Field.name := by
  intro name hname
  obtain ⟨f', hf', rfl⟩ := List.mem_map.mp hname
  obtain ⟨hmem', hfails'⟩ := List.mem_filter.mp hf'
  obtain ⟨f, hf, hfname, htypes⟩ := h f' hmem'
  refine List.mem_map.mpr ⟨f, List.mem_filter.mpr ⟨hf, ?_⟩, hfname⟩
  rw [Bool.not_eq_true', List.any_eq_false] at hfails' ⊢
  intro type htype haccepted
  rw [hfname] at haccepted
  exact hfails' type (htypes htype) (hadmits f'.name type haccepted)

/-- **Nothing more is reported** on any value when all models are widened. -/
theorem report_subset_of_widened (hs : s.Closed) (hs' : s'.Closed) (h : s.Matches Model.WidenedBy s')
    (value : Value) : ∀ name m m', s.model? name = some m → s'.model? name = some m' →
      s'.report m' value ⊆ s.report m value := by
  induction value using Value.member_induction with
  | other value hv =>
    intro name m m' hm hm'
    rw [report_other hs (hs.settles name m hm) hv, report_other hs' (hs'.settles name m' hm') hv]
    exact List.Subset.refl _
  | object members ih =>
    intro name m m' hm hm'
    obtain ⟨b, hb⟩ := (hs.settles name m hm).root
    have hb' : s'.builtIns.genericObject? = some b := by rw [h.builtIns, hb]
    rw [report_object hs (hs.settles name m hm) hb, report_object hs' (hs'.settles name m' hm') hb']
    cases b.accepts (.object members) with
    | false => exact List.Subset.refl _
    | true =>
      rw [if_pos rfl, if_pos rfl]
      exact failing_subset_of_widened (h.related name m m' hm hm')
        (fun field => s.admits ((Value.object members).member field))
        (fun field => s'.admits ((Value.object members).member field)) fun field _ => admits_of_widened h (ih field)

/-! ## What reordering does to a report -/

/-- An alternative admits what it admits among reordered models. -/
theorem admits_eq_of_reordered (hs : s.Closed) (hs' : s'.Closed) (h : s.Matches Model.ReorderedBy s')
    (value : Value) (type : String) : s'.admits value type = s.admits value type := by
  have hwide : s.Matches Model.WidenedBy s' := h.mono fun _ _ => Model.ReorderedBy.widenedBy
  have hwide' : s'.Matches Model.WidenedBy s := h.flip fun _ _ hr => hr.symm.widenedBy
  rw [Bool.eq_iff_iff]
  exact ⟨admits_of_widened hwide' (report_subset_of_widened hs' hs hwide' value),
    admits_of_widened hwide (report_subset_of_widened hs hs' hwide value)⟩

theorem failing_eq_of_reordered (admits : String → String → Bool) : ∀ {fields fields' : List Field},
    List.Forall₂ (fun f f' => f.name = f'.name ∧ f.types.Perm f'.types) fields fields' →
      (fields'.filter fun f => !f.types.any (admits f.name)).map Field.name =
        (fields.filter fun f => !f.types.any (admits f.name)).map Field.name
  | _, _, .nil => rfl
  | f :: _, f' :: _, .cons ⟨hname, htypes⟩ hrest => by
    rw [List.filter_cons, List.filter_cons, ← hname, htypes.any_eq]
    cases f'.types.any (admits f.name) with
    | true => exact failing_eq_of_reordered admits hrest
    | false =>
      simp only [Bool.not_false, if_true, List.map_cons]
      rw [hname, failing_eq_of_reordered admits hrest]

/-- The same is reported on every value when types of fields are reordered. -/
theorem report_eq_of_reordered (hs : s.Closed) (hs' : s'.Closed) (h : s.Matches Model.ReorderedBy s')
    {name : String} {m m' : Model} (hm : s.model? name = some m) (hm' : s'.model? name = some m') (value : Value) :
    s'.report m' value = s.report m value := by
  by_cases hobject : ∃ members, value = .object members
  · obtain ⟨members, rfl⟩ := hobject
    obtain ⟨b, hb⟩ := (hs.settles name m hm).root
    have hb' : s'.builtIns.genericObject? = some b := by rw [h.builtIns, hb]
    have hadmits : s'.admits = s.admits := by
      funext value type
      exact admits_eq_of_reordered hs hs' h value type
    rw [report_object hs (hs.settles name m hm) hb, report_object hs' (hs'.settles name m' hm') hb', hadmits,
      failing_eq_of_reordered (fun field => s.admits ((Value.object members).member field))
        (h.related name m m' hm hm')]
  · have hv : ∀ members, value ≠ .object members := fun members e => hobject ⟨members, e⟩
    rw [report_other hs (hs.settles name m hm) hv, report_other hs' (hs'.settles name m' hm') hv]

/-! ## Two classifications -/

/-- **Widening rejects nothing more**: over one universe whose object type accepts plain objects only, let two
classifications have models of the same names, whose types all mean something. If the models of the second widen those
of the first, every failure of a value in the second is a failure in the first, so what conformed still conforms. If
they only reorder the types of fields, the failures are the same. -/
theorem failures_subset_of_widened (hs : s.Closed) (hs' : s'.Closed) (h : s.Matches Model.WidenedBy s') :
    ∀ name m, s.model? name = some m → ∃ m', s'.model? name = some m' ∧
      ∀ value, ∃ names names', s.failures m value = .ok names ∧ s'.failures m' value = .ok names' ∧
        names' ⊆ names ∧ (s.conforms m value = .ok true → s'.conforms m' value = .ok true) ∧
        (s.Matches Model.ReorderedBy s' → names' = names) := by
  intro name m hm
  obtain ⟨m', hm'⟩ := h.exists_model? hm
  refine ⟨m', hm', fun value => ?_⟩
  have hfailures := failures_eq_report_of_settles hs value m (hs.settles name m hm)
  have hfailures' := failures_eq_report_of_settles hs' value m' (hs'.settles name m' hm')
  have hsubset := report_subset_of_widened hs hs' h value name m m' hm hm'
  refine ⟨_, _, hfailures, hfailures', hsubset, ?_, fun hr => report_eq_of_reordered hs hs' hr hm hm' value⟩
  intro hconforms
  have hnil : s.report m value = [] := by simpa [conforms, hfailures, Except.map] using hconforms
  rw [hnil] at hsubset
  simp [conforms, hfailures', List.subset_nil.mp hsubset, Except.map]

end Scope

namespace Sample

/-- A chain that may end with a text too. -/
def wideChain : Model :=
  ⟨"Chain", ⟨[⟨"rest", ["undefined", "string", "Link"], none, by decide, by decide⟩], by decide⟩⟩

/-- A link that no longer has a size. -/
def wideLink : Model := ⟨"Link", ⟨[⟨"chain", ["Chain", "null"], none, by decide, by decide⟩], by decide⟩⟩

def wideChains : ModelSet := ⟨[wideLink, wideChain], by decide⟩

end Sample

namespace Scope

/-- Models that list models and standard types only make a closed scope. -/
theorem closed_standard {c : Classification} (h : ∀ m ∈ c.models, ∀ f ∈ m.fields.items, ∀ type ∈ f.types,
    c.isModel type = true ∨ Universe.standard.isBuiltIn type = true) : Closed ⟨c, .standard⟩ where
  objectsOnly := Universe.objectsOnly_standard
  settles _ m hm := by
    refine ⟨⟨_, rfl⟩, fun f hf type htype => ?_⟩
    exact (h m (Classification.mem_of_model? hm).1 f hf type htype).imp_right Universe.isBuiltIn_iff.mp

/-- Both models of a cycle are widened at once: a chain that ends with a text, behind a link without a size, fails at
the outer field and then no more. -/
theorem failures_subset_of_widened_chains :
    let s : Scope := ⟨⟨Keyed.empty, Sample.chains⟩, .standard⟩
    let s' : Scope := ⟨⟨Keyed.empty, Sample.wideChains⟩, .standard⟩
    let value : Value := .object [("rest", .object [("chain", .object [("rest", .text "end")])])]
    s.Closed ∧ s'.Closed ∧ s.Matches Model.WidenedBy s' ∧ s.model? "Chain" = some Sample.chain ∧
      s.failures Sample.chain value = .ok ["rest"] ∧ s'.failures Sample.wideChain value = .ok [] ∧
      ∀ value, s.conforms Sample.chain value = .ok true → s'.conforms Sample.wideChain value = .ok true := by
  intro s s' value
  have hs : s.Closed := closed_standard (by decide)
  have hs' : s'.Closed := closed_standard (by decide)
  have hrelated : ∀ name m m', s.model? name = some m → s'.model? name = some m' → m.WidenedBy m' := by
    intro name m m' hm hm'
    obtain ⟨hmem : m ∈ [Sample.link, Sample.chain], rfl⟩ := Classification.mem_of_model? hm
    obtain ⟨hmem' : m' ∈ [Sample.wideLink, Sample.wideChain], hname⟩ := Classification.mem_of_model? hm'
    obtain rfl | rfl : m = Sample.link ∨ m = Sample.chain := by simpa using hmem
    · obtain rfl | rfl : m' = Sample.wideLink ∨ m' = Sample.wideChain := by simpa using hmem'
      · unfold Model.WidenedBy
        decide
      · exact absurd hname (by decide)
    · obtain rfl | rfl : m' = Sample.wideLink ∨ m' = Sample.wideChain := by simpa using hmem'
      · exact absurd hname (by decide)
      · unfold Model.WidenedBy
        decide
  have hmatches : s.Matches Model.WidenedBy s' := ⟨rfl, fun _ => rfl, hrelated⟩
  refine ⟨hs, hs', hmatches, rfl, rfl, rfl, fun value hconforms => ?_⟩
  obtain ⟨m', hm', h⟩ := failures_subset_of_widened hs hs' hmatches "Chain" Sample.chain rfl
  obtain rfl : Sample.wideChain = m' := Option.some.inj hm'
  obtain ⟨_, _, -, -, -, hkeeps, -⟩ := h value
  exact hkeeps hconforms

end Scope

end ModelCompiler
