import Mathlib.Data.Finset.Max
import Mathlib.Data.List.Cycle
import Mathlib.Data.String.Basic
import ModelCompiler.ModelSet
import ModelCompiler.Proofs.Tables

/-!
# The reference graph

The models of a set are the vertices; a model refers to another one when a field of it lists the other's name
(`ModelSet.Refers`). The list of targets of a model is the list of its edges, each once (`mem_targetsOf`,
`nodup_targetsOf`).

An elementary cycle (`ModelSet.IsCycle`) may be written from any of its models. Exactly one of its rotations starts at
the smallest name (`exists_rotation`, `rotation_unique`).
-/

namespace ModelCompiler

namespace Model

theorem mem_references {m : Model} {field type : String} :
    (field, type) ∈ m.references ↔ ∃ f ∈ m.fields.items, f.name = field ∧ type ∈ f.types := by
  simp only [references, List.mem_flatMap, List.mem_map, Prod.mk.injEq]
  constructor
  · rintro ⟨f, hf, t, ht, hname, rfl⟩
    exact ⟨f, hf, hname, ht⟩
  · rintro ⟨f, hf, hname, ht⟩
    exact ⟨f, hf, type, ht, hname, rfl⟩

end Model

namespace ModelSet

variable {set : ModelSet}

/-! ## Edges -/

/-- A model of the set refers to a different one: some field of it lists the other's name. -/
def Refers (set : ModelSet) (a b : String) : Prop :=
  a ≠ b ∧ b ∈ set.keys ∧ ∃ m ∈ set.items, m.name = a ∧ ∃ f ∈ m.fields.items, b ∈ f.types

theorem mem_targets {m : Model} {b : String} :
    b ∈ set.targets m ↔ (∃ f ∈ m.fields.items, b ∈ f.types) ∧ b ∈ set.keys ∧ b ≠ m.name := by
  rw [targets, Keyed.mem_ofList_id, List.mem_filter]
  simp only [List.mem_map, Prod.exists, exists_eq_right, Model.mem_references, Bool.and_eq_true,
    Keyed.contains_iff, decide_eq_true_eq]
  constructor
  · rintro ⟨⟨field, f, hf, -, ht⟩, h⟩
    exact ⟨⟨f, hf, ht⟩, h⟩
  · rintro ⟨⟨f, hf, ht⟩, h⟩
    exact ⟨⟨f.name, f, hf, rfl, ht⟩, h⟩

/-- The targets of a name are its edges. -/
theorem mem_targetsOf {a b : String} : b ∈ set.targetsOf a ↔ set.Refers a b := by
  unfold targetsOf Refers
  constructor
  · intro h
    cases hm : set.get? a with
    | none => simp [hm] at h
    | some m =>
      rw [hm, Option.map_some, Option.getD_some, mem_targets] at h
      obtain ⟨hf, hb, hne⟩ := h
      obtain ⟨hmem, rfl⟩ := Keyed.get?_eq_some_iff.mp hm
      exact ⟨hne.symm, hb, m, hmem, rfl, hf⟩
  · rintro ⟨hne, hb, m, hmem, rfl, hf⟩
    rw [Keyed.get?_eq_some_iff.mpr ⟨hmem, rfl⟩, Option.map_some, Option.getD_some, mem_targets]
    exact ⟨hf, hb, hne.symm⟩

theorem nodup_targetsOf (set : ModelSet) (a : String) : (set.targetsOf a).Nodup := by
  unfold targetsOf
  cases set.get? a with
  | none => exact List.nodup_nil
  | some m => exact Keyed.nodup_items_id _

/-! ## Elementary cycles -/

/-- Two or more distinct models, each referring to the next and the last to the first. -/
structure IsCycle (set : ModelSet) (c : List String) : Prop where
  two_le : 2 ≤ c.length
  nodup : c.Nodup
  closed : List.IsChain set.Refers (c ++ c.take 1)

/-- The first name is smaller than all the others. -/
def FromLeast (c : List String) : Prop := ∀ a ∈ c.head?, ∀ b ∈ c.tail, a < b

theorem IsCycle.exists_cons {c : List String} (h : set.IsCycle c) : ∃ a q, c = a :: q :=
  List.exists_cons_of_length_pos (by have := h.two_le; omega)

/-- Being a cycle does not depend on where the cycle is written from. -/
theorem IsCycle.rotated {c d : List String} (h : set.IsCycle c) (hr : c ~r d) : set.IsCycle d := by
  obtain ⟨a, q, rfl⟩ := h.exists_cons
  have hlen : d.length = (a :: q).length := hr.perm.length_eq.symm
  obtain ⟨b, r, rfl⟩ : ∃ b r, d = b :: r := List.exists_cons_of_length_pos (by simp [hlen])
  have hcycle : (↑(a :: q) : Cycle String) = ↑(b :: r) := Cycle.coe_eq_coe.mpr hr
  refine ⟨hlen ▸ h.two_le, hr.nodup_iff.mp h.nodup, ?_⟩
  have hchain : Cycle.Chain set.Refers ↑(a :: q) := (Cycle.chain_coe_cons ..).mpr (by simpa using h.closed)
  rw [hcycle] at hchain
  simpa using (Cycle.chain_coe_cons ..).mp hchain

/-! ## The rotation from the smallest name -/

/-- A list without repetition has no rotation with the same first entry but itself. -/
theorem eq_of_rotated_of_head {a : String} {q r : List String} (hn : (a :: q).Nodup) (h : (a :: q) ~r (a :: r)) :
    a :: q = a :: r := by
  obtain ⟨n, hrot⟩ := h
  have hmod : n % (a :: q).length < (a :: q).length := Nat.mod_lt _ (by simp)
  have hzero : (a :: q)[n % (a :: q).length] = (a :: q)[0] := by
    have := List.getElem_rotate (a :: q) n 0 (by simp)
    simp only [hrot, Nat.zero_add] at this
    exact this.symm
  have hn0 : n % (a :: q).length = 0 := hn.getElem_inj_iff.mp hzero
  rw [← hrot, ← List.rotate_mod, hn0, List.rotate_zero]

theorem FromLeast.le {a b : String} {q : List String} (h : FromLeast (a :: q)) (hb : b ∈ a :: q) : a ≤ b := by
  rcases List.mem_cons.mp hb with rfl | hb
  · exact le_refl b
  · exact le_of_lt (h a rfl b hb)

/-- Every cycle can be written from its smallest name. -/
theorem IsCycle.exists_rotation {c : List String} (h : set.IsCycle c) : ∃ d, d ~r c ∧ FromLeast d := by
  obtain ⟨x, q, hc⟩ := h.exists_cons
  obtain ⟨a, ha, hmin⟩ := Finset.exists_min_image c.toFinset id ⟨x, by simp [hc]⟩
  obtain ⟨s, t, hst⟩ := List.append_of_mem (List.mem_toFinset.mp ha)
  refine ⟨a :: t ++ s, hst ▸ List.isRotated_append, ?_⟩
  intro a' ha' b hb
  obtain rfl : a = a' := by simpa using ha'
  have hmem : b ∈ c := by
    rw [hst]
    simp only [List.cons_append, List.tail_cons, List.mem_append] at hb
    simp only [List.mem_append, List.mem_cons]
    tauto
  have hne : a ≠ b := by
    rintro rfl
    have hn : (a :: (t ++ s)).Nodup := by
      have hrot : c ~r (a :: t ++ s) := hst ▸ List.isRotated_append
      simpa using hrot.nodup_iff.mp h.nodup
    exact (List.nodup_cons.mp hn).1 (by simpa using hb)
  exact lt_of_le_of_ne (hmin b (List.mem_toFinset.mpr hmem)) hne

/-- A cycle can be written from its smallest name in one way only. -/
theorem IsCycle.rotation_unique {c d e : List String} (h : set.IsCycle c) (hd : d ~r c) (hdl : FromLeast d)
    (he : e ~r c) (hel : FromLeast e) : d = e := by
  have hdc := h.rotated hd.symm
  obtain ⟨a, q, rfl⟩ := hdc.exists_cons
  obtain ⟨b, r, rfl⟩ := (h.rotated he.symm).exists_cons
  have hrot : (a :: q) ~r (b :: r) := hd.trans he.symm
  have hab : a ≤ b := hdl.le (hrot.mem_iff.mpr List.mem_cons_self)
  have hba : b ≤ a := hel.le (hrot.mem_iff.mp List.mem_cons_self)
  obtain rfl := le_antisymm hab hba
  exact eq_of_rotated_of_head hdc.nodup hrot

end ModelSet

/-! ## Sample models -/

namespace Sample

/-- A simple model. -/
def point : Model :=
  ⟨"Point", ⟨[⟨"x", ["number"], none, by decide, by decide⟩, ⟨"y", ["number"], none, by decide, by decide⟩], by decide⟩⟩

/-- A complex model that is on no cycle. -/
def wrapper : Model := ⟨"Wrapper", ⟨[⟨"inner", ["Point", "null"], none, by decide, by decide⟩], by decide⟩⟩

def wrappers : ModelSet := ⟨[wrapper, point], by decide⟩

/-- A chain goes on with a link, or ends. -/
def chain : Model := ⟨"Chain", ⟨[⟨"rest", ["Link", "undefined"], none, by decide, by decide⟩], by decide⟩⟩

/-- A link holds the chain after it. -/
def link : Model :=
  ⟨"Link", ⟨[⟨"chain", ["Chain"], some .everyone, by decide, by decide⟩,
    ⟨"size", ["number"], none, by decide, by decide⟩], by decide⟩⟩

/-- Two models that refer to each other. -/
def chains : ModelSet := ⟨[link, chain], by decide⟩

end Sample

end ModelCompiler
