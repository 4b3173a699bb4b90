import Mathlib.Data.List.Induction
import Mathlib.Data.List.Nodup
import ModelCompiler.Keyed

/-!
# Look-ups in tables

What a table holds, said by membership: the item of a key (`get?_eq_some_iff`), the keys (`contains_iff_exists`,
`contains_filter_iff`), and the names that are left when a list keeps each name once (`mem_ofList_id`), each where it
came first (`items_ofList_id`). Look-ups do not depend on the order of the items (`get?_congr`, `contains_congr`), and a
table made from items with distinct keys holds just these (`items_ofList`).
-/

namespace ModelCompiler

variable {α κ : Type} {key : α → κ}

namespace Keyed

/-- Two items of a table with one key are one item. -/
theorem eq_of_key_eq {t : Keyed key} {a b : α} (ha : a ∈ t.items) (hb : b ∈ t.items) (h : key a = key b) : a = b :=
  List.inj_on_of_nodup_map t.nodup ha hb h

/-- A table of names has no name twice. -/
theorem nodup_items_id (t : Keyed (id : κ → κ)) : t.items.Nodup := by simpa using t.nodup

variable [DecidableEq κ]

theorem get?_eq_some_iff {t : Keyed key} {k : κ} {a : α} : t.get? k = some a ↔ a ∈ t.items ∧ key a = k := by
  constructor
  · intro h
    exact ⟨List.mem_of_find?_eq_some h, by simpa using List.find?_some h⟩
  · rintro ⟨ha, rfl⟩
    cases hb : t.get? (key a) with
    | none =>
      have := List.find?_eq_none.mp hb a ha
      simp at this
    | some b =>
      have hkey : key b = key a := by simpa using List.find?_some hb
      rw [eq_of_key_eq (List.mem_of_find?_eq_some hb) ha hkey]

theorem contains_iff_exists {t : Keyed key} {k : κ} : t.contains k = true ↔ ∃ a ∈ t.items, key a = k := by
  rw [contains_iff, keys, List.mem_map]

theorem contains_iff_get? {t : Keyed key} {k : κ} : t.contains k = true ↔ ∃ a, t.get? k = some a := by
  simp only [contains_iff_exists, get?_eq_some_iff]

theorem contains_of_mem {t : Keyed key} {a : α} (h : a ∈ t.items) : t.contains (key a) = true :=
  contains_iff_exists.mpr ⟨a, h, rfl⟩

theorem contains_filter_iff {t : Keyed key} {p : α → Bool} {k : κ} :
    (t.filter p).contains k = true ↔ ∃ a ∈ t.items, p a = true ∧ key a = k := by
  simp only [contains_iff_exists, filter, List.mem_filter, and_assoc]

/-- An item is among those that pass a test exactly when it passes. -/
theorem contains_filter_of_mem {t : Keyed key} {p : α → Bool} {a : α} (h : a ∈ t.items) :
    (t.filter p).contains (key a) = p a := by
  rw [Bool.eq_iff_iff, contains_filter_iff]
  constructor
  · rintro ⟨b, hb, hp, hkey⟩
    rwa [← eq_of_key_eq hb h hkey]
  · intro hp
    exact ⟨a, h, hp, rfl⟩

theorem add?_eq_none_iff {t : Keyed key} {a : α} : t.add? a = none ↔ t.contains (key a) = true := by
  unfold add?
  split
  · simp [*]
  · simp [*]

theorem get?_congr {t u : Keyed key} (h : t.items.Perm u.items) (k : κ) : t.get? k = u.get? k := by
  refine Option.ext fun a => ?_
  rw [get?_eq_some_iff, get?_eq_some_iff, h.mem_iff]

theorem contains_congr {t u : Keyed key} (h : t.items.Perm u.items) (k : κ) : t.contains k = u.contains k := by
  rw [Bool.eq_iff_iff, contains_iff_exists, contains_iff_exists]
  simp only [h.mem_iff]

/-! ## Tables made from lists -/

theorem mem_keys_foldl_insert {k : κ} : ∀ {items : List α} {t : Keyed key},
    k ∈ (items.foldl insert t).keys ↔ k ∈ t.keys ∨ k ∈ items.map key
  | [], t => by simp
  | a :: items, t => by
    rw [List.foldl_cons, mem_keys_foldl_insert, keys_insert, List.map_cons, List.mem_cons]
    by_cases ha : key a ∈ t.keys
    · rw [if_pos ha]
      constructor
      · rintro (h | h)
        · exact .inl h
        · exact .inr (.inr h)
      · rintro (h | rfl | h)
        · exact .inl h
        · exact .inl ha
        · exact .inr h
    · rw [if_neg ha, List.mem_append, List.mem_singleton, or_assoc]

/-- The names that are left are those of the list. -/
theorem mem_ofList_id {names : List κ} {k : κ} : k ∈ (ofList names : Keyed (id : κ → κ)).items ↔ k ∈ names := by
  have h : k ∈ (names.foldl insert (empty : Keyed (id : κ → κ))).keys ↔ _ := mem_keys_foldl_insert
  simpa [keys, empty, ofList] using h

theorem ofList_concat (items : List α) (a : α) : (ofList (items ++ [a]) : Keyed key) = (ofList items).insert a := by
  simp [ofList, List.foldl_append]

theorem items_insert_of_not_mem {t : Keyed key} {a : α} (h : key a ∉ t.keys) :
    (t.insert a).items = t.items ++ [a] := by
  rw [insert, dif_neg fun hc => h (contains_iff.mp hc)]

/-- Items with distinct keys are kept as they are. -/
theorem items_ofList {items : List α} (h : (items.map key).Nodup) : (ofList items : Keyed key).items = items := by
  induction items using List.reverseRecOn with
  | nil => rfl
  | append_singleton items a ih =>
    rw [List.map_append, List.map_singleton, ← List.concat_eq_append, List.nodup_concat] at h
    have hitems := ih h.2
    rw [ofList_concat, items_insert_of_not_mem, hitems]
    rw [keys, hitems]
    exact h.1

theorem ofList_items (t : Keyed key) : ofList t.items = t := ext (items_ofList t.nodup)

theorem items_insert_id (t : Keyed (id : κ → κ)) (k : κ) :
    (t.insert k).items = if k ∈ t.items then t.items else t.items ++ [k] := by
  simpa [keys] using keys_insert t k

/-- A table of names keeps each name where it came first. -/
theorem items_ofList_id (names : List κ) : (ofList names : Keyed (id : κ → κ)).items = names.eraseDups := by
  induction names using List.reverseRecOn with
  | nil => rfl
  | append_singleton names k ih =>
    rw [ofList_concat, items_insert_id, ih, List.eraseDups_append]
    by_cases hk : k ∈ names <;> simp [hk, List.removeAll, List.eraseDups_cons]

end Keyed

end ModelCompiler
