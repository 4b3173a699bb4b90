/-!
# Lists with distinct keys

`Keyed key` is a list whose items have pairwise distinct keys, in the order in which the keys arrived. It is the one
shape behind type catalogs, sets of models, the fields of a model, the members of an object and the files on a disk.

* **Order** (`keys_insert`, `items_add?`): a new key goes to the end, a known key stays where it is.
* **Reading** (`get?_insert_self`, `get?_insert_of_ne`): an insertion is seen at its own key and nowhere else.
-/

namespace ModelCompiler

variable {α κ : Type}

/-- Items in order of arrival, no two with the same key. -/
structure Keyed (key : α → κ) where
  items : List α
  nodup : (items.map key).Nodup

namespace Keyed

variable {key : α → κ}

theorem ext {t u : Keyed key} (h : t.items = u.items) : t = u := by
  cases t; cases u; cases h; rfl

instance [DecidableEq α] : DecidableEq (Keyed key) := fun t u =>
  if h : t.items = u.items then isTrue (ext h) else isFalse fun e => h (e ▸ rfl)

/-- The table without items. -/
def empty : Keyed key := ⟨[], List.nodup_nil⟩

instance : Inhabited (Keyed key) := ⟨empty⟩

def keys (t : Keyed key) : List κ := t.items.map key

def size (t : Keyed key) : Nat := t.items.length

/-- The items that pass the test, in the same order. -/
def filter (t : Keyed key) (p : α → Bool) : Keyed key :=
  ⟨t.items.filter p, (List.filter_sublist.map key).nodup t.nodup⟩

variable [DecidableEq κ]

/-- The item with the key `k`. -/
def get? (t : Keyed key) (k : κ) : Option α := t.items.find? fun a => key a = k

def contains (t : Keyed key) (k : κ) : Bool := t.items.any fun a => key a = k

theorem contains_iff {t : Keyed key} {k : κ} : t.contains k = true ↔ k ∈ t.keys := by
  simp [contains, keys]

/-- Appends an item with a new key. -/
def add? (t : Keyed key) (a : α) : Option (Keyed key) :=
  if h : t.contains (key a) then none
  else some ⟨t.items ++ [a], by
    rw [contains_iff, keys] at h
    simpa [List.nodup_append, t.nodup] using h⟩

/-- Puts `a` in the place of the item with its key. -/
def replaced (key : α → κ) (items : List α) (a : α) : List α := items.map fun b => if key b = key a then a else b

theorem map_replaced (items : List α) (a : α) : (replaced key items a).map key = items.map key := by
  simp only [replaced, List.map_map]
  refine List.map_congr_left fun b _ => ?_
  by_cases h : key b = key a <;> simp [h]

/-- Replaces the item with the key of `a`, or appends `a` when there is none. -/
def insert (t : Keyed key) (a : α) : Keyed key :=
  if h : t.contains (key a) then ⟨replaced key t.items a, by rw [map_replaced]; exact t.nodup⟩
  else ⟨t.items ++ [a], by
    rw [contains_iff, keys] at h
    simpa [List.nodup_append, t.nodup] using h⟩

/-- The items in order; of two with one key the later wins and takes the place of the earlier. -/
def ofList (items : List α) : Keyed key := items.foldl insert empty

theorem items_add? {t u : Keyed key} {a : α} (h : t.add? a = some u) : u.items = t.items ++ [a] := by
  unfold add? at h
  split at h
  · cases h
  · cases h; rfl

theorem keys_insert (t : Keyed key) (a : α) :
    (t.insert a).keys = if key a ∈ t.keys then t.keys else t.keys ++ [key a] := by
  unfold insert
  by_cases h : t.contains (key a)
  · rw [dif_pos h, if_pos (contains_iff.mp h)]
    exact map_replaced ..
  · rw [dif_neg h, if_neg fun m => h (contains_iff.mpr m)]
    simp [keys]

theorem find?_replaced_self : ∀ {items : List α} {a : α}, key a ∈ items.map key →
    (replaced key items a).find? (fun b => key b = key a) = some a
  | [], _, h => by simp at h
  | b :: bs, a, h => by
    by_cases hb : key b = key a
    · simp [replaced, hb]
    · have : key a ∈ bs.map key := by simpa [Ne.symm hb] using h
      have ih := find?_replaced_self this
      simpa [replaced, hb] using ih

theorem find?_replaced_of_ne {items : List α} {a : α} {k : κ} (hk : key a ≠ k) :
    (replaced key items a).find? (fun b => key b = k) = items.find? (fun b => key b = k) := by
  induction items with
  | nil => rfl
  | cons b bs ih =>
    by_cases hb : key b = key a
    · have : key b ≠ k := hb ▸ hk
      simpa [replaced, hb, hk, this] using ih
    · by_cases hbk : key b = k
      · simp [replaced, hbk, Ne.symm hk]
      · simpa [replaced, hb, hbk] using ih

theorem get?_insert_self (t : Keyed key) (a : α) : (t.insert a).get? (key a) = some a := by
  unfold insert get?
  by_cases h : t.contains (key a)
  · simpa [h] using find?_replaced_self (contains_iff.mp h)
  · have : t.items.find? (fun b => key b = key a) = none := by
      simpa [contains] using h
    simp [h, List.find?_append, this]

theorem get?_insert_of_ne (t : Keyed key) {a : α} {k : κ} (h : key a ≠ k) : (t.insert a).get? k = t.get? k := by
  unfold insert get?
  by_cases hc : t.contains (key a)
  · simpa [hc] using find?_replaced_of_ne h
  · simp [hc, List.find?_append, h]

end Keyed

end ModelCompiler
