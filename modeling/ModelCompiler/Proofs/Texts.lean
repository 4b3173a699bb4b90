import Mathlib.Data.List.Basic

/-!
# Parts of texts

A text is put together from parts with separators between them, and taken apart at the separators.

* **Characters** (`mem_intercalate_singleton`, `not_mem_of_mem_splitOn`): those of a text, apart from the separator, are
  those of its parts.
* **Back again** (`splitOn_intercalate_append`, `evens_intersperse`): parts without separators are found at the front of
  the text, whatever comes after them; of words with bars between them every other one is a word.
-/

namespace ModelCompiler

variable {α : Type}

/-! ## Characters -/

theorem mem_intercalate_singleton {a c : α} (h : c ≠ a) : ∀ parts : List (List α),
    c ∈ [a].intercalate parts ↔ ∃ part ∈ parts, c ∈ part
  | [] => by simp
  | [part] => by simp
  | part :: next :: parts => by
    rw [List.intercalate_cons_cons, List.mem_append, List.mem_append, mem_intercalate_singleton h (next :: parts)]
    simp [h]

theorem not_mem_of_mem_splitOn {a : Char} : ∀ {s t : List Char}, t ∈ s.splitOn a → a ∉ t
  | [], t, h => by
    rw [List.splitOn_nil, List.mem_singleton] at h
    simp [h]
  | c :: s, t, h => by
    rw [List.splitOn_cons_eq_if_modifyHead] at h
    by_cases hc : (c == a) = true
    · rw [if_pos hc, List.mem_cons] at h
      rcases h with rfl | h
      · simp
      · exact not_mem_of_mem_splitOn h
    · rw [if_neg hc] at h
      obtain ⟨x, xs, hx⟩ := List.exists_cons_of_ne_nil (List.splitOn_ne_nil a s)
      rw [hx, List.modifyHead_cons, List.mem_cons] at h
      have hmem : ∀ y ∈ x :: xs, a ∉ y := fun y hy => not_mem_of_mem_splitOn (hx ▸ hy)
      rcases h with rfl | h
      · have hne : a ≠ c := fun he => hc (by simp [he])
        exact List.not_mem_cons_of_ne_of_not_mem hne (hmem x List.mem_cons_self)
      · exact hmem t (List.mem_cons_of_mem _ h)

/-! ## Back again -/

/-- The parts of a text before its end come first when the text is split. -/
theorem splitOn_intercalate_append [DecidableEq α] {separator : α} {rest : List (List α)} (hrest : rest ≠ []) :
    ∀ {parts : List (List α)}, (∀ part ∈ parts, separator ∉ part) →
      ([separator].intercalate (parts ++ rest)).splitOn separator =
        parts ++ ([separator].intercalate rest).splitOn separator
  | [], _ => rfl
  | part :: parts, h => by
    obtain ⟨hpart, hparts⟩ := List.forall_mem_cons.mp h
    have hne : ∀ a ∈ part, (a == separator) = false := by
      intro a ha
      exact beq_eq_false_iff_ne.mpr fun heq => hpart (heq ▸ ha)
    rw [List.cons_append, List.intercalate_cons_of_ne_nil (by simp [hrest]), List.append_assoc, List.singleton_append,
      List.splitOn, List.splitOnP_append_cons_of_forall_mem hne _ (by simp), ← List.splitOn,
      splitOn_intercalate_append hrest hparts, List.cons_append]

/-- The first, the third item of a list and so on. -/
def evens : List α → List α
  | [] => []
  | [a] => [a]
  | a :: _ :: rest => a :: evens rest

theorem evens_intersperse (separator : α) : ∀ items : List α, evens (items.intersperse separator) = items
  | [] => rfl
  | [_] => rfl
  | a :: b :: items => by
    rw [List.intersperse_cons_cons, evens, evens_intersperse separator (b :: items)]

theorem mem_intersperse {separator a : α} : ∀ {items : List α}, a ∈ items.intersperse separator →
    a = separator ∨ a ∈ items
  | [], h => by cases h
  | [_], h => .inr h
  | b :: c :: items, h => by
    rw [List.intersperse_cons_cons, List.mem_cons, List.mem_cons] at h
    rcases h with rfl | rfl | h
    · exact .inr List.mem_cons_self
    · exact .inl rfl
    · exact (mem_intersperse h).imp_right (List.mem_cons_of_mem b)

/-- A separator between two blanks is a word of its own. -/
theorem intercalate_spaced (blank separator : α) : ∀ words : List (List α),
    [blank, separator, blank].intercalate words = [blank].intercalate (words.intersperse [separator])
  | [] => rfl
  | [_] => by simp
  | word :: next :: words => by
    have hne : (next :: words).intersperse [separator] ≠ [] := by cases words <;> simp
    rw [List.intercalate_cons_cons, intercalate_spaced blank separator (next :: words), List.intersperse_cons_cons,
      List.intercalate_cons_cons, List.intercalate_cons_of_ne_nil hne]
    simp

end ModelCompiler
