import Mathlib.Data.Finset.Card
import Mathlib.Data.List.Duplicate
import ModelCompiler.Proofs.Classified
import ModelCompiler.Proofs.CycleSearch

/-!
# Ranks of models

A set of models is ranked when every reference from a model to a different one goes to a lower rank
(`ModelSet.RankedBy`). It can be ranked exactly when no cycle is found in it, and then a classification that refuses
cycles has nothing but structural problems to refuse (`cycles_eq_nil_iff_ranked`, `classify_strict_iff`).

* **Closed walks** (`IsCycle.exists_of_closed`): a closed walk that repeats a name has a shorter closed walk inside it
  (`exists_shorter_closed`), so a set with a closed walk has an elementary cycle.
* **The ranking** (`rankedBy_card_below`): in a set without cycles a model reaches more names than any model that it
  refers to, as it reaches the other model and what that one reaches. The number of names it reaches is a rank.
-/

namespace ModelCompiler

/-! ## Closed walks -/

section Walks

variable {α : Type} {r : α → α → Prop}

/-- A list that repeats an entry goes through it twice. -/
theorem exists_twice_of_not_nodup {l : List α} (h : ¬l.Nodup) : ∃ s x t u, l = s ++ (x :: t) ++ (x :: u) := by
  obtain ⟨x, hx⟩ := List.exists_duplicate_iff_not_nodup.mpr h
  obtain ⟨l₁, l₂, rfl, h₁, h₂⟩ := List.cons_sublist_iff.mp (List.duplicate_iff_sublist.mp hx)
  obtain ⟨s, t, rfl⟩ := List.append_of_mem h₁
  obtain ⟨t', u, rfl⟩ := List.append_of_mem (List.singleton_sublist.mp h₂)
  exact ⟨s, x, t ++ t', u, by simp⟩

/-- A closed walk that goes through a name twice has a shorter closed walk inside it. -/
theorem exists_shorter_closed {a : α} {q : List α} (h : List.IsChain r (a :: (q ++ [a]))) (hn : ¬(a :: q).Nodup) :
    ∃ x p, p.length < q.length ∧ List.IsChain r (x :: (p ++ [x])) := by
  obtain ⟨s, x, p, u, hq⟩ := exists_twice_of_not_nodup hn
  refine ⟨x, p, ?_, h.infix ⟨s, u ++ [a], ?_⟩⟩
  · have hlen := congrArg List.length hq
    simp only [List.length_cons, List.length_append] at hlen
    omega
  · calc s ++ (x :: (p ++ [x])) ++ (u ++ [a]) = s ++ (x :: p) ++ (x :: u) ++ [a] := by simp
      _ = a :: (q ++ [a]) := by rw [← hq, List.cons_append]

theorem exists_walk_of_transGen {a b : α} (h : Relation.TransGen r a b) : ∃ q, List.IsChain r (a :: (q ++ [b])) := by
  obtain ⟨c, hac, hcb⟩ := Relation.TransGen.head'_iff.mp h
  obtain ⟨l, hl, hlast⟩ := List.exists_isChain_cons_of_relationReflTransGen hcb
  refine ⟨(c :: l).dropLast, ?_⟩
  rw [← hlast, List.dropLast_append_getLast]
  exact List.isChain_cons_cons.mpr ⟨hac, hl⟩

end Walks

namespace ModelSet

variable {set : ModelSet}

/-- Where a walk along references comes back to its start there is an elementary cycle. -/
theorem IsCycle.exists_of_closed {a : String} {q : List String} (h : List.IsChain set.Refers (a :: (q ++ [a]))) :
    ∃ c, set.IsCycle c := by
  by_cases hn : (a :: q).Nodup
  · refine ⟨a :: q, ?_, hn, by simpa using h⟩
    cases q with
    | nil => exact absurd rfl (List.isChain_cons_cons.mp h).1.1
    | cons => simp
  · obtain ⟨x, p, hlt, hp⟩ := exists_shorter_closed h hn
    exact exists_of_closed hp
termination_by q.length

theorem not_transGen_self_of_cycles (h : set.cycles = []) (a : String) : ¬Relation.TransGen set.Refers a a := by
  intro ha
  obtain ⟨q, hq⟩ := exists_walk_of_transGen ha
  obtain ⟨c, hc⟩ := IsCycle.exists_of_closed hq
  obtain ⟨d, hrot, hleast⟩ := hc.exists_rotation
  have hd : d ∈ set.cycles := mem_cycles.mpr ⟨hc.rotated hrot.symm, hleast⟩
  rw [h] at hd
  cases hd

/-! ## Rankings -/

/-- Every reference from a model to a different one goes to a lower rank. -/
def RankedBy (set : ModelSet) (rank : String → ℕ) : Prop := ∀ a b, set.Refers a b → rank b < rank a

section Reach

open scoped Classical

/-- The names that a model reaches along references. -/
noncomputable def below (set : ModelSet) (a : String) : Finset String :=
  set.keys.toFinset.filter (Relation.TransGen set.Refers a)

theorem mem_below {a b : String} : b ∈ set.below a ↔ b ∈ set.keys ∧ Relation.TransGen set.Refers a b := by
  rw [below, Finset.mem_filter, List.mem_toFinset]

/-- Without cycles a model reaches more names than any model that it refers to. -/
theorem below_ssubset (h : set.cycles = []) {a b : String} (hab : set.Refers a b) : set.below b ⊂ set.below a := by
  rw [Finset.ssubset_iff_of_subset fun c hc => ?_]
  · refine ⟨b, mem_below.mpr ⟨hab.2.1, .single hab⟩, fun hb => ?_⟩
    exact not_transGen_self_of_cycles h b (mem_below.mp hb).2
  · obtain ⟨hkey, hbc⟩ := mem_below.mp hc
    exact mem_below.mpr ⟨hkey, .head hab hbc⟩

theorem rankedBy_card_below (h : set.cycles = []) : set.RankedBy fun a => (set.below a).card :=
  fun _ _ hab => Finset.card_lt_card (below_ssubset h hab)

end Reach

/-- No cycle is found exactly in the sets that can be ranked. -/
theorem cycles_eq_nil_iff_ranked : set.cycles = [] ↔ ∃ rank, set.RankedBy rank := by
  constructor
  · intro h
    exact ⟨_, rankedBy_card_below h⟩
  · rintro ⟨rank, hrank⟩
    refine cycles_eq_nil_of_rank rank fun m hm b hb => hrank m.name b ?_
    obtain ⟨hf, hkey, hne⟩ := mem_targets.mp hb
    exact ⟨hne.symm, hkey, m, hm, rfl, hf⟩

/-- A classification that refuses cycles succeeds where there is no structural problem and no cycle. -/
theorem classify_strict_iff {u : Universe} : (∃ c, (set.classify u false).result = .ok c) ↔
    set.structuralProblems u = [] ∧ set.cycles = [] := by
  have hproblems : set.problems u false = [] ↔ set.structuralProblems u = [] ∧ set.cycles = [] := by
    simp [problems]
  rw [← hproblems, classify_result]
  cases set.problems u false <;> simp

/-- **Refusing cycles means a well-founded set**: no cycle is found exactly when the models have ranks that every
reference to a different model lowers, so that over every universe a classification that refuses cycles succeeds
exactly when there is no structural problem and there are such ranks. -/
theorem acyclic_iff_ranked (set : ModelSet) : (set.cycles = [] ↔ ∃ rank, set.RankedBy rank) ∧
    ∀ u : Universe, (∃ c, (set.classify u false).result = .ok c) ↔
      set.structuralProblems u = [] ∧ ∃ rank, set.RankedBy rank := by
  refine ⟨cycles_eq_nil_iff_ranked, fun u => ?_⟩
  rw [classify_strict_iff, cycles_eq_nil_iff_ranked]

end ModelSet

end ModelCompiler
