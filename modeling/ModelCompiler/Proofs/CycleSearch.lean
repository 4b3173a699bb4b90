import ModelCompiler.ModelSet.Cycle
import ModelCompiler.Proofs.ReferenceGraph

/-!
# The search for cycles

The search from a name finds the walks back to it through distinct greater names, each once.

* **The walks found** (`mem_returnsTo`): a list is found exactly when it continues the path so far through distinct free
  names, along edges, to a name with an edge to the start.
* **No walk twice** (`nodup_returnsTo`): what is found through one target goes on with that target
  (`mem_returnsVia`), so nothing is found through two.
* **Cycles** (`mem_cyclesFrom`): the walks found from a name are the cycles with that smallest name.

The search ends because the names that are left get fewer; the induction below is on them.
-/

namespace ModelCompiler

section Search

variable {next : String → List String} {start : String}

/-- An edge of the searched graph. -/
abbrev Follows (next : String → List String) (a b : String) : Prop := b ∈ next a

/-- What the search finds by going on to a target. -/
def returnsVia (next : String → List String) (start : String) (free path : List String) (target : String) :
    List (List String) :=
  if target = start then [path]
  else if target ∈ free then returnsTo next start (free.erase target) (path ++ [target]) target
  else []

theorem returnsTo_eq (next : String → List String) (start : String) (free path : List String) (here : String) :
    returnsTo next start free path here = (next here).flatMap (returnsVia next start free path) := by
  rw [returnsTo]
  rfl

theorem returnsVia_start (free path : List String) : returnsVia next start free path start = [path] := if_pos rfl

theorem returnsVia_free {free path : List String} {target : String} (hne : target ≠ start) (ht : target ∈ free) :
    returnsVia next start free path target = returnsTo next start (free.erase target) (path ++ [target]) target := by
  rw [returnsVia, if_neg hne, if_pos ht]

/-- The lists found are the path so far, continued by the walks back to the start through distinct free names. -/
theorem mem_returnsTo {free path : List String} {here : String} {c : List String} (hn : free.Nodup)
    (hs : start ∉ free) : c ∈ returnsTo next start free path here ↔
      ∃ q, c = path ++ q ∧ q.Nodup ∧ q ⊆ free ∧ List.IsChain (Follows next) (here :: (q ++ [start])) := by
  induction free, path, here using returnsTo.induct with
  | case1 free path here ih =>
    have hs' : ∀ t, start ∉ free.erase t := fun t h => hs (List.mem_of_mem_erase h)
    rw [returnsTo_eq, List.mem_flatMap]
    constructor
    · rintro ⟨t, ht, hc⟩
      by_cases hts : t = start
      · rw [hts, returnsVia_start, List.mem_singleton] at hc
        rw [hts] at ht
        exact ⟨[], by simp [hc], List.nodup_nil, List.nil_subset _, by simpa using ht⟩
      by_cases htf : t ∈ free
      · rw [returnsVia_free hts htf, ih t htf (hn.erase t) (hs' t)] at hc
        obtain ⟨q, rfl, hq, hsub, hchain⟩ := hc
        refine ⟨t :: q, by simp, ?_, ?_, List.isChain_cons_cons.mpr ⟨ht, hchain⟩⟩
        · exact List.nodup_cons.mpr ⟨fun h => hn.not_mem_erase (hsub h), hq⟩
        · exact List.cons_subset.mpr ⟨htf, fun x hx => List.mem_of_mem_erase (hsub hx)⟩
      · simp [returnsVia, hts, htf] at hc
    · rintro ⟨q, rfl, hq, hsub, hchain⟩
      cases q with
      | nil => exact ⟨start, by simpa using hchain, by simp [returnsVia_start]⟩
      | cons t q =>
        obtain ⟨htf, hsub⟩ := List.cons_subset.mp hsub
        obtain ⟨htq, hq⟩ := List.nodup_cons.mp hq
        obtain ⟨ht, hchain⟩ := List.isChain_cons_cons.mp hchain
        have hts : t ≠ start := fun h => hs (h ▸ htf)
        have hsub' : q ⊆ free.erase t := fun x hx => hn.mem_erase_iff.mpr ⟨fun h => htq (h ▸ hx), hsub hx⟩
        refine ⟨t, ht, ?_⟩
        rw [returnsVia_free hts htf, ih t htf (hn.erase t) (hs' t)]
        exact ⟨q, by simp, hq, hsub', hchain⟩

/-- What is found through a target goes on with it, or stops there when it is the start. -/
theorem mem_returnsVia {free path : List String} {target : String} {c : List String} (hn : free.Nodup)
    (hs : start ∉ free) (h : c ∈ returnsVia next start free path target) :
    target = start ∧ c = path ∨ target ≠ start ∧ ∃ q, c = path ++ target :: q := by
  by_cases hts : target = start
  · rw [hts, returnsVia_start, List.mem_singleton] at h
    exact .inl ⟨hts, h⟩
  by_cases htf : target ∈ free
  · rw [returnsVia_free hts htf, mem_returnsTo (hn.erase target) fun h => hs (List.mem_of_mem_erase h)] at h
    obtain ⟨q, rfl, -⟩ := h
    exact .inr ⟨hts, q, by simp⟩
  · simp [returnsVia, hts, htf] at h

theorem disjoint_returnsVia {free path : List String} {a b : String} (hn : free.Nodup) (hs : start ∉ free)
    (hab : a ≠ b) : (returnsVia next start free path a).Disjoint (returnsVia next start free path b) := by
  intro c ha hb
  rcases mem_returnsVia hn hs ha with ⟨rfl, rfl⟩ | ⟨-, q, rfl⟩
  · rcases mem_returnsVia hn hs hb with ⟨rfl, -⟩ | ⟨-, q, hq⟩
    · exact hab rfl
    · simp at hq
  · rcases mem_returnsVia hn hs hb with ⟨-, hq⟩ | ⟨-, r, hr⟩
    · simp at hq
    · exact hab (List.cons.inj (List.append_cancel_left hr)).1

/-- No list is found twice. -/
theorem nodup_returnsTo {free path : List String} {here : String} (hnext : ∀ a, (next a).Nodup) (hn : free.Nodup)
    (hs : start ∉ free) : (returnsTo next start free path here).Nodup := by
  induction free, path, here using returnsTo.induct with
  | case1 free path here ih =>
    rw [returnsTo_eq, List.nodup_flatMap]
    refine ⟨fun t _ => ?_, (hnext here).imp fun hab => disjoint_returnsVia hn hs hab⟩
    by_cases hts : t = start
    · rw [hts, returnsVia_start]
      exact List.nodup_singleton path
    by_cases htf : t ∈ free
    · rw [returnsVia_free hts htf]
      exact ih t htf (hn.erase t) fun h => hs (List.mem_of_mem_erase h)
    · simp [returnsVia, hts, htf]

end Search

namespace ModelSet

variable {set : ModelSet}

/-! ## Cycles of the reference graph -/

theorem follows_targetsOf : Follows set.targetsOf = set.Refers := by
  funext a b
  exact propext mem_targetsOf

theorem nodup_greater (set : ModelSet) (start : String) : (set.keys.filter (start < ·)).Nodup := set.nodup.filter _

theorem mem_greater {start b : String} : b ∈ set.keys.filter (start < ·) ↔ b ∈ set.keys ∧ start < b := by
  rw [List.mem_filter, decide_eq_true_eq]

theorem not_mem_greater (set : ModelSet) (start : String) : start ∉ set.keys.filter (start < ·) :=
  fun h => lt_irrefl start (mem_greater.mp h).2

/-- All names along edges are names of the set. -/
theorem mem_keys_of_isChain : ∀ {a : String} {l : List String}, List.IsChain set.Refers (a :: l) →
    ∀ b ∈ l, b ∈ set.keys
  | _, [], _, _, hb => by simp at hb
  | _, t :: l, h, b, hb => by
    obtain ⟨ht, h⟩ := List.isChain_cons_cons.mp h
    rcases List.mem_cons.mp hb with rfl | hb
    · exact ht.2.1
    · exact mem_keys_of_isChain h b hb

/-- What is found from a name are the cycles with that smallest name. -/
theorem mem_cyclesFrom {start : String} {c : List String} :
    c ∈ set.cyclesFrom start ↔ set.IsCycle c ∧ FromLeast c ∧ c.head? = some start := by
  rw [cyclesFrom, mem_returnsTo (set.nodup_greater start) (set.not_mem_greater start), follows_targetsOf]
  constructor
  · rintro ⟨q, rfl, hq, hsub, hchain⟩
    have hgreater : ∀ b ∈ q, start < b := fun b hb => (mem_greater.mp (hsub hb)).2
    refine ⟨⟨?_, ?_, by simpa using hchain⟩, ?_, rfl⟩
    · cases q with
      | nil => exact absurd rfl (List.isChain_cons_cons.mp hchain).1.1
      | cons => simp
    · exact List.nodup_cons.mpr ⟨fun h => lt_irrefl start (hgreater start h), hq⟩
    · intro a ha b hb
      obtain rfl : start = a := by simpa using ha
      exact hgreater b (by simpa using hb)
  · rintro ⟨h, hleast, hhead⟩
    obtain ⟨a, q, rfl⟩ := h.exists_cons
    obtain rfl : a = start := by simpa using hhead
    have hchain : List.IsChain set.Refers (a :: (q ++ [a])) := by simpa using h.closed
    refine ⟨q, rfl, (List.nodup_cons.mp h.nodup).2, fun b hb => mem_greater.mpr ⟨?_, ?_⟩, hchain⟩
    · exact mem_keys_of_isChain hchain b (List.mem_append_left _ hb)
    · exact hleast a rfl b hb

theorem mem_cycles {c : List String} : c ∈ set.cycles ↔ set.IsCycle c ∧ FromLeast c := by
  simp only [cycles, List.mem_flatMap, List.mem_mergeSort, mem_cyclesFrom]
  constructor
  · rintro ⟨_, _, h, hleast, -⟩
    exact ⟨h, hleast⟩
  · rintro ⟨h, hleast⟩
    obtain ⟨a, q, rfl⟩ := h.exists_cons
    have hchain : List.IsChain set.Refers (a :: (q ++ [a])) := by simpa using h.closed
    exact ⟨a, mem_keys_of_isChain hchain a (by simp), h, hleast, rfl⟩

/-- Nothing is found where every target of a model has a smaller rank. -/
theorem cycles_eq_nil_of_rank (rank : String → ℕ)
    (h : ∀ m ∈ set.items, ∀ b ∈ set.targets m, rank b < rank m.name) : set.cycles = [] := by
  have hrefers : ∀ a b, set.Refers a b → rank b < rank a := by
    rintro a b ⟨hne, hb, m, hm, rfl, hf⟩
    exact h m hm b (mem_targets.mpr ⟨hf, hb, hne.symm⟩)
  rw [List.eq_nil_iff_forall_not_mem]
  intro c hc
  obtain ⟨hcycle, -⟩ := mem_cycles.mp hc
  obtain ⟨a, q, rfl⟩ := hcycle.exists_cons
  have hchain : List.IsChain (fun x y => rank y < rank x) (a :: (q ++ [a])) := by
    simpa using hcycle.closed.imp hrefers
  -- ranks go down along the whole walk, which ends where it starts
  have : IsTrans String fun x y => rank y < rank x := ⟨fun x y z hxy hyz => hyz.trans hxy⟩
  have hdown := (List.pairwise_cons.mp hchain.pairwise).1 a (by simp)
  exact lt_irrefl _ hdown

theorem nodup_cycles (set : ModelSet) : set.cycles.Nodup := by
  rw [cycles, List.nodup_flatMap]
  constructor
  · intro a _
    exact nodup_returnsTo set.nodup_targetsOf (set.nodup_greater a) (set.not_mem_greater a)
  · have hsorted : (set.keys.mergeSort (· ≤ ·)).Nodup := (List.mergeSort_perm _ _).nodup_iff.mpr set.nodup
    refine hsorted.imp fun hab c ha hb => hab ?_
    have h := (mem_cyclesFrom.mp ha).2.2
    rw [(mem_cyclesFrom.mp hb).2.2] at h
    exact (Option.some.inj h).symm

/-- **The search is exact**: it finds no list twice, it finds the elementary cycles that are written from their
smallest name, and every elementary cycle has one rotation among them, which is found once. -/
theorem cycles_exact (set : ModelSet) :
    set.cycles.Nodup ∧ (∀ c, c ∈ set.cycles ↔ set.IsCycle c ∧ FromLeast c) ∧
      ∀ c, set.IsCycle c → ∃ d, (∀ e, e ~r c ∧ FromLeast e ↔ e = d) ∧ set.cycles.count d = 1 := by
  refine ⟨set.nodup_cycles, fun c => mem_cycles, fun c hc => ?_⟩
  obtain ⟨d, hrot, hleast⟩ := hc.exists_rotation
  refine ⟨d, fun e => ⟨fun ⟨he, hel⟩ => hc.rotation_unique he hel hrot hleast, ?_⟩, ?_⟩
  · rintro rfl
    exact ⟨hrot, hleast⟩
  · exact List.count_eq_one_of_mem set.nodup_cycles (mem_cycles.mpr ⟨hc.rotated hrot.symm, hleast⟩)

example : Sample.chains.cycles = [["Chain", "Link"]] := by cbv

end ModelSet

end ModelCompiler
