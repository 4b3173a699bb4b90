import Mathlib.Data.List.Sort
import ModelCompiler.Proofs.Classified
import ModelCompiler.Proofs.CycleSearch

/-!
# The order of the cycles

The cycles of a set are listed in an order that depends on the models alone and not on the order of their registration
(`cycles_eq_of_perm`). Cycles from smaller names come first. Of two cycles from one name, the one comes first that goes
to an earlier reference where they part (`ModelSet.Before`, `pairwise_cycles`).

* **One search** (`pairwise_returnsTo`): what is found through a target goes on with that target (`exists_walk`), so the
  walks found through different targets part at once, in the order of the targets, and those found through one target
  part later.
* **No order of registration**: the search asks of the set what a name refers to and which names are free, and answers
  alike for free names in another order (`returnsTo_eq_of_perm`).
-/

namespace ModelCompiler

/-! ## Positions in a list -/

/-- The entries of a list without repetition stand in the order of their positions. -/
theorem pairwise_idxOf {α : Type} [DecidableEq α] {l : List α} (h : l.Nodup) :
    l.Pairwise fun a b => l.idxOf a < l.idxOf b :=
  List.pairwise_iff_getElem.mpr fun i j hi hj hij => by rwa [h.idxOf_getElem, h.idxOf_getElem]

/-- Names are sorted in one way. -/
theorem mergeSort_eq_of_perm {names names' : List String} (h : names.Perm names') :
    names.mergeSort (· ≤ ·) = names'.mergeSort (· ≤ ·) := by
  have hperm := (List.mergeSort_perm names (· ≤ ·)).trans (h.trans (List.mergeSort_perm names' (· ≤ ·)).symm)
  exact hperm.eq_of_pairwise' (List.pairwise_mergeSort' _ _) (List.pairwise_mergeSort' _ _)

/-- For each step of a walk, the position of the name that it goes to among those it can go to. -/
def stepsAlong (next : String → List String) : List String → List Nat
  | here :: there :: walk => (next here).idxOf there :: stepsAlong next (there :: walk)
  | _ => []

/-! ## The order of one search -/

section Search

variable {next : String → List String} {start : String}

/-- Two lists that go on from a path, the first by earlier steps back to the start. -/
def Earlier (next : String → List String) (start : String) (path : List String) (here : String)
    (c d : List String) : Prop :=
  ∃ w v, c ++ [start] = path ++ w ∧ d ++ [start] = path ++ v ∧ stepsAlong next (here :: w) < stepsAlong next (here :: v)

/-- What is found through a target goes there first, also when the target is the start. -/
theorem exists_walk {free path : List String} {target : String} {c : List String} (hn : free.Nodup)
    (hs : start ∉ free) (h : c ∈ returnsVia next start free path target) :
    ∃ w, c ++ [start] = path ++ target :: w := by
  rcases mem_returnsVia hn hs h with ⟨rfl, rfl⟩ | ⟨-, q, rfl⟩
  · exact ⟨[], rfl⟩
  · exact ⟨q ++ [start], by simp⟩

/-- Walks that part later part as they did one step before. -/
theorem Earlier.of_step {path : List String} {here target : String} {c d : List String}
    (h : Earlier next start (path ++ [target]) target c d) : Earlier next start path here c d := by
  obtain ⟨w, v, hw, hv, hlt⟩ := h
  exact ⟨target :: w, target :: v, by simpa using hw, by simpa using hv, List.Lex.cons hlt⟩

/-- Walks to different targets part at once. -/
theorem Earlier.of_targets {path : List String} {here a b : String} {c d w v : List String}
    (hw : c ++ [start] = path ++ a :: w) (hv : d ++ [start] = path ++ b :: v)
    (hab : (next here).idxOf a < (next here).idxOf b) : Earlier next start path here c d :=
  ⟨a :: w, b :: v, hw, hv, List.Lex.rel hab⟩

/-- A search finds what goes by earlier steps before what goes by later ones. -/
theorem pairwise_returnsTo {free path : List String} {here : String} (hnext : ∀ a, (next a).Nodup) (hn : free.Nodup)
    (hs : start ∉ free) : (returnsTo next start free path here).Pairwise (Earlier next start path here) := by
  induction free, path, here using returnsTo.induct with
  | case1 free path here ih =>
    rw [returnsTo_eq, List.pairwise_flatMap]
    constructor
    · intro t _
      by_cases hts : t = start
      · rw [hts, returnsVia_start]
        exact List.pairwise_singleton ..
      by_cases htf : t ∈ free
      · rw [returnsVia_free hts htf]
        exact (ih t htf (hn.erase t) fun h => hs (List.mem_of_mem_erase h)).imp Earlier.of_step
      · simp [returnsVia, hts, htf]
    · refine (pairwise_idxOf (hnext here)).imp fun hab c hc d hd => ?_
      obtain ⟨w, hw⟩ := exists_walk hn hs hc
      obtain ⟨v, hv⟩ := exists_walk hn hs hd
      exact .of_targets hw hv hab

/-- The order of the free names makes no difference. -/
theorem returnsTo_eq_of_perm {free free' path : List String} {here : String} (h : free.Perm free') :
    returnsTo next start free path here = returnsTo next start free' path here := by
  induction free, path, here using returnsTo.induct generalizing free' with
  | case1 free path here ih =>
    rw [returnsTo_eq, returnsTo_eq]
    refine List.flatMap_congr fun t _ => ?_
    by_cases hts : t = start
    · rw [hts, returnsVia_start, returnsVia_start]
    by_cases htf : t ∈ free
    · rw [returnsVia_free hts htf, returnsVia_free hts (h.mem_iff.mp htf), ih t htf (h.erase t)]
    · have htf' : t ∉ free' := fun ht => htf (h.mem_iff.mpr ht)
      simp [returnsVia, hts, htf, htf']

end Search

namespace ModelSet

variable {set set' : ModelSet}

/-! ## Another order of registration -/

theorem keys_perm (h : set.items.Perm set'.items) : set.keys.Perm set'.keys := h.map Model.name

theorem targetsOf_eq_of_perm (h : set.items.Perm set'.items) (a : String) : set.targetsOf a = set'.targetsOf a := by
  have htargets : set.targets = set'.targets := by
    funext m
    simp only [targets, Keyed.contains_congr h]
  rw [targetsOf, targetsOf, Keyed.get?_congr h, htargets]

/-- The cycles do not depend on the order of registration. -/
theorem cycles_eq_of_perm (h : set.items.Perm set'.items) : set.cycles = set'.cycles := by
  have hfrom : ∀ start, set.cyclesFrom start = set'.cyclesFrom start := by
    intro start
    rw [cyclesFrom, cyclesFrom, funext (targetsOf_eq_of_perm h), returnsTo_eq_of_perm ((keys_perm h).filter _)]
  rw [cycles, cycles, mergeSort_eq_of_perm (keys_perm h), funext hfrom]

theorem Resolved.perm {u : Universe} (h : set.items.Perm set'.items) (hr : set.Resolved u) : set'.Resolved u where
  name_free m hm := hr.name_free m (h.mem_iff.mpr hm)
  known m hm f hf t ht := by
    rw [← Keyed.contains_congr h]
    exact hr.known m (h.mem_iff.mpr hm) f hf t ht

/-- A set whose structure is sound is refused exactly for its first cycle. -/
theorem classify_eq_error_iff {u : Universe} (h : set.structuralProblems u = []) {p : Problem} :
    (set.classify u false).result = .error p ↔ ∃ c, set.cycles.head? = some c ∧ p = .cyclicReference c := by
  rw [classify_result, problems, h]
  cases set.cycles with
  | nil => simp
  | cons c cs => simp [eq_comm]

/-! ## The order of all cycles -/

/-- The other models that the model of a name lists, in order of declaration, each where it is listed first. -/
def listedBy (set : ModelSet) (a : String) : List String :=
  ((set.get? a).map fun m =>
    ((m.references.map Prod.snd).filter fun t => set.contains t && t ≠ m.name).eraseDups).getD []

theorem targetsOf_eq_listedBy (set : ModelSet) (a : String) : set.targetsOf a = set.listedBy a := by
  have htargets : set.targets = fun m : Model =>
      ((m.references.map Prod.snd).filter fun t => set.contains t && t ≠ m.name).eraseDups := by
    funext m
    rw [targets, Keyed.items_ofList_id]
  rw [targetsOf, listedBy, htargets]

/-- For each step around a cycle, the position of the next name among the models that the current one lists. -/
def steps (set : ModelSet) (c : List String) : List Nat := stepsAlong set.listedBy (c ++ c.take 1)

/-- A cycle from a smaller name, or one from the same name that goes to an earlier reference where the two part. -/
def Before (set : ModelSet) : List String → List String → Prop
  | a :: q, b :: r => a < b ∨ a = b ∧ set.steps (a :: q) < set.steps (b :: r)
  | _, _ => False

theorem exists_cons_of_mem_cyclesFrom {start : String} {c : List String} (h : c ∈ set.cyclesFrom start) :
    ∃ q, c = start :: q := by
  obtain ⟨a, q, rfl⟩ := (mem_cyclesFrom.mp h).1.exists_cons
  obtain rfl : a = start := by simpa using (mem_cyclesFrom.mp h).2.2
  exact ⟨q, rfl⟩

theorem pairwise_cyclesFrom (set : ModelSet) (start : String) : (set.cyclesFrom start).Pairwise set.Before := by
  have hsearch : (set.cyclesFrom start).Pairwise (Earlier set.targetsOf start [start] start) :=
    pairwise_returnsTo set.nodup_targetsOf (set.nodup_greater start) (set.not_mem_greater start)
  refine hsearch.imp_of_mem fun {c d} hc hd hcd => ?_
  obtain ⟨q, rfl⟩ := exists_cons_of_mem_cyclesFrom hc
  obtain ⟨r, rfl⟩ := exists_cons_of_mem_cyclesFrom hd
  obtain ⟨w, v, hw, hv, hlt⟩ := hcd
  obtain rfl : q ++ [start] = w := by simpa using hw
  obtain rfl : r ++ [start] = v := by simpa using hv
  rw [funext set.targetsOf_eq_listedBy] at hlt
  exact .inr ⟨rfl, by simpa [steps] using hlt⟩

/-- Every cycle comes before those listed after it. -/
theorem pairwise_cycles (set : ModelSet) : set.cycles.Pairwise set.Before := by
  rw [cycles, List.pairwise_flatMap]
  refine ⟨fun a _ => set.pairwise_cyclesFrom a, ?_⟩
  have hsorted : (set.keys.mergeSort (· ≤ ·)).Pairwise (· ≤ ·) := List.pairwise_mergeSort' _ _
  have hnodup : (set.keys.mergeSort (· ≤ ·)).Nodup := (List.mergeSort_perm _ _).nodup_iff.mpr set.nodup
  refine (hsorted.and hnodup).imp fun {a b} hab c hc d hd => ?_
  obtain ⟨q, rfl⟩ := exists_cons_of_mem_cyclesFrom hc
  obtain ⟨r, rfl⟩ := exists_cons_of_mem_cyclesFrom hd
  exact .inl (lt_of_le_of_ne hab.1 hab.2)

/-- **The order of the cycles is canonical**: sets of the same models list the same cycles in the same order, and when
their structure is sound and cycles are refused they are refused for the same cycle. The first names never go down, and
cycles from one name stand in the lexicographic order of their steps, no two with the same steps. -/
theorem cycles_canonical (h : set.items.Perm set'.items) :
    set.cycles = set'.cycles ∧
      (∀ u p, set.structuralProblems u = [] →
        ((set.classify u false).result = .error p ↔ ∃ c, set.cycles.head? = some c ∧ p = .cyclicReference c) ∧
        ((set'.classify u false).result = .error p ↔ (set.classify u false).result = .error p)) ∧
      set.cycles.Pairwise set.Before := by
  refine ⟨cycles_eq_of_perm h, fun u p hp => ⟨classify_eq_error_iff hp, ?_⟩, set.pairwise_cycles⟩
  have hp' : set'.structuralProblems u = [] :=
    structuralProblems_eq_nil_iff.mpr ((structuralProblems_eq_nil_iff.mp hp).perm h)
  rw [classify_eq_error_iff hp, classify_eq_error_iff hp', cycles_eq_of_perm h]

end ModelSet

namespace Sample

/-- Lists the club before the book. -/
def author : Model :=
  ⟨"Author", ⟨[⟨"clubs", ["Club"], none, by decide, by decide⟩,
    ⟨"works", ["Book", "Club"], none, by decide, by decide⟩], by decide⟩⟩

def book : Model := ⟨"Book", ⟨[⟨"by", ["Author", "string"], some .everyone, by decide, by decide⟩], by decide⟩⟩

def club : Model :=
  ⟨"Club", ⟨[⟨"members", ["Author", "Set"], none, by decide, by decide⟩,
    ⟨"reading", ["Book"], none, by decide, by decide⟩], by decide⟩⟩

def library : ModelSet := ⟨[author, book, club], by decide⟩

def libraryShuffled : ModelSet := ⟨[club, author, book], by decide⟩

end Sample

namespace ModelSet

theorem cycles_canonical_library : Sample.library.items.Perm Sample.libraryShuffled.items ∧
    Sample.library.structuralProblems .standard = [] ∧
    Sample.libraryShuffled.cycles = [["Author", "Club"], ["Author", "Club", "Book"], ["Author", "Book"]] ∧
    Sample.library.Before ["Author", "Club", "Book"] ["Author", "Book"] ∧
    (Sample.libraryShuffled.classify .standard false).result = .error (.cyclicReference ["Author", "Club"]) := by
  have hperm : Sample.library.items.Perm Sample.libraryShuffled.items := by decide
  have hcycles : Sample.library.cycles = [["Author", "Club"], ["Author", "Club", "Book"], ["Author", "Book"]] := by cbv
  obtain ⟨heq, herror, hbefore⟩ := cycles_canonical hperm
  rw [hcycles] at heq hbefore
  refine ⟨hperm, rfl, heq.symm, ?_, ?_⟩
  · exact (List.pairwise_cons.mp (List.pairwise_cons.mp hbefore).2).1 _ (by simp)
  · obtain ⟨hfirst, hsame⟩ := herror .standard (.cyclicReference ["Author", "Club"]) rfl
    exact hsame.mpr (hfirst.mpr ⟨_, congrArg List.head? hcycles, rfl⟩)

end ModelSet

end ModelCompiler
