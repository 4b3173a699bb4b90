import ModelCompiler.ModelSet

/-!
# Reference cycles

The cycles of the reference graph that go through two or more models. Each is found once, from its smallest name: the
search from a name walks only through greater names, and through none twice.
-/

namespace ModelCompiler

/-- The ways to go on from `here` back to `start` through distinct names of `free`, each as the path so far followed by
the names it goes through. -/
def returnsTo (next : String → List String) (start : String) (free path : List String) (here : String) :
    List (List String) :=
  (next here).flatMap fun target =>
    if target = start then [path]
    else if _h : target ∈ free then returnsTo next start (free.erase target) (path ++ [target]) target
    else []
termination_by free.length
decreasing_by
  have := List.length_pos_of_mem _h
  rw [List.length_erase_of_mem _h]
  omega

namespace ModelSet

/-- The cycles whose smallest name is `start`, written from it. -/
def cyclesFrom (set : ModelSet) (start : String) : List (List String) :=
  returnsTo set.targetsOf start (set.keys.filter (start < ·)) [start] start

/-- The cycles through two or more models, in the order of their smallest names. -/
def cycles (set : ModelSet) : List (List String) :=
  (set.keys.mergeSort (· ≤ ·)).flatMap set.cyclesFrom

end ModelSet

end ModelCompiler
