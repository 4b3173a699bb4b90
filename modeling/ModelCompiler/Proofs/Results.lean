import Mathlib.Data.List.Forall2

/-!
# Results of sequences

When a sequence of computations gives a result: a step that depends on another (`bind_eq_ok_iff`), and one computation
for each item of a list (`mapM_eq_ok_iff`, `exists_mapM_eq_ok_iff`), also where a failure says nothing
(`mapM_eq_some_iff`).
-/

namespace ModelCompiler.Results

variable {ε ε' α β : Type}

theorem bind_eq_ok_iff {x : Except ε α} {f : α → Except ε β} {b : β} :
    x >>= f = .ok b ↔ ∃ a, x = .ok a ∧ f a = .ok b := by
  cases x with
  | error e => simp [bind, Except.bind]
  | ok a => simp [bind, Except.bind]

theorem bind_eq_error_iff {x : Except ε α} {f : α → Except ε β} {e : ε} :
    x >>= f = .error e ↔ x = .error e ∨ ∃ a, x = .ok a ∧ f a = .error e := by
  cases x with
  | error e => simp [bind, Except.bind]
  | ok a => simp [bind, Except.bind]

/-- What is done with a result and cannot fail makes no fault. -/
theorem bind_pure_eq_error_iff {x : Except ε α} {f : α → β} {e : ε} :
    (x >>= fun a => pure (f a)) = .error e ↔ x = .error e := by
  cases x with
  | error e => simp [bind, Except.bind]
  | ok a => simp [bind, Except.bind, pure, Except.pure]

theorem mapError_eq_ok_iff {g : ε → ε'} {x : Except ε α} {a : α} : x.mapError g = .ok a ↔ x = .ok a := by
  cases x <;> simp [Except.mapError]

/-- A list is mapped when each of its items is. -/
theorem mapM_eq_ok_iff {f : α → Except ε β} : ∀ {xs : List α} {ys : List β},
    xs.mapM f = .ok ys ↔ List.Forall₂ (fun x y => f x = .ok y) xs ys
  | [], ys => by
    rw [List.mapM_nil, List.forall₂_nil_left_iff]
    exact ⟨fun h => (Except.ok.inj h).symm, fun h => h ▸ rfl⟩
  | x :: xs, ys => by
    rw [List.mapM_cons, bind_eq_ok_iff, List.forall₂_cons_left_iff]
    refine exists_congr fun y => ?_
    constructor
    · rintro ⟨hy, h⟩
      obtain ⟨rest, hrest, h⟩ := bind_eq_ok_iff.mp h
      exact ⟨rest, hy, mapM_eq_ok_iff.mp hrest, (Except.ok.inj h).symm⟩
    · rintro ⟨rest, hy, hrest, rfl⟩
      exact ⟨hy, bind_eq_ok_iff.mpr ⟨rest, mapM_eq_ok_iff.mpr hrest, rfl⟩⟩

theorem mapM_eq_some_iff {f : α → Option β} : ∀ {xs : List α} {ys : List β},
    xs.mapM f = some ys ↔ List.Forall₂ (fun x y => f x = some y) xs ys
  | [], ys => by
    rw [List.mapM_nil, List.forall₂_nil_left_iff]
    exact ⟨fun h => (Option.some.inj h).symm, fun h => h ▸ rfl⟩
  | x :: xs, ys => by
    rw [List.mapM_cons, Option.bind_eq_bind, Option.bind_eq_some_iff, List.forall₂_cons_left_iff]
    refine exists_congr fun y => ?_
    constructor
    · rintro ⟨hy, h⟩
      obtain ⟨rest, hrest, h⟩ := Option.bind_eq_some_iff.mp h
      exact ⟨rest, hy, mapM_eq_some_iff.mp hrest, (Option.some.inj h).symm⟩
    · rintro ⟨rest, hy, hrest, rfl⟩
      exact ⟨hy, Option.bind_eq_some_iff.mpr ⟨rest, mapM_eq_some_iff.mpr hrest, rfl⟩⟩

/-- What succeeds for each item of a list succeeds for the list. -/
theorem forM_eq_ok {f : α → Except ε PUnit} : ∀ {xs : List α}, (∀ x ∈ xs, f x = .ok ⟨⟩) → forM xs f = .ok ⟨⟩
  | [], _ => rfl
  | x :: xs, h => by
    rw [List.forM_cons, h x List.mem_cons_self]
    exact forM_eq_ok fun y hy => h y (List.mem_cons_of_mem x hy)

/-- Computations that agree on a list map it alike. -/
theorem mapM_congr {m : Type → Type} [Monad m] [LawfulMonad m] {f g : α → m β} : ∀ {xs : List α},
    (∀ x ∈ xs, f x = g x) → xs.mapM f = xs.mapM g
  | [], _ => rfl
  | x :: xs, h => by
    rw [List.mapM_cons, List.mapM_cons, h x List.mem_cons_self,
      mapM_congr fun y hy => h y (List.mem_cons_of_mem _ hy)]

theorem exists_forall₂_iff {r : α → β → Prop} : ∀ {xs : List α},
    (∃ ys, List.Forall₂ r xs ys) ↔ ∀ x ∈ xs, ∃ y, r x y
  | [] => by simp
  | x :: xs => by
    rw [List.forall_mem_cons, ← exists_forall₂_iff]
    constructor
    · rintro ⟨_, h⟩
      obtain ⟨y, ys, hy, hrest, -⟩ := List.forall₂_cons_left_iff.mp h
      exact ⟨⟨y, hy⟩, ys, hrest⟩
    · rintro ⟨⟨y, hy⟩, ys, hrest⟩
      exact ⟨y :: ys, .cons hy hrest⟩

theorem exists_left_of_mem {r : α → β → Prop} {y : β} : ∀ {xs : List α} {ys : List β}, List.Forall₂ r xs ys →
    y ∈ ys → ∃ x ∈ xs, r x y
  | _, _, .cons hxy hrest, h => by
    rcases List.mem_cons.mp h with rfl | h
    · exact ⟨_, List.mem_cons_self, hxy⟩
    · obtain ⟨x, hx, hr⟩ := exists_left_of_mem hrest h
      exact ⟨x, List.mem_cons_of_mem _ hx, hr⟩

theorem exists_right_of_mem {r : α → β → Prop} {xs : List α} {ys : List β} (h : List.Forall₂ r xs ys) {x : α}
    (hx : x ∈ xs) : ∃ y ∈ ys, r x y := exists_left_of_mem h.flip hx

/-- A list can be mapped exactly when each item can. -/
theorem exists_mapM_eq_ok_iff {f : α → Except ε β} {xs : List α} :
    (∃ ys, xs.mapM f = .ok ys) ↔ ∀ x ∈ xs, ∃ y, f x = .ok y := by
  simp only [mapM_eq_ok_iff, exists_forall₂_iff]

end ModelCompiler.Results
