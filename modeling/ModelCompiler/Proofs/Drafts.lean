import Mathlib.Data.Finset.Card
import Mathlib.Logic.Relation
import ModelCompiler.Layout.Draft

/-!
# Drafts in which no block contains itself

The blocks of a draft refer to each other by number, so a draft is a graph and its layout a tree that unfolds it. Where
no block contains itself (`Draft.Acyclic`) the layout of a block is the block with the layouts of its children, as deep
as they go (`layout_eq`).

* **Levels** (`layoutTo_eq`): a block is laid out in full once there are as many levels as blocks to be found in it,
  itself among them (`height`). One of its children holds fewer (`height_lt`).
* **Calls** (`Built`): adding lines and opening blocks, from the empty document on, puts a block only inside of older
  ones (`Built.lt_of_contains`), so that none comes to contain itself (`Built.acyclic`).
-/

namespace ModelCompiler

namespace Draft

variable {d : Draft}

/-- The block of a number; an empty one where there is none. -/
def block (d : Draft) (number : Nat) : Block := d.blocks[number]?.getD ⟨none, none, false, []⟩

/-- The second block is a child of the first. -/
def Contains (d : Draft) (outer inside : Nat) : Prop := .block inside ∈ (d.block outer).children

/-- No block contains itself, be it inside of others. -/
def Acyclic (d : Draft) : Prop := ∀ number, ¬Relation.TransGen d.Contains number number

/-- Blocks that stand only inside of blocks with smaller numbers. -/
theorem acyclic_of_lt (h : ∀ outer inside, d.Contains outer inside → outer < inside) : d.Acyclic := by
  have hlt : ∀ {outer inside}, Relation.TransGen d.Contains outer inside → outer < inside := by
    intro outer inside hpath
    induction hpath with
    | single hstep => exact h _ _ hstep
    | tail _ hstep ih => exact ih.trans (h _ _ hstep)
  exact fun number hself => Nat.lt_irrefl number (hlt hself)

theorem lt_length_of_contains {outer inside : Nat} (h : d.Contains outer inside) : outer < d.blocks.length := by
  by_contra hle
  rw [Contains, block, List.getElem?_eq_none (Nat.le_of_not_lt hle)] at h
  cases h

/-! ## Layouts in full -/

/-- The layout of a child, down to a number of levels. -/
def childTo (d : Draft) (levels : Nat) : Child → Layout
  | .line text => .line text
  | .block number => d.layoutTo levels number

/-- The layout of a child. -/
def childLayout (d : Draft) : Child → Layout
  | .line text => .line text
  | .block number => d.layout number

theorem layoutTo_succ (d : Draft) (levels number : Nat) :
    d.layoutTo (levels + 1) number = .block (d.block number).header (d.block number).footer (d.block number).indented
      ((d.block number).children.map (d.childTo levels)) := by
  rw [layoutTo, block]
  cases d.blocks[number]? <;> rfl

section Levels

open scoped Classical

/-- The blocks to be found in a block, itself among them. -/
noncomputable def within (d : Draft) (number : Nat) : Finset Nat :=
  (Finset.range d.blocks.length).filter (Relation.ReflTransGen d.Contains number)

theorem mem_within {number inside : Nat} : inside ∈ d.within number ↔
    inside < d.blocks.length ∧ Relation.ReflTransGen d.Contains number inside := by
  rw [within, Finset.mem_filter, Finset.mem_range]

/-- The number of blocks to be found in a block. -/
noncomputable def height (d : Draft) (number : Nat) : Nat := (d.within number).card

theorem height_le_length (d : Draft) (number : Nat) : d.height number ≤ d.blocks.length :=
  (Finset.card_filter_le _ _).trans (Finset.card_range _).le

/-- A child does not hold the block that it stands in. -/
theorem height_lt (h : d.Acyclic) {outer inside : Nat} (hc : d.Contains outer inside) :
    d.height inside < d.height outer := by
  -- the outer block is in itself, and there is no way back to it from its child
  refine Finset.card_lt_card ((Finset.ssubset_iff_of_subset fun number hnumber => ?_).mpr ⟨outer, ?_, fun hback => ?_⟩)
  · obtain ⟨hlt, hpath⟩ := mem_within.mp hnumber
    exact mem_within.mpr ⟨hlt, .head hc hpath⟩
  · exact mem_within.mpr ⟨lt_length_of_contains hc, .refl⟩
  · exact h outer (.head' hc (mem_within.mp hback).2)

theorem block_of_height_eq_zero {number : Nat} (h : d.height number = 0) :
    d.block number = ⟨none, none, false, []⟩ := by
  have hle : d.blocks.length ≤ number := by
    by_contra hlt
    have hself : number ∈ d.within number := mem_within.mpr ⟨Nat.lt_of_not_le hlt, .refl⟩
    rw [Finset.card_eq_zero.mp h] at hself
    cases hself
  rw [block, List.getElem?_eq_none hle]
  rfl

end Levels

/-- More levels than blocks to be found change nothing. -/
theorem layoutTo_eq (h : d.Acyclic) : ∀ {levels levels' number : Nat}, d.height number ≤ levels →
    d.height number ≤ levels' → d.layoutTo levels number = d.layoutTo levels' number
  | 0, 0, _, _, _ => rfl
  | 0, levels' + 1, number, hle, _ => by
    rw [layoutTo_succ, block_of_height_eq_zero (Nat.le_zero.mp hle)]
    rfl
  | levels + 1, 0, number, _, hle => by
    rw [layoutTo_succ, block_of_height_eq_zero (Nat.le_zero.mp hle)]
    rfl
  | levels + 1, levels' + 1, number, hle, hle' => by
    rw [layoutTo_succ, layoutTo_succ]
    congr 1
    refine List.map_congr_left fun child hchild => ?_
    cases child with
    | line text => rfl
    | block inside =>
      -- both numbers of levels go down by one, the height by at least one
      have hlt : d.height inside < d.height number := height_lt h hchild
      exact layoutTo_eq h (by omega) (by omega)

/-- Where no block contains itself, the layout of a block has the layouts of its children in it. -/
theorem layout_eq (h : d.Acyclic) (number : Nat) : d.layout number =
    .block (d.block number).header (d.block number).footer (d.block number).indented
      ((d.block number).children.map d.childLayout) := by
  have hheight := d.height_le_length number
  rw [layout, layoutTo_eq h hheight (Nat.le_succ_of_le hheight), layoutTo_succ]
  rfl

/-! ## Calls -/

theorem length_append (d : Draft) (parent : Nat) (child : Child) :
    (d.append parent child).blocks.length = d.blocks.length := by
  simp [append]

/-- A child that is put at the end of a block. -/
theorem block_append {parent : Nat} (hp : parent < d.blocks.length) (child : Child) (number : Nat) :
    (d.append parent child).block number = if parent = number then
      { d.block parent with children := (d.block parent).children ++ [child] } else d.block number := by
  rw [block, append, List.getElem?_modify]
  by_cases hnumber : parent = number
  · subst hnumber
    simp [block, List.getElem?_eq_getElem hp]
  · simp [block, hnumber]

theorem contains_append_iff {parent : Nat} (hp : parent < d.blocks.length) {child : Child} {outer inside : Nat} :
    (d.append parent child).Contains outer inside ↔
      d.Contains outer inside ∨ parent = outer ∧ child = .block inside := by
  rw [Contains, block_append hp]
  by_cases houter : parent = outer
  · subst houter
    simp [Contains, eq_comm]
  · simp [Contains, houter]

theorem contains_addLine_iff {parent : Nat} (hp : parent < d.blocks.length) {text : String} {outer inside : Nat} :
    (d.addLine parent text).Contains outer inside ↔ d.Contains outer inside := by
  rw [addLine, contains_append_iff hp]
  simp

/-- A line that is added somewhere leaves the blocks where they are. -/
theorem Acyclic.addLine (h : d.Acyclic) {parent : Nat} (hp : parent < d.blocks.length) (text : String) :
    (d.addLine parent text).Acyclic := by
  have hcontains : (d.addLine parent text).Contains = d.Contains := by
    funext outer inside
    exact propext (contains_addLine_iff hp)
  rw [Acyclic, hcontains]
  exact h

theorem contains_addBlock_iff {header footer : Option String} {indented : Bool} {outer inside : Nat} :
    (d.addBlock header footer indented).Contains outer inside ↔ d.Contains outer inside := by
  rw [Contains, Contains, block, block, addBlock, List.getElem?_append]
  split
  · rfl
  · rename_i hle
    rw [List.getElem?_eq_none (Nat.le_of_not_lt hle)]
    cases hnew : outer - d.blocks.length <;> simp

theorem contains_openBlock_iff {parent : Nat} (hp : parent < d.blocks.length) {header footer : Option String}
    {indented : Bool} {outer inside : Nat} : (d.openBlock parent header footer indented).Contains outer inside ↔
      d.Contains outer inside ∨ parent = outer ∧ d.blocks.length = inside := by
  have hp' : parent < (d.addBlock header footer indented).blocks.length := by
    simp only [addBlock, List.length_append]
    omega
  rw [openBlock, attach, contains_append_iff hp', contains_addBlock_iff]
  simp

/-- The drafts that calls on their blocks make out of the empty document. -/
inductive Built : Draft → Prop
  | empty : Built .empty
  | addLine {d : Draft} {parent : Nat} (built : Built d) (known : parent < d.blocks.length) (text : String) :
      Built (d.addLine parent text)
  | addLines {d : Draft} {parent : Nat} (built : Built d) (known : parent < d.blocks.length) (texts : List String) :
      Built (d.addLines parent texts)
  | openBlock {d : Draft} {parent : Nat} (built : Built d) (known : parent < d.blocks.length)
      (header footer : Option String) (indented : Bool) : Built (d.openBlock parent header footer indented)

theorem contains_addLines_iff {parent outer inside : Nat} : ∀ {texts : List String} {d : Draft},
    parent < d.blocks.length → ((d.addLines parent texts).Contains outer inside ↔ d.Contains outer inside)
  | [], _, _ => Iff.rfl
  | text :: texts, d, hp => by
    have hp' : parent < (d.addLine parent text).blocks.length := by rwa [addLine, length_append]
    have hrest : ((d.addLine parent text).addLines parent texts).Contains outer inside ↔ _ := contains_addLines_iff hp'
    exact hrest.trans (contains_addLine_iff hp)

/-- A block that is opened is younger than the one that it is opened in. -/
theorem Built.lt_of_contains (h : Built d) : ∀ {outer inside : Nat}, d.Contains outer inside → outer < inside := by
  induction h with
  | empty =>
    intro outer inside hc
    have houter := lt_length_of_contains hc
    obtain rfl : outer = 0 := Nat.lt_one_iff.mp houter
    cases hc
  | addLine _ known text ih =>
    intro outer inside hc
    exact ih ((contains_addLine_iff known).mp hc)
  | addLines _ known texts ih =>
    intro outer inside hc
    exact ih ((contains_addLines_iff known).mp hc)
  | openBlock _ known header footer indented ih =>
    intro outer inside hc
    rcases (contains_openBlock_iff known).mp hc with hc | ⟨rfl, rfl⟩
    · exact ih hc
    · exact known

theorem Built.acyclic (h : Built d) : d.Acyclic := acyclic_of_lt fun _ _ hc => h.lt_of_contains hc

end Draft

end ModelCompiler
