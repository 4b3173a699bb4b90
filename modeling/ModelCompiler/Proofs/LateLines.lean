import ModelCompiler.Proofs.Indentation

/-!
# Lines that are added late

What is rendered of a draft is a list of pieces: the texts that become lines and, for each occurrence of a block, the
slot behind its children and before its footer (`Draft.Renders`). A line that is added to a block comes to stand in the
slots of the block, and nowhere else (`Renders.addLine`).

* **Rendering** (`exists_renders`, `Renders.entriesOf_eq`): where no block contains itself everything has pieces, and
  these are the entries of its layout with the slots between them.
* **Order of calls** (`getElem?_addTexts`, `addTexts_congr`): a block gets the texts that are added to it in their
  order, so that only the order of the calls on one block matters.
-/

namespace ModelCompiler

namespace Draft

open Layout (Entry)

/-- A piece of what is rendered. -/
inductive Piece where
  | entry (e : Entry)
  /-- Where a further line of a block comes to stand: inside of the blocks `around`, the block itself among them. -/
  | slot (number : Nat) (around : List Bool)

namespace Piece

def entry? : Piece → Option Entry
  | .entry e => some e
  | .slot _ _ => none

/-- The line of a piece; a slot has none. -/
def line? (depth : Int) (p : Piece) : Option String := p.entry?.map (Entry.written depth)

/-- The header or the footer of a block. -/
def edge (around : List Bool) (text : Option String) : List Piece :=
  (text.map fun text => entry ⟨text, false, around⟩).toList

/-- Puts a line node into a slot of a block. -/
def insert (number : Nat) (text : String) : Piece → List Piece
  | .entry e => [.entry e]
  | .slot n around => if n = number then [.entry ⟨text, true, around⟩, .slot n around] else [.slot n around]

theorem filterMap_edge (around : List Bool) (text : Option String) :
    (edge around text).filterMap entry? = (text.map fun text => (⟨text, false, around⟩ : Entry)).toList := by
  cases text <;> rfl

theorem flatMap_edge (number : Nat) (line : String) (around : List Bool) (text : Option String) :
    (edge around text).flatMap (insert number line) = edge around text := by
  cases text <;> rfl

end Piece

/-- What children inside of some blocks are rendered to. -/
inductive Renders (d : Draft) : List Bool → List Child → List Piece → Prop
  | nil {around : List Bool} : Renders d around [] []
  | line {around : List Bool} {text : String} {children : List Child} {pieces : List Piece}
      (rest : Renders d around children pieces) :
      Renders d around (.line text :: children) (.entry ⟨text, true, around⟩ :: pieces)
  | block {around : List Bool} {number : Nat} {children : List Child} {inside pieces : List Piece}
      (own : Renders d ((d.block number).indented :: around) (d.block number).children inside)
      (rest : Renders d around children pieces) :
      Renders d around (.block number :: children)
        (Piece.edge around (d.block number).header ++
          (inside ++ .slot number ((d.block number).indented :: around) ::
            (Piece.edge around (d.block number).footer ++ pieces)))

variable {d : Draft} {around : List Bool} {children : List Child} {pieces : List Piece}

/-! ## Rendering -/

theorem exists_renders_of_blocks (h : ∀ number, .block number ∈ children →
    ∀ around, ∃ inside, d.Renders around (d.block number).children inside) (around : List Bool) :
    ∃ pieces, d.Renders around children pieces := by
  induction children with
  | nil => exact ⟨[], .nil⟩
  | cons child children ih =>
    obtain ⟨pieces, hpieces⟩ := ih fun number hmem => h number (List.mem_cons_of_mem _ hmem)
    cases child with
    | line text => exact ⟨_, .line hpieces⟩
    | block number =>
      obtain ⟨inside, hinside⟩ := h number List.mem_cons_self ((d.block number).indented :: around)
      exact ⟨_, .block hinside hpieces⟩

/-- The children of a block; each of them holds fewer blocks. -/
theorem exists_renders_children (h : d.Acyclic) (number : Nat) (around : List Bool) :
    ∃ inside, d.Renders around (d.block number).children inside :=
  exists_renders_of_blocks (fun inside _ => exists_renders_children h inside) around
termination_by d.height number
decreasing_by exact height_lt h ‹_›

theorem exists_renders (h : d.Acyclic) (around : List Bool) (children : List Child) :
    ∃ pieces, d.Renders around children pieces :=
  exists_renders_of_blocks (fun number _ => exists_renders_children h number) around

/-- Without the slots, the pieces are the entries of the layouts. -/
theorem Renders.entriesOf_eq (h : d.Acyclic) (hr : d.Renders around children pieces) :
    Layout.entriesOf around (children.map d.childLayout) = pieces.filterMap Piece.entry? := by
  induction hr with
  | nil => rfl
  | line _ ih =>
    rw [List.map_cons, Layout.entriesOf, ih]
    rfl
  | @block around number children inside pieces _ _ ihOwn ihRest =>
    rw [List.map_cons, Layout.entriesOf, childLayout, layout_eq h, Layout.entries, ihOwn, ihRest]
    simp only [List.filterMap_append, List.filterMap_cons, Piece.filterMap_edge, Piece.entry?, List.append_assoc]

theorem Renders.lines_eq (h : d.Acyclic) {number : Nat} (hr : d.Renders [] [.block number] pieces) (depth : Int) :
    (d.layout number).lines depth = pieces.filterMap (Piece.line? depth) := by
  have hentries : (d.layout number).entries [] = pieces.filterMap Piece.entry? := by
    simpa [Layout.entriesOf, childLayout] using hr.entriesOf_eq h
  rw [Layout.lines_eq_map_written, hentries, List.map_filterMap]
  rfl

/-! ## One more line -/

theorem Renders.append {children' : List Child} {pieces' : List Piece} (hr : d.Renders around children pieces)
    (hr' : d.Renders around children' pieces') : d.Renders around (children ++ children') (pieces ++ pieces') := by
  induction hr with
  | nil => exact hr'
  | line _ ih => exact .line (ih hr')
  | block own _ _ ih =>
    have hrest := Renders.block own (ih hr')
    simpa using hrest

theorem block_addLine {parent : Nat} (hp : parent < d.blocks.length) (text : String) (number : Nat) :
    (d.addLine parent text).block number = if parent = number then
      { d.block parent with children := (d.block parent).children ++ [.line text] } else d.block number :=
  block_append hp _ number

/-- A line that is added to a block stands in all slots of the block, and the other pieces are as before. -/
theorem Renders.addLine (hr : d.Renders around children pieces) {parent : Nat} (hp : parent < d.blocks.length)
    (text : String) : (d.addLine parent text).Renders around children (pieces.flatMap (Piece.insert parent text)) := by
  induction hr with
  | nil => exact .nil
  | line _ ih => exact .line ih
  | @block around number children inside pieces _ _ ihOwn ihRest =>
    have hblock := block_addLine hp text number
    by_cases hnumber : parent = number
    · subst hnumber
      rw [if_pos rfl] at hblock
      -- the children of the block end with the line now, and so do their pieces
      have hown : (d.addLine parent text).Renders (((d.addLine parent text).block parent).indented :: around)
          ((d.addLine parent text).block parent).children
          (inside.flatMap (Piece.insert parent text) ++
            [.entry ⟨text, true, (d.block parent).indented :: around⟩]) := by
        rw [hblock]
        exact ihOwn.append (.line .nil)
      have hnew := Renders.block hown ihRest
      rw [hblock] at hnew
      simpa [Piece.flatMap_edge, Piece.insert] using hnew
    · rw [if_neg hnumber] at hblock
      have hown : (d.addLine parent text).Renders (((d.addLine parent text).block number).indented :: around)
          ((d.addLine parent text).block number).children (inside.flatMap (Piece.insert parent text)) := by
        rw [hblock]
        exact ihOwn
      have hnew := Renders.block hown ihRest
      rw [hblock] at hnew
      simpa [Piece.flatMap_edge, Piece.insert, Ne.symm hnumber] using hnew

/-! ## Calls in any order -/

/-- The draft after the lines of a list, each with the number of its block. -/
def addTexts (d : Draft) (calls : List (Nat × String)) : Draft := calls.foldl (fun d call => d.addLine call.1 call.2) d

/-- The texts of a list that are for one block. -/
def textsFor (number : Nat) (calls : List (Nat × String)) : List String :=
  (calls.filter fun call => call.1 = number).map Prod.snd

/-- A block has the texts that are for it at its end, in their order. -/
theorem getElem?_addTexts (number : Nat) : ∀ (calls : List (Nat × String)) (d : Draft),
    (d.addTexts calls).blocks[number]? = d.blocks[number]?.map fun b =>
      { b with children := b.children ++ (textsFor number calls).map .line }
  | [], d => by simp [addTexts, textsFor]
  | (parent, text) :: calls, d => by
    have hrest := getElem?_addTexts number calls (d.addLine parent text)
    rw [addLine, Draft.append, List.getElem?_modify] at hrest
    refine hrest.trans ?_
    by_cases hparent : parent = number <;> cases d.blocks[number]? <;> simp [textsFor, hparent]

/-- Lists that have the same texts for each block make the same draft. -/
theorem addTexts_congr (d : Draft) {calls calls' : List (Nat × String)}
    (h : ∀ number, textsFor number calls = textsFor number calls') : d.addTexts calls = d.addTexts calls' := by
  have hblocks : (d.addTexts calls).blocks = (d.addTexts calls').blocks :=
    List.ext_getElem? fun number => by rw [getElem?_addTexts, getElem?_addTexts, h number]
  exact congrArg Draft.mk hblocks

/-- **Late lines stay local**: in a draft in which no block contains itself, whatever is rendered of a block is a list
of pieces, and after a line is added to any block of the draft it is the same list with the line in each slot of that
block: behind the rendered children of each of its occurrences, before the footer, at the depth of the children. When
lines are added to several blocks, only the order of those of one block matters. -/
theorem late_lines_local (h : d.Acyclic) :
    (∀ number, ∃ pieces, d.Renders [] [.block number] pieces ∧
      (∀ depth, (d.layout number).lines depth = pieces.filterMap (Piece.line? depth)) ∧
      ∀ parent < d.blocks.length, ∀ text depth, ((d.addLine parent text).layout number).lines depth =
        (pieces.flatMap (Piece.insert parent text)).filterMap (Piece.line? depth)) ∧
    ∀ calls calls', (∀ number, textsFor number calls = textsFor number calls') → ∀ number depth,
      ((d.addTexts calls).layout number).lines depth = ((d.addTexts calls').layout number).lines depth := by
  refine ⟨fun number => ?_, fun calls calls' htexts number depth => by rw [addTexts_congr d htexts]⟩
  obtain ⟨pieces, hpieces⟩ := exists_renders h [] [.block number]
  refine ⟨pieces, hpieces, hpieces.lines_eq h, fun parent hp text => ?_⟩
  exact (hpieces.addLine hp text).lines_eq (h.addLine hp text)

end Draft

namespace Sample

/-- A block that stands in the document and, deeper, in another block of the document. -/
def shared : Draft :=
  (((Draft.empty.openBlock 0 (some "a [") (some "]") true).openBlock 1 (some "b [") (some "]") true).addLine
    2 "x;").attach 0 2

theorem acyclic_shared : shared.Acyclic := by
  refine Draft.acyclic_of_lt fun outer inside hc => ?_
  have hbuilt := Draft.Built.addLine (.openBlock (.openBlock .empty Nat.one_pos (some "a [") (some "]") true)
    Nat.one_lt_two (some "b [") (some "]") true) (Nat.lt_succ_self 2) "x;"
  rcases (Draft.contains_append_iff (by decide)).mp hc with hc | ⟨rfl, hchild⟩
  · exact hbuilt.lt_of_contains hc
  · cases hchild
    decide

end Sample

namespace Draft

theorem late_lines_local_shared : Sample.shared.Acyclic ∧
    (∃ pieces, Sample.shared.Renders [] [.block 0] pieces ∧
      pieces.filterMap (Piece.line? 0) =
        ["a [", "  b [", "    x;", "  ]", "]", "b [", "  x;", "]"] ∧
      (pieces.flatMap (Piece.insert 2 "y;")).filterMap (Piece.line? 0) =
        ["a [", "  b [", "    x;", "    y;", "  ]", "]", "b [", "  x;", "  y;", "]"]) ∧
    (((Sample.shared.addLine 2 "y;").addLine 1 "z;").layout 0).lines 0 =
      (((Sample.shared.addLine 1 "z;").addLine 2 "y;").layout 0).lines 0 := by
  obtain ⟨hlocal, horder⟩ := late_lines_local Sample.acyclic_shared
  obtain ⟨pieces, hpieces, hlines, hlate⟩ := hlocal 0
  refine ⟨Sample.acyclic_shared, ⟨pieces, hpieces, (hlines 0).symm.trans rfl, ?_⟩, ?_⟩
  · exact (hlate 2 (by decide) "y;" 0).symm.trans rfl
  · refine horder [(2, "y;"), (1, "z;")] [(1, "z;"), (2, "y;")] (fun number => ?_) 0 0
    by_cases htwo : 2 = number
    · subst htwo
      rfl
    · simp [textsFor, List.filter_cons, htwo]

end Draft

end ModelCompiler
