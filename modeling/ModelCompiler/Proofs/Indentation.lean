import ModelCompiler.Proofs.Drafts

/-!
# Indentation comes from structure

Without a depth, a layout is a list of entries in preorder: the header of a block, what its children list, its footer
(`Layout.entries`). An entry knows for each block around it whether that is indented; a block is around its children
and not around its own header and footer.

* **Written at a depth** (`lines_at`): the lines of a layout are its entries, each behind two blanks for each level
  of the depth and of the indented blocks around it. A line node without text is written without blanks.
* **Another depth** (`Entry.written_add`): going deeper puts blanks before all lines but those of empty line nodes.

Calls on the blocks of a draft make layouts of any shape; what they are laid out to is in `Draft.layout_eq`.
-/

namespace ModelCompiler

namespace Layout

/-- A text of a layout. -/
structure Entry where
  text : String
  /-- Whether it is that of a line node, and not the header or the footer of a block. -/
  isNode : Bool
  /-- For each block around it, from the inside, whether it is indented. -/
  around : List Bool

mutual

/-- The texts of a layout in preorder, inside of the blocks `around`. -/
def entries (around : List Bool) : Layout → List Entry
  | .line text => [⟨text, true, around⟩]
  | .block header footer indented children =>
    (header.map fun text => ⟨text, false, around⟩).toList ++ entriesOf (indented :: around) children ++
      (footer.map fun text => ⟨text, false, around⟩).toList

def entriesOf (around : List Bool) : List Layout → List Entry
  | [] => []
  | child :: children => entries around child ++ entriesOf around children

end

/-- That many blanks. -/
def blanks (n : Nat) : String := String.ofList (List.replicate n ' ')

theorem blanks_add (m n : Nat) : blanks (m + n) = blanks m ++ blanks n := by
  rw [blanks, ← List.replicate_append_replicate, String.ofList_append]
  rfl

theorem indent_eq (depth : Int) (text : String) : indent depth text = blanks (2 * max 0 depth).toNat ++ text := by
  have hblanks : 2 * depth.toNat = (2 * max 0 depth).toNat := by omega
  rw [indent, hblanks]
  rfl

namespace Entry

/-- The number of indented blocks around an entry. -/
def level (e : Entry) : Nat := e.around.count true

/-- The entry of a line node without text. -/
def isBlank (e : Entry) : Bool := e.isNode && e.text.isEmpty

/-- The entry as a line of a layout that starts at a depth. -/
def written (depth : Int) (e : Entry) : String :=
  if e.isBlank then "" else blanks (2 * max 0 (depth + e.level)).toNat ++ e.text

/-- Going deeper puts blanks before every line but that of an empty line node. -/
theorem written_add (d e : Nat) (entry : Entry) : entry.written (d + e) =
    if entry.isBlank then entry.written d else blanks (2 * e) ++ entry.written d := by
  unfold written
  split
  · rfl
  · have hblanks : (2 * max 0 ((d : Int) + e + entry.level)).toNat =
        2 * e + (2 * max 0 ((d : Int) + entry.level)).toNat := by omega
    rw [hblanks, blanks_add, String.append_assoc]

end Entry

/-! ## Lines -/

theorem inner_add_count (indented : Bool) (around : List Bool) (depth : Int) :
    inner indented (depth + around.count true) = depth + (indented :: around).count true := by
  cases indented <;> simp [inner, Int.add_assoc]

theorem toList_map_indent (text : Option String) (around : List Bool) (depth : Int) :
    (text.map (indent (depth + around.count true))).toList =
      (text.map fun text => (⟨text, false, around⟩ : Entry)).toList.map (Entry.written depth) := by
  cases text with
  | none => rfl
  | some text => simp [indent_eq, Entry.written, Entry.isBlank, Entry.level]

mutual

/-- The lines of a layout inside of some blocks are its entries there, as they are written. -/
theorem lines_at : ∀ (t : Layout) (around : List Bool) (depth : Int),
    t.lines (depth + around.count true) = (t.entries around).map (Entry.written depth)
  | .line text, around, depth => by
    simp [lines, entries, indent_eq, Entry.written, Entry.isBlank, Entry.level]
  | .block header footer indented children, around, depth => by
    rw [lines, entries, inner_add_count, linesOf_at children (indented :: around) depth, List.map_append,
      List.map_append, toList_map_indent, toList_map_indent]

theorem linesOf_at : ∀ (ts : List Layout) (around : List Bool) (depth : Int),
    linesOf ts (depth + around.count true) = (entriesOf around ts).map (Entry.written depth)
  | [], _, _ => rfl
  | t :: ts, around, depth => by
    rw [linesOf, entriesOf, List.map_append, lines_at t around depth, linesOf_at ts around depth]

end

theorem lines_eq_map_written (t : Layout) (depth : Int) : t.lines depth = (t.entries []).map (Entry.written depth) := by
  simpa using lines_at t [] depth

/-- **Depth comes from structure**: the lines of a layout at any depth are its entries in preorder, one line each, with
two blanks for each level of the depth and of the indented blocks around the entry, and none below level zero; an empty
line node is written as the empty line. Going deeper puts blanks before all other lines. The layouts of the blocks that
calls make out of the empty document have the children of the blocks in order. -/
theorem lines_of_structure :
    (∀ (t : Layout) (depth : Int), t.lines depth = (t.entries []).map (Entry.written depth)) ∧
    (∀ (t : Layout) (d e : Nat), t.lines (d + e) = List.zipWith
      (fun entry line => if entry.isBlank then line else blanks (2 * e) ++ line) (t.entries []) (t.lines d)) ∧
    ∀ draft, Draft.Built draft → ∀ number, draft.layout number =
      .block (draft.block number).header (draft.block number).footer (draft.block number).indented
        ((draft.block number).children.map draft.childLayout) := by
  refine ⟨lines_eq_map_written, fun t d e => ?_, fun draft hbuilt => Draft.layout_eq hbuilt.acyclic⟩
  rw [lines_eq_map_written, lines_eq_map_written, List.zipWith_map_right, List.zipWith_self]
  exact List.map_congr_left fun entry _ => entry.written_add d e

end Layout

namespace Sample

/-- A block with two lines, one of them empty, and a block inside that has no header and is not indented. -/
def sheet : Draft :=
  (((Draft.empty.openBlock 0 (some "outer [") (some "]") true).addLines 1 ["a;", ""]).openBlock 1 none (some ")")
    false).addLine 2 "b;"

theorem built_sheet : Draft.Built sheet :=
  .addLine (.openBlock (.addLines (.openBlock .empty (by decide) _ _ _) (by decide) _) (by decide) _ _ _) (by decide) _

end Sample

namespace Layout

theorem lines_of_structure_sheet : Draft.Built Sample.sheet ∧
    Sample.sheet.layout 1 = .block (some "outer [") (some "]") true
      [.line "a;", .line "", .block none (some ")") false [.line "b;"]] ∧
    (Sample.sheet.layout 1).lines (-1) = ["outer [", "a;", "", "b;", ")", "]"] ∧
    (Sample.sheet.layout 1).lines 1 = ["  outer [", "    a;", "", "    b;", "    )", "  ]"] := by
  obtain ⟨hlines, hdeeper, hlayout⟩ := lines_of_structure
  refine ⟨Sample.built_sheet, (hlayout _ Sample.built_sheet 1).trans rfl, (hlines _ _).trans rfl, ?_⟩
  exact (hdeeper (Sample.sheet.layout 1) 0 1).trans rfl

end Layout

end ModelCompiler
