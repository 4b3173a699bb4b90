import ModelCompiler.Layout

/-!
# Drafts of a layout

A draft is a layout under construction: its blocks are numbered, block 0 being the document, and a block may be
attached in several places. A line that is added to a block later shows up wherever the block stands.
-/

namespace ModelCompiler

namespace Draft

inductive Child where
  | line (text : String)
  | block (number : Nat)

structure Block where
  header : Option String
  footer : Option String
  indented : Bool
  children : List Child

end Draft

structure Draft where
  blocks : List Draft.Block

namespace Draft

/-- The empty document. -/
def empty : Draft := ⟨[⟨none, none, false, []⟩]⟩

/-- Puts a child at the end of a block. -/
def append (d : Draft) (parent : Nat) (child : Child) : Draft :=
  ⟨d.blocks.modify parent fun b => { b with children := b.children ++ [child] }⟩

def addLine (d : Draft) (parent : Nat) (text : String) : Draft := d.append parent (.line text)

def addLines (d : Draft) (parent : Nat) (texts : List String) : Draft :=
  texts.foldl (fun d text => d.addLine parent text) d

/-- A new block that stands nowhere; it has the next number. -/
def addBlock (d : Draft) (header footer : Option String) (indented : Bool) : Draft :=
  ⟨d.blocks ++ [⟨header, footer, indented, []⟩]⟩

/-- Puts a block at the end of another. -/
def attach (d : Draft) (parent number : Nat) : Draft := d.append parent (.block number)

/-- A new block at the end of another. -/
def openBlock (d : Draft) (parent : Nat) (header footer : Option String) (indented : Bool) : Draft :=
  (d.addBlock header footer indented).attach parent d.blocks.length

/-- The layout of a block down to a number of levels. -/
def layoutTo (d : Draft) : Nat → Nat → Layout
  | 0, _ => .block none none false []
  | levels + 1, number =>
    match d.blocks[number]? with
    | none => .block none none false []
    | some b => .block b.header b.footer b.indented (b.children.map fun
      | .line text => .line text
      | .block inside => layoutTo d levels inside)

/-- The layout of a block. Where no block contains itself, there are at most as many levels as blocks. -/
def layout (d : Draft) (number : Nat) : Layout := d.layoutTo d.blocks.length number

/-- The text of the document. -/
def text (d : Draft) : String := "\n".intercalate ((d.layout 0).lines 0)

end Draft

end ModelCompiler
