/-!
# Layout

A layout is a tree of lines and blocks. A block has perhaps a header and a footer, and its children stand one level
deeper than it when it is indented. Indentation comes from the nesting alone: two spaces a level, none at a level below
zero, and none on a line without text.
-/

namespace ModelCompiler

inductive Layout where
  | line (text : String)
  | block (header footer : Option String) (indented : Bool) (children : List Layout)

namespace Layout

/-- The text at a depth. -/
def indent (depth : Int) (text : String) : String := String.ofList (List.replicate (2 * depth.toNat) ' ') ++ text

/-- The depth of the children of a block. -/
def inner (indented : Bool) (depth : Int) : Int := if indented then depth + 1 else depth

mutual

/-- The lines of a layout that starts at a depth. -/
def lines : Layout → Int → List String
  | .line text, depth => [if text.isEmpty then "" else indent depth text]
  | .block header footer indented children, depth =>
    (header.map (indent depth)).toList ++ linesOf children (inner indented depth) ++
      (footer.map (indent depth)).toList

def linesOf : List Layout → Int → List String
  | [], _ => []
  | child :: children, depth => lines child depth ++ linesOf children depth

end

theorem linesOf_append (xs ys : List Layout) (depth : Int) :
    linesOf (xs ++ ys) depth = linesOf xs depth ++ linesOf ys depth := by
  induction xs with
  | nil => rfl
  | cons x xs ih => simp [linesOf, ih]

theorem linesOf_flatMap {α : Type} (f : α → List Layout) (xs : List α) (depth : Int) :
    linesOf (xs.flatMap f) depth = xs.flatMap fun x => linesOf (f x) depth := by
  induction xs with
  | nil => rfl
  | cons x xs ih => rw [List.flatMap_cons, List.flatMap_cons, linesOf_append, ih]

/-- Lines one below the other. -/
theorem linesOf_map_line (texts : List String) (depth : Int) :
    linesOf (texts.map .line) depth = texts.map fun text => if text.isEmpty then "" else indent depth text := by
  induction texts with
  | nil => rfl
  | cons text texts ih => simp [linesOf, lines, ih]

/-- The text of a document with these children. -/
def document (children : List Layout) : String := "\n".intercalate (linesOf children 0)

/-- An empty line. -/
def blank : Layout := .line ""

/-- An indented block between two texts. -/
def between (header footer : String) (children : List Layout) : Layout :=
  .block (some header) (some footer) true children

/-- An indented block between braces. -/
def braced (header : String) (children : List Layout) : Layout := between (header ++ " \x7b") "\x7d" children

theorem lines_between (header footer : String) (children : List Layout) (depth : Int) :
    lines (between header footer children) depth =
      indent depth header :: linesOf children (depth + 1) ++ [indent depth footer] := rfl

theorem lines_braced (header : String) (children : List Layout) (depth : Int) : lines (braced header children) depth =
    indent depth (header ++ " \x7b") :: linesOf children (depth + 1) ++ [indent depth "\x7d"] := rfl

end Layout

end ModelCompiler
