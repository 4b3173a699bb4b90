import Mathlib.Data.List.Basic
import ModelCompiler.Layout

/-!
# Brackets and indentation

The brackets that are open at a place of a text are kept as the closing brackets that are still to come, the next one
first (`read`). A text is nested when its brackets are balanced and each of its lines is indented by two blanks for
each bracket that is open where the line begins, less one when the line begins with a closing bracket (`Nested`).

* **Pieces of a line** (`Phrase`): a piece that takes some brackets to others does so inside any other brackets, and
  pieces are put together one after the other.
* **Lines** (`Sentence.nests`): a line that closes at most one bracket first stands at the depth of what is open
  outside of it.
* **Layouts** (`Layout.Balanced`): blocks whose header opens the bracket that their footer closes are balanced when
  their children are. A document of balanced layouts is nested (`Layout.Balanced.nested`).
-/

namespace ModelCompiler

namespace Brackets

def closingOf? : Char → Option Char
  | '(' => some ')'
  | '[' => some ']'
  | '\x7b' => some '\x7d'
  | _ => none

def isClosing (c : Char) : Bool := c = ')' || c = ']' || c = '\x7d'

/-- What is open after a character; nothing is when the character closes another bracket than the last one. -/
def step (opened : List Char) (c : Char) : Option (List Char) :=
  match closingOf? c with
  | some closing => some (closing :: opened)
  | none => if isClosing c then if opened.head? = some c then some opened.tail else none else some opened

/-- What is open after a text. -/
def read (opened : List Char) : List Char → Option (List Char)
  | [] => some opened
  | c :: cs => (step opened c).bind fun next => read next cs

/-- The depth of a line that begins with a character. -/
def level (opened : List Char) (first : Char) : Nat := if isClosing first then opened.length - 1 else opened.length

/-- The line is empty, or stands as deep as it is nested. -/
def Stands (opened : List Char) (line : List Char) : Prop :=
  line = [] ∨ ∃ first rest, first.isWhitespace = false ∧
    line = List.replicate (2 * level opened first) ' ' ++ first :: rest

/-- The brackets of the text are balanced, and each line stands as deep as it is nested. -/
structure Nested (text : String) : Prop where
  balanced : read [] text.toList = some []
  stands : ∀ before line after, text.toList.splitOn '\n' = before ++ line :: after →
    ∃ opened, read [] before.flatten = some opened ∧ Stands opened line

/-! ## Reading -/

theorem read_append (opened xs ys : List Char) :
    read opened (xs ++ ys) = (read opened xs).bind fun next => read next ys := by
  induction xs generalizing opened with
  | nil => rfl
  | cons c cs ih =>
    rw [List.cons_append, read, read]
    cases step opened c with
    | none => rfl
    | some next => exact ih next

/-- Neither a bracket nor white space. -/
def isPlain (c : Char) : Bool := (closingOf? c).isNone && !isClosing c && !c.isWhitespace

theorem step_of_not_bracket {opened : List Char} {c : Char} (h : closingOf? c = none) (h' : isClosing c = false) :
    step opened c = some opened := by
  simp [step, h, h']

theorem read_of_not_brackets {opened : List Char} : ∀ {cs : List Char},
    (∀ c ∈ cs, closingOf? c = none ∧ isClosing c = false) → read opened cs = some opened
  | [], _ => rfl
  | c :: cs, h => by
    obtain ⟨hc, hcs⟩ := List.forall_mem_cons.mp h
    rw [read, step_of_not_bracket hc.1 hc.2]
    exact read_of_not_brackets hcs

theorem step_inside {opened opened' : List Char} {c : Char} (h : step opened c = some opened') (outside : List Char) :
    step (opened ++ outside) c = some (opened' ++ outside) := by
  unfold step at h ⊢
  cases hc : closingOf? c with
  | some closing =>
    rw [hc] at h
    cases h
    rfl
  | none =>
    rw [hc] at h
    cases hclosing : isClosing c with
    | false =>
      rw [hclosing] at h
      cases h
      rfl
    | true =>
      rw [hclosing] at h
      -- The bracket that is closed is the first of `opened`, so it stands before the ones outside.
      cases opened with
      | nil => cases h
      | cons next rest =>
        by_cases hnext : next = c
        · simp_all
        · simp [hnext] at h

/-- What a text does to the last brackets it does inside others. -/
theorem read_inside {opened' : List Char} (outside : List Char) : ∀ {cs opened : List Char},
    read opened cs = some opened' → read (opened ++ outside) cs = some (opened' ++ outside)
  | [], opened, h => by
    cases h
    rfl
  | c :: cs, opened, h => by
    rw [read, Option.bind_eq_some_iff] at h
    obtain ⟨next, hstep, hrest⟩ := h
    rw [read, step_inside hstep outside]
    exact read_inside outside hrest

/-! ## Lines in sequence -/

/-- The lines take the open brackets to others, and each stands as deep as it is nested. -/
inductive Nests : List Char → List String → List Char → Prop
  | nil {opened : List Char} : Nests opened [] opened
  | cons {opened next last : List Char} {line : String} {lines : List String} (single : '\n' ∉ line.toList)
      (stands : Stands opened line.toList) (reads : read opened line.toList = some next)
      (rest : Nests next lines last) : Nests opened (line :: lines) last

theorem Nests.append {opened next last : List Char} {xs ys : List String} (hx : Nests opened xs next)
    (hy : Nests next ys last) : Nests opened (xs ++ ys) last := by
  induction hx with
  | nil => exact hy
  | cons single stands reads _ ih => exact .cons single stands reads (ih hy)

theorem Nests.not_mem {opened last : List Char} {lines : List String} (h : Nests opened lines last) :
    ∀ line ∈ lines.map String.toList, '\n' ∉ line := by
  induction h with
  | nil => simp
  | cons single _ _ _ ih => exact List.forall_mem_cons.mpr ⟨single, ih⟩

theorem Nests.read_intercalate {opened last : List Char} {lines : List String} (h : Nests opened lines last) :
    read opened (['\n'].intercalate (lines.map String.toList)) = some last := by
  induction h with
  | nil => rfl
  | @cons _ _ _ line lines _ _ reads rest ih =>
    cases lines with
    | nil =>
      cases rest
      simpa using reads
    | cons next lines =>
      rw [List.map_cons, List.map_cons, List.intercalate_cons_cons, read_append, read_append, reads]
      exact ih

theorem Nests.stands_of_split {opened last : List Char} {lines : List String} (h : Nests opened lines last) :
    ∀ before line after, lines.map String.toList = before ++ line :: after →
      ∃ next, read opened before.flatten = some next ∧ Stands next line := by
  induction h with
  | nil => simp
  | cons _ stands reads _ ih =>
    rintro (_ | ⟨first, before⟩) line after hlines
    · obtain ⟨rfl, -⟩ := List.cons_eq_cons.mp hlines
      exact ⟨_, rfl, stands⟩
    · obtain ⟨rfl, hrest⟩ := List.cons_eq_cons.mp hlines
      rw [List.flatten_cons, read_append, reads]
      exact ih before line after hrest

theorem nested_empty : Nested "" where
  balanced := rfl
  stands before line after hlines := by
    obtain ⟨rfl, hline⟩ : before = [] ∧ line = [] ∧ after = [] := by
      simpa [List.append_eq_cons_iff, eq_comm] using hlines
    exact ⟨[], rfl, .inl hline.1⟩

theorem Nests.nested {lines : List String} (h : Nests [] lines []) : Nested ("\n".intercalate lines) := by
  by_cases hne : lines = []
  · subst hne
    exact nested_empty
  have htext : ("\n".intercalate lines).toList = ['\n'].intercalate (lines.map String.toList) :=
    String.toList_intercalate
  have hsplit := List.splitOn_intercalate '\n' h.not_mem (mt List.map_eq_nil_iff.mp hne)
  refine ⟨?_, fun before line after hlines => ?_⟩
  · rw [htext]
    exact h.read_intercalate
  · rw [htext, hsplit] at hlines
    exact h.stands_of_split before line after hlines

/-! ## Pieces of a line -/

/-- What is open after a piece of a line; a piece has no line feed. -/
def readPiece (opened : List Char) (text : String) : Option (List Char) :=
  if '\n' ∈ text.toList then none else read opened text.toList

/-- The piece takes the brackets `closed` to the brackets `opened` inside any others. -/
structure Phrase (closed opened : List Char) (text : String) : Prop where
  single : '\n' ∉ text.toList
  reads : ∀ outside, read (closed ++ outside) text.toList = some (opened ++ outside)

theorem Phrase.literal {closed opened : List Char} {text : String} (h : readPiece closed text = some opened) :
    Phrase closed opened text := by
  unfold readPiece at h
  split at h
  · cases h
  · exact ⟨‹_›, fun outside => read_inside outside h⟩

theorem phrase_iff {text : String} : Phrase [] [] text ↔ '\n' ∉ text.toList ∧ read [] text.toList = some [] :=
  ⟨fun h => ⟨h.single, h.reads []⟩, fun h => ⟨h.1, fun outside => read_inside outside h.2⟩⟩

theorem Phrase.add {closed between opened : List Char} {a b : String} (ha : Phrase closed between a)
    (hb : Phrase between opened b) : Phrase closed opened (a ++ b) where
  single := by simp [ha.single, hb.single]
  reads outside := by
    rw [String.toList_append, read_append, ha.reads]
    exact hb.reads outside

/-- A balanced piece leaves the brackets as they are. -/
theorem Phrase.inside {text : String} (h : Phrase [] [] text) (opened : List Char) : Phrase opened opened text :=
  ⟨h.single, fun outside => h.reads (opened ++ outside)⟩

theorem Phrase.intercalate {separator : String} (hseparator : Phrase [] [] separator) : ∀ {texts : List String},
    (∀ text ∈ texts, Phrase [] [] text) → Phrase [] [] (separator.intercalate texts)
  | [], _ => .literal rfl
  | [text], h => by
    rw [String.intercalate_singleton]
    exact h text List.mem_cons_self
  | text :: next :: texts, h => by
    obtain ⟨htext, hrest⟩ := List.forall_mem_cons.mp h
    rw [String.intercalate_cons_cons]
    exact (htext.add hseparator).add (intercalate hseparator hrest)

/-- The text has neither brackets nor white space. -/
def Plain (text : String) : Prop := ∀ c ∈ text.toList, isPlain c = true

instance (text : String) : Decidable (Plain text) :=
  decidable_of_iff (text.toList.all isPlain = true) List.all_eq_true

theorem Plain.append {a b : String} (ha : Plain a) (hb : Plain b) : Plain (a ++ b) := by
  intro c hc
  rw [String.toList_append, List.mem_append] at hc
  exact hc.elim (ha c) (hb c)

theorem Plain.phrase {text : String} (h : Plain text) (opened : List Char) : Phrase opened opened text := by
  refine ⟨fun hfeed => absurd (h _ hfeed) (by decide), fun outside => read_of_not_brackets fun c hc => ?_⟩
  have hplain := h c hc
  simp only [isPlain, Bool.and_eq_true, Bool.not_eq_true', Option.isNone_iff_eq_none] at hplain
  exact hplain.1

/-! ## Whole lines -/

/-- Whether a text has a first character that is no white space, and closes a bracket or not as is said. -/
def begins (closing : Bool) (text : String) : Bool :=
  match text.toList with
  | [] => false
  | first :: _ => !first.isWhitespace && isClosing first == closing

theorem begins_iff {closing : Bool} {text : String} : begins closing text = true ↔
    ∃ first rest, text.toList = first :: rest ∧ first.isWhitespace = false ∧ isClosing first = closing := by
  unfold begins
  cases text.toList with
  | nil => simp
  | cons first rest => simp

/-- What is open after a line that may first close the one bracket that is given. -/
def readLine (closed : List Char) (text : String) : Option (List Char) :=
  if closed.length ≤ 1 ∧ begins (!closed.isEmpty) text = true then readPiece closed text else none

/-- The beginning of a line, or the whole of it: it takes the brackets `closed`, which are at most one, to the brackets
`opened`, and closes the one bracket first. -/
structure Sentence (closed opened : List Char) (text : String) : Prop where
  short : closed.length ≤ 1
  begins : begins (!closed.isEmpty) text = true
  phrase : Phrase closed opened text

namespace Sentence

variable {closed between opened : List Char} {a b text : String}

theorem literal (h : readLine closed text = some opened) : Sentence closed opened text := by
  unfold readLine at h
  split at h
  · rename_i hline
    exact ⟨hline.1, hline.2, .literal h⟩
  · cases h

theorem add (ha : Sentence closed between a) (hb : Phrase between opened b) : Sentence closed opened (a ++ b) := by
  obtain ⟨first, rest, htext, hfirst⟩ := begins_iff.mp ha.begins
  refine ⟨ha.short, begins_iff.mpr ⟨first, rest ++ b.toList, ?_, hfirst⟩, ha.phrase.add hb⟩
  rw [String.toList_append, htext, List.cons_append]

/-- A plain text between two literals. -/
theorem around {before after : String} (hbefore : readLine closed before = some between) (h : Plain text)
    (hafter : readPiece between after = some opened) : Sentence closed opened (before ++ text ++ after) :=
  ((literal hbefore).add (h.phrase between)).add (.literal hafter)

/-- A plain text, perhaps an empty one, may stand before what begins a line. -/
theorem after_plain (hb : Sentence [] opened b) (ha : Plain a) : Sentence [] opened (a ++ b) := by
  refine ⟨hb.short, ?_, (ha.phrase []).add hb.phrase⟩
  cases htext : a.toList with
  | nil =>
    obtain rfl : a = "" := String.toList_inj.mp htext
    rw [String.empty_append]
    exact hb.begins
  | cons first rest =>
    have hplain := ha first (htext ▸ List.mem_cons_self)
    simp only [isPlain, Bool.and_eq_true, Bool.not_eq_true'] at hplain
    refine begins_iff.mpr ⟨first, rest ++ b.toList, ?_, hplain.2, hplain.1.2⟩
    rw [String.toList_append, htext, List.cons_append]

/-- The line stands at the depth of the brackets that are open outside of what it closes first. -/
theorem nests (h : Sentence closed opened text) (outside : List Char) :
    Nests (closed ++ outside) [Layout.indent outside.length text] (opened ++ outside) := by
  obtain ⟨first, rest, htext, hfirst, hclosing⟩ := begins_iff.mp h.begins
  have hlevel : level (closed ++ outside) first = outside.length := by
    cases hclosed : closed with
    | nil =>
      rw [hclosed] at hclosing
      exact if_neg (Bool.eq_false_iff.mp hclosing)
    | cons c cs =>
      obtain rfl : cs = [] := by simpa [hclosed] using h.short
      rw [hclosed] at hclosing
      exact if_pos hclosing
  have hline : (Layout.indent outside.length text).toList = List.replicate (2 * outside.length) ' ' ++ text.toList := by
    simp [Layout.indent]
  have hblanks : ∀ c ∈ List.replicate (2 * outside.length) ' ', closingOf? c = none ∧ isClosing c = false := by
    intro c hc
    rw [List.eq_of_mem_replicate hc]
    decide
  refine .cons ?_ (.inr ⟨first, rest, hfirst, ?_⟩) ?_ .nil
  · rw [hline, List.mem_append, List.mem_replicate]
    exact not_or.mpr ⟨fun hfeed => absurd hfeed.2 (by decide), h.phrase.single⟩
  · rw [hline, htext, hlevel]
  · rw [hline, read_append, read_of_not_brackets hblanks]
    exact h.phrase.reads outside

end Sentence

end Brackets

/-! ## Layouts -/

namespace Layout

open Brackets

/-- The layouts leave the open brackets as they are, when they stand at their depth. -/
def Balanced (layouts : List Layout) : Prop := ∀ opened : List Char, Nests opened (linesOf layouts opened.length) opened

theorem Balanced.nil : Balanced [] := fun _ => .nil

theorem Balanced.append {xs ys : List Layout} (hx : Balanced xs) (hy : Balanced ys) : Balanced (xs ++ ys) := by
  intro opened
  rw [linesOf_append]
  exact (hx opened).append (hy opened)

theorem Balanced.cons {x : Layout} {xs : List Layout} (hx : Balanced [x]) (hxs : Balanced xs) : Balanced (x :: xs) :=
  hx.append hxs

theorem Balanced.flatMap {α : Type} {f : α → List Layout} : ∀ {xs : List α}, (∀ x ∈ xs, Balanced (f x)) →
    Balanced (xs.flatMap f)
  | [], _ => .nil
  | x :: xs, h => by
    obtain ⟨hx, hxs⟩ := List.forall_mem_cons.mp h
    rw [List.flatMap_cons]
    exact hx.append (flatMap hxs)

theorem Balanced.blank : Balanced [.blank] := fun _ => .cons (by simp) (.inl rfl) rfl .nil

theorem Balanced.intercalate {separator : List Layout} (hseparator : Balanced separator) :
    ∀ {parts : List (List Layout)}, (∀ part ∈ parts, Balanced part) → Balanced (separator.intercalate parts)
  | [], _ => .nil
  | [part], h => by
    rw [List.intercalate_singleton]
    exact h part List.mem_cons_self
  | part :: next :: parts, h => by
    obtain ⟨hpart, hrest⟩ := List.forall_mem_cons.mp h
    rw [List.intercalate_cons_cons]
    exact (hpart.append hseparator).append (intercalate hseparator hrest)

theorem Balanced.line {text : String} (h : Sentence [] [] text) : Balanced [.line text] := by
  intro opened
  have hne : text.isEmpty = false := by
    obtain ⟨first, rest, htext, -⟩ := begins_iff.mp h.begins
    rw [Bool.eq_false_iff, Ne, String.isEmpty_iff]
    rintro rfl
    cases htext
  rw [linesOf, linesOf, lines, hne, List.append_nil]
  exact h.nests opened

theorem Balanced.map_line {α : Type} {f : α → String} : ∀ {xs : List α}, (∀ x ∈ xs, Sentence [] [] (f x)) →
    Balanced (xs.map fun x => .line (f x))
  | [], _ => .nil
  | x :: xs, h => by
    obtain ⟨hx, hxs⟩ := List.forall_mem_cons.mp h
    exact (line hx).cons (map_line hxs)

/-- The children and the footer of a block whose header has opened a bracket. -/
theorem nests_inside {closing : Char} {opened : List Char} {footer : String} {children : List Layout}
    (hchildren : Balanced children) (hfooter : Sentence [closing] opened footer) (outside : List Char) :
    Nests (closing :: outside) (linesOf children (inner true outside.length) ++ [indent outside.length footer])
      (opened ++ outside) := by
  have hdepth : inner true outside.length = (closing :: outside).length := by simp [inner]
  rw [hdepth]
  exact (hchildren (closing :: outside)).append (hfooter.nests outside)

theorem Balanced.between {closing : Char} {header footer : String} {children : List Layout}
    (hheader : Sentence [] [closing] header) (hchildren : Balanced children) (hfooter : Sentence [closing] [] footer) :
    Balanced [.between header footer children] := by
  intro opened
  have h := (hheader.nests opened).append (nests_inside hchildren hfooter opened)
  simpa [Layout.between, linesOf, lines] using h

theorem Balanced.braced {header : String} {children : List Layout} (hheader : Sentence [] [] header)
    (hchildren : Balanced children) : Balanced [.braced header children] :=
  .between (hheader.add (.literal rfl)) hchildren (.literal rfl)

/-- Two blocks, of which the first leaves a bracket open that the second closes. -/
theorem Balanced.between_block {closing closing' : Char} {header middle footer : String} {xs ys : List Layout}
    (hheader : Sentence [] [closing] header) (hxs : Balanced xs) (hmiddle : Sentence [closing] [closing'] middle)
    (hys : Balanced ys) (hfooter : Sentence [closing'] [] footer) :
    Balanced [.between header middle xs, .block none (some footer) true ys] := by
  intro opened
  have h := ((hheader.nests opened).append (nests_inside hxs hmiddle opened)).append (nests_inside hys hfooter opened)
  simpa [Layout.between, linesOf, lines] using h

/-- A document of balanced layouts is nested. -/
theorem Balanced.nested {layouts : List Layout} (h : Balanced layouts) : Nested (document layouts) := (h []).nested

end Layout

end ModelCompiler
