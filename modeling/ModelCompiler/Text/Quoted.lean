import ModelCompiler.Text.Digit
import ModelCompiler.Text.Printable

/-!
# Quoted text

Text in messages stands between single quotes, or between double quotes when it holds single quotes and no double
ones. Inside, the quote itself and the backslash are written after a backslash, tab, line feed and carriage return have
their letters, and every other unprintable character is written by its code: two, four or eight hexadecimal digits,
the fewest that hold it.
-/

namespace ModelCompiler.Text

/-- The quote that text is put between. -/
def quoteFor (s : List Char) : Char := if s.contains '\'' && !s.contains '"' then '"' else '\''

/-- One character between the given quotes. -/
def quotedChar (quote c : Char) : List Char :=
  if c = quote || c = '\\' then ['\\', c]
  else if c = '\t' then ['\\', 't']
  else if c = '\n' then ['\\', 'n']
  else if c = '\r' then ['\\', 'r']
  else if isPrintable c then [c]
  else if c.toNat < 0x100 then '\\' :: 'x' :: hexDigits 2 c.toNat
  else if c.toNat < 0x10000 then '\\' :: 'u' :: hexDigits 4 c.toNat
  else '\\' :: 'U' :: hexDigits 8 c.toNat

/-- The text between its quotes. -/
def quoted (s : String) : String :=
  let quote := quoteFor s.toList
  String.ofList (quote :: s.toList.flatMap (quotedChar quote) ++ [quote])

example : quoted "it's" = "\"it's\"" := by decide

example : quoted "a\tb\x00\\" = "'a\\tb\\x00\\\\'" := by decide

/-- A list of texts, each quoted, between square brackets. -/
def quotedList (texts : List String) : String := "[" ++ ", ".intercalate (texts.map quoted) ++ "]"

end ModelCompiler.Text
