import ModelCompiler.Number.Shortest
import ModelCompiler.Text.Quoted
import ModelCompiler.Value.Basic

/-!
# Values as text

The text of a value in messages: texts are quoted, containers stand between their brackets with their parts separated
by commas, and a record is its model's name with the values of its fields.
-/

namespace ModelCompiler

/-- A call with a date's parts as its arguments. -/
def Date.call (d : Date) : String :=
  "datetime.date(" ++ ", ".intercalate ([d.year, d.month, d.day].map toString) ++ ")"

/-- The parts of a moment, without the seconds when they and the microseconds are zero, and without the microseconds
when only they are. -/
def DateTime.call (t : DateTime) : String :=
  let least := [t.date.year, t.date.month, t.date.day, t.hour, t.minute]
  let rest := if t.microsecond ≠ 0 then [t.second, t.microsecond] else if t.second ≠ 0 then [t.second] else []
  "datetime.datetime(" ++ ", ".intercalate ((least ++ rest).map toString) ++ ")"

namespace Value

/-- The literal of a tuple with these parts; a single part has a comma after it. -/
def tupleText : List String → String
  | [part] => "(" ++ part ++ ",)"
  | parts => "(" ++ ", ".intercalate parts ++ ")"

/-- The literal of a set with these elements. -/
def setText (frozen : Bool) (elements : List String) : String :=
  let braced := "\x7b" ++ ", ".intercalate elements ++ "\x7d"
  match frozen, elements with
  | false, [] => "set()"
  | true, [] => "frozenset()"
  | false, _ => braced
  | true, _ => "frozenset(" ++ braced ++ ")"

mutual

def literal : Value → String
  | .missing => "MISSING"
  | .null => "None"
  | .bool b => if b then "True" else "False"
  | .int n => toString n
  | .real x => x.text
  | .text s => Text.quoted s
  | .list items => "[" ++ ", ".intercalate (literals items) ++ "]"
  | .tuple items => tupleText (literals items)
  | .set frozen elements => setText frozen (literals elements)
  | .date d => d.call
  | .dateTime t => t.call
  | .object members => "\x7b" ++ ", ".intercalate (memberLiterals members) ++ "\x7d"
  | .record m fields => m.name ++ "(" ++ ", ".intercalate (fieldLiterals fields) ++ ")"

def literals : List Value → List String
  | [] => []
  | v :: vs => literal v :: literals vs

def memberLiterals : List (String × Value) → List String
  | [] => []
  | (name, v) :: members => (Text.quoted name ++ ": " ++ literal v) :: memberLiterals members

def fieldLiterals : List (String × Value) → List String
  | [] => []
  | (name, v) :: fields => (name ++ "=" ++ literal v) :: fieldLiterals fields

end

end Value

end ModelCompiler
