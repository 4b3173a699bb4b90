import ModelCompiler.Keyed
import ModelCompiler.Number.Binary64

/-!
# JSON values

Integers are unbounded and apart from the other numbers. An object lists its members as they were written; where a
name is repeated, `members` keeps the first place and the last value.
-/

namespace ModelCompiler

inductive Json where
  | null
  | bool (b : Bool)
  | int (n : Int)
  | real (x : Binary64)
  | text (s : String)
  | array (items : List Json)
  | object (written : List (String × Json))
  deriving Inhabited

namespace Json

/-- The members of an object by name. -/
abbrev Members := Keyed (Prod.fst : String × Json → String)

/-- The members of an object; nothing else has members. -/
def members? : Json → Option Members
  | .object written => some (Keyed.ofList written)
  | _ => none

/-- The value of a member. -/
def Members.value? (m : Members) (name : String) : Option Json := (m.get? name).map Prod.snd

end Json

end ModelCompiler
