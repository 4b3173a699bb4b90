import ModelCompiler.Calendar
import ModelCompiler.Model
import ModelCompiler.Number.Binary64

/-!
# Values

The values that records hold and validators look at. `missing` stands for what an absent member of an object has. A
record value keeps its model and the values of its fields in order of declaration; `plain` turns it into an object.
-/

namespace ModelCompiler

inductive Value where
  | missing
  | null
  | bool (b : Bool)
  | int (n : Int)
  | real (x : Binary64)
  | text (s : String)
  | list (items : List Value)
  | tuple (items : List Value)
  | set (frozen : Bool) (elements : List Value)
  | date (d : Date)
  | dateTime (t : DateTime)
  | object (members : List (String × Value))
  | record (model : Model) (fields : List (String × Value))
  deriving Inhabited

namespace Value

/-- The value of a member, `missing` where there is none. -/
def member (v : Value) (name : String) : Value :=
  match v with
  | .object members => (members.lookup name).getD .missing
  | _ => .missing

/-! ## Serialisation -/

mutual

/-- A record becomes the object of its fields; other values stay as they are. -/
def plain : Value → Value
  | .record _ fields => .object (serialised fields)
  | v => v

/-- The members that serialised fields make: those with a value, nested records made plain. -/
def serialised : List (String × Value) → List (String × Value)
  | [] => []
  | (_, .missing) :: fields => serialised fields
  | (name, v) :: fields => (name, plain v) :: serialised fields

end

end Value

end ModelCompiler
