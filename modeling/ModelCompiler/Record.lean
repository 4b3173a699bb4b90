import ModelCompiler.Conformance
import ModelCompiler.Value.Equality
import ModelCompiler.Value.Literal

/-!
# Records

A record is a model with a value for each of its fields, `missing` for a field without one. It is built from the
values in order of declaration, or read from an object that conforms to the model.
-/

namespace ModelCompiler

structure Record where
  model : Model
  values : List Value
  length_values : values.length = model.fields.size

namespace Record

/-- The fields with their values. -/
def fields (r : Record) : List (String × Value) := r.model.fields.keys.zip r.values

/-- The record as a value. -/
def toValue (r : Record) : Value := .record r.model r.fields

/-- The record of a model with the given values. -/
def ofValues (m : Model) (values : List Value) : Except Fault Record :=
  if h : values.length = m.fields.size then .ok ⟨m, values, h⟩
  else .error (.wrongArity m.name m.fields.size values.length)

/-- The object that a record serialises to, as the list of its members. -/
def toJson (r : Record) : List (String × Value) := Value.serialised r.fields

/-- Reads a value that conforms to the model. -/
def fromJson (s : Scope) (m : Model) (value : Value) : Except Fault Record := do
  match ← s.failures m value with
  | [] => ofValues m (m.fields.keys.map value.member)
  | failures => .error (.problem (.shape m.name failures))

/-- Equality with any value: that of a record. -/
def equals (r : Record) (other : Value) : Bool := r.toValue.equal other

def literal (r : Record) : String := r.toValue.literal

/-! ## Members -/

/-- What stands behind a name of a record. -/
inductive Member where
  | model (m : Model)
  | method
  | allValues (fields : List (String × Value))
  /-- All that a record holds: its model and the values of its fields. -/
  | everything (m : Model) (fields : List (String × Value))
  | value (v : Value)

/-- The names of what can be called on every record. -/
def methodNames : List String :=
  ["to_json", "from_json", "__class__", "__delattr__", "__dir__", "__eq__", "__format__", "__ge__", "__getattr__",
   "__getattribute__", "__getstate__", "__gt__", "__init__", "__init_subclass__", "__le__", "__lt__", "__ne__",
   "__new__", "__reduce__", "__reduce_ex__", "__repr__", "__setattr__", "__sizeof__", "__str__", "__subclasshook__"]

/-- The members with one value in every record. -/
def constants : List (String × Value) :=
  [("__doc__", .text "An instance of a compiled model holding its field values."), ("__hash__", .null),
   ("__module__", .text "modelgen.generators.data_model_gen.runtime"), ("__weakref__", .null)]

/-- The names of the members that every record has, whatever its model. -/
def commonNames : List String := ["model", "_model", "_values", "__dict__"] ++ methodNames ++ constants.map Prod.fst

/-- The member that every record has under a name. -/
def common? (r : Record) (name : String) : Option Member :=
  if name = "model" ∨ name = "_model" then some (.model r.model)
  else if name = "_values" then some (.allValues r.fields)
  else if name = "__dict__" then some (.everything r.model r.fields)
  else if name ∈ methodNames then some .method
  else (constants.lookup name).map .value

/-- The member of a name. The members that every record has hide the fields of their names. -/
def member (r : Record) (name : String) : Except Fault Member :=
  match r.common? name with
  | some x => .ok x
  | none =>
    match r.fields.lookup name with
    | some v => .ok (.value v)
    | none => .error (.noMember name)

end Record

end ModelCompiler
