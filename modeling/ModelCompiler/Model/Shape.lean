import ModelCompiler.Json.Basic
import ModelCompiler.Model
import ModelCompiler.Problem

/-!
# The shape of a model record

A model is described by an object with a string `name` and an object `memberVariables`, which maps a field's name to
an object with a non-empty array of strings `type` and perhaps a `modifier`. `faults` lists the places of all that is
wrong in a record, member by member; `failures` names the members and the fields that these are in, each once; `parse`
gives the model when nothing is wrong.

The other spellings `member_variables` and `types` are read where the usual ones are absent.
-/

namespace ModelCompiler

namespace Json

/-- A step into a value: to the member of a name or to the item at a position. -/
inductive Step where
  | member (name : String)
  | item (i : Nat)
  deriving DecidableEq

def Step.text : Step → String
  | .member name => name
  | .item i => toString i

/-- The steps to a part of a value. -/
abbrev Place := List Step

/-- The places of the faults in a member with two spellings. That it is absent is a fault at the usual one. -/
def Members.faultsUnder (record : Members) (usual other : String) (faults : Json → List Place) : List Place :=
  match record.value? usual, record.value? other with
  | some j, _ => (faults j).map (.member usual :: ·)
  | none, some j => (faults j).map (.member other :: ·)
  | none, none => [[.member usual]]

end Json

open Json (Members Place)

namespace Field

/-- The strings of a non-empty array of strings. -/
def typesOf? : Json → Option { types : List String // types ≠ [] ∧ types.Nodup }
  | .array (item :: items) => do
    let names ← (item :: items).mapM fun | .text s => some s | _ => none
    let distinct : Keyed (id : String → String) := Keyed.ofList names
    if h : distinct.items ≠ [] then some ⟨distinct.items, h, by simpa using distinct.nodup⟩ else none
  | _ => none

/-- What the modifier of a field says; a null says nothing. -/
def modifierOf? : Option Json → Option (Option Visibility)
  | none | some .null => some none
  | some (.text keyword) => (Visibility.ofKeyword? keyword).map some
  | _ => none

/-- The field with the given name that a record describes. -/
def ofJson? (name : String) (record : Json) : Option Field := do
  let members ← record.members?
  let types ← typesOf? (← members.value? "type" <|> members.value? "types")
  let modifier ← modifierOf? (members.value? "modifier")
  return ⟨name, types, modifier, types.2.1, types.2.2⟩

/-- What keeps a value from being a non-empty array of strings: the items that are no strings, or the value itself. -/
def typesFaults : Json → List Place
  | .array [] => [[]]
  | .array items => items.zipIdx.filterMap fun
    | (.text _, _) => none
    | (_, i) => some [.item i]
  | _ => [[]]

def modifierFaults (record : Members) : List Place :=
  if (modifierOf? (record.value? "modifier")).isSome then [] else [[.member "modifier"]]

/-- What keeps a value from being a record of a field. -/
def faults (j : Json) : List Place :=
  match j.members? with
  | none => [[]]
  | some record => record.faultsUnder "type" "types" typesFaults ++ modifierFaults record

end Field

namespace Fields

/-- The fields that an object describes, unless one is malformed. -/
def ofMembers? (members : Members) : Option Fields :=
  (members.items.mapM fun (name, record) => Field.ofJson? name record).map Keyed.ofList

def ofJson? (j : Json) : Option Fields := j.members?.bind ofMembers?

/-- What keeps a value from being an object whose members are records of fields. -/
def faults (j : Json) : List Place :=
  match j.members? with
  | none => [[]]
  | some members => members.items.flatMap fun (name, field) => (Field.faults field).map (.member name :: ·)

end Fields

namespace Model

/-- The name of a record, if it is a string. -/
def nameOf? (record : Members) : Option String :=
  match record.value? "name" with
  | some (.text name) => some name
  | _ => none

def nameFaults (record : Members) : List Place := if (nameOf? record).isSome then [] else [[.member "name"]]

/-- What keeps an object from being a record of a model. -/
def faults (record : Members) : List Place :=
  nameFaults record ++ record.faultsUnder "memberVariables" "member_variables" Fields.faults

/-- The name of the member that a place is in, with that of the field where the fields are under the usual spelling. -/
def pathOf : Place → String
  | [] => "root"
  | [step] => step.text
  | step :: next :: _ => if step = .member "memberVariables" then "memberVariables." ++ next.text else step.text

/-- What is wrong with a record: the record itself (`root`), its name, then its fields in order, each once. -/
def failures (record : Json) : List String :=
  match record.members? with
  | none => ["root"]
  | some members => ((faults members).map pathOf).eraseDups

def ofJson? (record : Json) : Option Model := do
  let members ← record.members?
  let name ← nameOf? members
  let fields ← Fields.ofJson? (← members.value? "memberVariables" <|> members.value? "member_variables")
  return ⟨name, fields⟩

/-- The model that a record describes. -/
def parse (record : Json) (subject : String) : Except Problem Model :=
  match ofJson? record with
  | some m => .ok m
  | none => .error (.shape subject (failures record))

end Model

end ModelCompiler
