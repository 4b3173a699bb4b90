import ModelCompiler.Emission.Validator

/-!
# Conformance

Which fields of a value do not conform to a model. A value conforms when the object type accepts it and each field's
value is accepted by an alternative of the field's union; an alternative that is a model asks the same of the field's
value. Names are resolved only when they are reached.

`judgement` goes down the value: the judgement of an object holds the judgements of its members, and a judgement says
of every model which fields fail.
-/

namespace ModelCompiler

namespace Value

/-- The word for the kind of a value in messages. -/
def kind : Value → String
  | .missing => "_Missing"
  | .null => "NoneType"
  | .bool _ => "bool"
  | .int _ => "int"
  | .real _ => "float"
  | .text _ => "str"
  | .list _ => "list"
  | .tuple _ => "tuple"
  | .set frozen _ => if frozen then "frozenset" else "set"
  | .date _ => "datetime.date"
  | .dateTime _ => "datetime.datetime"
  | .object _ => "dict"
  | .record .. => "Record"

end Value

/-- The fields of a value that fail, for every model. -/
abbrev Judgement := Model → Except Fault (List String)

namespace Scope

/-- Whether an alternative of a field's union accepts the field's value. -/
def alternative (s : Scope) (owner : Model) (field : String) (value : Value) (judge : Judgement) (type : String) :
    Except Fault Bool :=
  match s.model? type with
  | some m => (judge m).map List.isEmpty
  | none =>
    match s.builtIns.get? type with
    | some b => .ok (b.accepts value)
    | none => .error (.problem (.unknownType type owner.name field))

/-- Whether some alternative accepts; none after it is looked at. -/
def anyAlternative (accepts : String → Except Fault Bool) : List String → Except Fault Bool
  | [] => .ok false
  | type :: types => do
    if ← accepts type then return true else anyAlternative accepts types

/-- The names of the fields that no alternative accepts. -/
def failing (accepts : Field → Except Fault Bool) : List Field → Except Fault (List String)
  | [] => .ok []
  | f :: fields => do
    let ok ← accepts f
    let rest ← failing accepts fields
    return if ok then rest else f.name :: rest

/-- The failures of a value once the object type has accepted it, or the failure of the value itself. -/
def guarded (s : Scope) (value : Value) (failures : Except Fault (List String)) : Except Fault (List String) :=
  match s.builtIns.genericObject? with
  | none => .error .noObjectTest
  | some b => if b.accepts value then failures else .ok [rootFailure]

/-- The judgement of a value that has no members. -/
def judgeOther (s : Scope) (value : Value) : Judgement := fun m =>
  s.guarded value (if m.fields.items.isEmpty then .ok [] else .error (.noFields value.kind))

/-- The judgement of an object whose members have the given values and judgements. -/
def judgeObject (s : Scope) (value : Value) (member : String → Value × Judgement) : Judgement := fun m =>
  s.guarded value (failing (fun f =>
    anyAlternative (s.alternative m f.name (member f.name).1 (member f.name).2) f.types) m.fields.items)

mutual

def judgement (s : Scope) : Value → Judgement
  | .object members => s.judgeObject (.object members) (memberJudgement s members)
  | v => s.judgeOther v

/-- The value and the judgement of a member; an absent one is missing. -/
def memberJudgement (s : Scope) : List (String × Value) → String → Value × Judgement
  | [], _ => (.missing, s.judgeOther .missing)
  | (name, v) :: members, wanted =>
    if name = wanted then (v, judgement s v) else memberJudgement s members wanted

end

/-- The names of the fields of a value that do not conform to a model, or the root alone. -/
def failures (s : Scope) (m : Model) (value : Value) : Except Fault (List String) := s.judgement value m

/-- Whether one alternative of a union accepts a value. -/
def accepts (s : Scope) (owner : Model) (field type : String) (value : Value) : Except Fault Bool :=
  s.alternative owner field value (s.judgement value) type

def conforms (s : Scope) (m : Model) (value : Value) : Except Fault Bool := (s.failures m value).map List.isEmpty

/-! ## Equations -/

/-- A member is judged as its value is. -/
theorem memberJudgement_eq (s : Scope) (members : List (String × Value)) (name : String) :
    memberJudgement s members name =
      ((Value.object members).member name, judgement s ((Value.object members).member name)) := by
  induction members with
  | nil => rw [memberJudgement]; simp [Value.member, judgement]
  | cons e es ih =>
    obtain ⟨k, v⟩ := e
    rw [memberJudgement]
    by_cases h : k = name
    · simp [h, Value.member]
    · have h' : (name == k) = false := by simpa using Ne.symm h
      simpa [h, h', Value.member, List.lookup_cons] using ih

/-- The failures of an object are those of its members. -/
theorem failures_object (s : Scope) (m : Model) (members : List (String × Value)) :
    s.failures m (.object members) = s.guarded (.object members) (failing (fun f =>
      anyAlternative (fun type => s.accepts m f.name type ((Value.object members).member f.name)) f.types)
      m.fields.items) := by
  simp only [failures, judgement, judgeObject, memberJudgement_eq]
  rfl

/-- A model is judged before a built-in type of its name. -/
theorem accepts_model {s : Scope} {type : String} {m : Model} (h : s.model? type = some m) (owner : Model)
    (field : String) (value : Value) : s.accepts owner field type value = s.conforms m value := by
  simp [accepts, alternative, h, conforms, failures]

end Scope

end ModelCompiler
