import ModelCompiler.Value.Basic

/-!
# Built-in types

A built-in type pairs a test on values with the source of the type guard that generated validators call. Boxed
primitives, big integers and symbols have no JSON form, so no value passes their tests.
-/

namespace ModelCompiler

structure BuiltIn where
  name : String
  accepts : Value → Bool
  /-- The source of a function, called in generated code as `(guard)(value)`. -/
  guard : String

namespace BuiltIn

/-- A type guard for the type `type` whose body is `body`. -/
def guardSource (type body : String) : String := "(input: unknown): input is " ++ type ++ " => " ++ body

/-- A type that no JSON value has. -/
def unmatched (name guard : String) : BuiltIn := ⟨name, fun _ => false, guard⟩

def instanceGuard (name type : String) : String := guardSource type ("input instanceof " ++ name)

def typeofGuard (type : String) : String := guardSource type ("typeof input === '" ++ type ++ "'")

def acceptsString : Value → Bool
  | .text _ => true
  | _ => false

def acceptsNumber : Value → Bool
  | .int _ | .real _ => true
  | _ => false

def acceptsBoolean : Value → Bool
  | .bool _ => true
  | _ => false

def acceptsNull : Value → Bool
  | .null => true
  | _ => false

def acceptsUndefined : Value → Bool
  | .missing => true
  | _ => false

/-- A moment of a day is a date too. -/
def acceptsDate : Value → Bool
  | .date _ | .dateTime _ => true
  | _ => false

def acceptsSet : Value → Bool
  | .set .. => true
  | _ => false

def acceptsArray : Value → Bool
  | .list _ | .tuple _ => true
  | _ => false

/-- A record is not a plain object. -/
def acceptsObject : Value → Bool
  | .object _ => true
  | _ => false

/-- The name of the type of plain objects. -/
def objectName : String := "Object"

def scalars : List BuiltIn :=
  [⟨"string", acceptsString, typeofGuard "string"⟩,
   unmatched "String" (instanceGuard "String" "String"),
   ⟨"number", acceptsNumber, typeofGuard "number"⟩,
   unmatched "Number" (instanceGuard "Number" "Number"),
   ⟨"boolean", acceptsBoolean, typeofGuard "boolean"⟩,
   unmatched "Boolean" (instanceGuard "Boolean" "Boolean"),
   unmatched "BigInt" (typeofGuard "bigint"),
   unmatched "Symbol" (typeofGuard "symbol"),
   ⟨"null", acceptsNull, guardSource "null" "input === null"⟩,
   ⟨"undefined", acceptsUndefined, guardSource "undefined" "input === undefined"⟩]

def objects : List BuiltIn :=
  [⟨"Date", acceptsDate, instanceGuard "Date" "Date"⟩,
   ⟨"Set", acceptsSet, instanceGuard "Set" "Set<unknown>"⟩,
   ⟨"Array", acceptsArray, guardSource "Array<unknown>" "Array.isArray(input)"⟩,
   ⟨objectName, acceptsObject,
    guardSource "Record<string, unknown>" "!!input && typeof input === 'object' && !Array.isArray(input)"⟩]

end BuiltIn

end ModelCompiler
