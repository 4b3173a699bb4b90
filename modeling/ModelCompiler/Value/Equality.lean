import ModelCompiler.Value.Basic

/-!
# Equality of values

Numbers are equal when they denote the same number, truth values counting as zero and one; sets when they have the same
elements, whether frozen or not; objects when they have the same members in any order; records when their models have
the same name and they serialise to equal objects. Everything else is equal to its own kind only, part by part.

`comparable` first gives every record its serialised fields, so that `eqv` goes down both values at once.
-/

namespace ModelCompiler.Value

/-! ## Numbers -/

/-- The number that a value is. -/
def number? : Value → Option (Int ⊕ Binary64)
  | .bool b => some (.inl b.toInt)
  | .int n => some (.inl n)
  | .real x => some (.inr x)
  | _ => none

def sameNumber : Int ⊕ Binary64 → Int ⊕ Binary64 → Bool
  | .inl m, .inl n => m = n
  | .inl m, .inr y => y.isInt m
  | .inr x, .inl n => x.isInt n
  | .inr x, .inr y => x.same y

/-! ## Records by their serialisation -/

/-- A record's object, its fields being serialised already. -/
def objectOf : Value → Value
  | .record _ fields => .object fields
  | v => v

mutual

/-- The value with the serialised fields in every record. -/
def comparable : Value → Value
  | .list items => .list (comparableItems items)
  | .tuple items => .tuple (comparableItems items)
  | .set frozen elements => .set frozen (comparableItems elements)
  | .object members => .object (comparableMembers members)
  | .record m fields => .record m (comparableFields fields)
  | v => v

def comparableItems : List Value → List Value
  | [] => []
  | v :: vs => comparable v :: comparableItems vs

def comparableMembers : List (String × Value) → List (String × Value)
  | [] => []
  | (name, v) :: members => (name, comparable v) :: comparableMembers members

def comparableFields : List (String × Value) → List (String × Value)
  | [] => []
  | (_, .missing) :: fields => comparableFields fields
  | (name, v) :: fields => (name, objectOf (comparable v)) :: comparableFields fields

end

/-! ## The comparison -/

mutual

/-- Equality of comparable values. -/
def eqv : Value → Value → Bool
  | .missing, .missing => true
  | .null, .null => true
  | .bool b, v => (number? v).any (sameNumber (.inl b.toInt))
  | .int n, v => (number? v).any (sameNumber (.inl n))
  | .real x, v => (number? v).any (sameNumber (.inr x))
  | .text s, .text t => s = t
  | .list xs, .list ys => eqvItems xs ys
  | .tuple xs, .tuple ys => eqvItems xs ys
  | .set _ xs, .set _ ys => xs.length = ys.length && itemsIn xs ys
  | .date d, .date e => d = e
  | .dateTime t, .dateTime u => t = u
  | .object es, .object fs => es.length = fs.length && membersIn es fs
  | .record m es, .record n fs => m.name = n.name && es.length = fs.length && membersIn es fs
  | _, _ => false

/-- Whether two lists are equal place by place. -/
def eqvItems : List Value → List Value → Bool
  | [], [] => true
  | x :: xs, y :: ys => eqv x y && eqvItems xs ys
  | _, _ => false

/-- Whether each value of the first list is equal to one of the second. -/
def itemsIn : List Value → List Value → Bool
  | [], _ => true
  | x :: xs, ys => ys.any (eqv x) && itemsIn xs ys

/-- Whether each member of the first list is equal to one of the second with its name. -/
def membersIn : List (String × Value) → List (String × Value) → Bool
  | [], _ => true
  | (name, v) :: es, fs => fs.any (fun f => name = f.1 && eqv v f.2) && membersIn es fs

end

/-- Whether two values are equal. -/
def equal (v w : Value) : Bool := eqv (comparable v) (comparable w)

/-- The elements of a set: equal values are kept once, and integers in ascending order. -/
def setOf (frozen : Bool) (elements : List Value) : Value :=
  let distinct := elements.foldl (fun kept v => if kept.any (equal · v) then kept else kept ++ [v]) []
  let notAfter : Value → Value → Bool
    | .int m, .int n => m ≤ n
    | _, _ => true
  .set frozen (distinct.mergeSort notAfter)

end ModelCompiler.Value
