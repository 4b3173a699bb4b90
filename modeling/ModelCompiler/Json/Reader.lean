import ModelCompiler.Json.Basic
import ModelCompiler.Text.Digit

/-!
# Reading JSON

`Json.read` reads a text from left to right and stops at the first fault. Besides the standard forms the numbers `NaN`,
`Infinity` and `-Infinity` are read, and an integer may have at most 4300 digits. A `Taken` value comes with the rest
of the text, which is shorter, so that reading ends.
-/

namespace ModelCompiler.Json

/-- What is wrong with a text that is not JSON. -/
inductive Malformed where
  | byteOrderMark
  | expectingValue
  | extraData
  | expectingName
  | expectingColon
  | expectingComma
  | controlCharacter
  | unterminatedString
  | unknownEscape
  | badCodeEscape
  deriving DecidableEq

def Malformed.message : Malformed → String
  | .byteOrderMark => "Unexpected UTF-8 BOM (decode using utf-8-sig)"
  | .expectingValue => "Expecting value"
  | .extraData => "Extra data"
  | .expectingName => "Expecting property name enclosed in double quotes"
  | .expectingColon => "Expecting ':' delimiter"
  | .expectingComma => "Expecting ',' delimiter"
  | .controlCharacter => "Invalid control character at"
  | .unterminatedString => "Unterminated string starting at"
  | .unknownEscape => "Invalid \\escape"
  | .badCodeEscape => "Invalid \\uXXXX escape"

inductive ReadError where
  | malformed (fault : Malformed)
  /-- An integer with more digits than are read. -/
  | longInteger (digits : Nat)
  deriving DecidableEq

/-- The digits of the longest integer that is read. -/
def maxIntegerDigits : Nat := 4300

/-- A value taken off the front of `s`. -/
structure Taken (α : Type) (s : List Char) where
  value : α
  rest : List Char
  shorter : rest.length < s.length

namespace Taken

variable {α β : Type} {s t : List Char}

/-- What is taken off a text is taken off a longer one. -/
def extend (x : Taken α s) (h : s.length ≤ t.length) : Taken α t :=
  ⟨x.value, x.rest, Nat.lt_of_lt_of_le x.shorter h⟩

def map (f : α → β) (x : Taken α s) : Taken β s := ⟨f x.value, x.rest, x.shorter⟩

end Taken

/-! ## Blanks -/

def isBlank (c : Char) : Bool := c = ' ' || c = '\t' || c = '\n' || c = '\r'

def skipBlanks (s : List Char) : List Char := s.dropWhile isBlank

theorem length_skipBlanks_le (s : List Char) : (skipBlanks s).length ≤ s.length :=
  (List.dropWhile_sublist _).length_le

theorem length_lt_of_skipBlanks {s r : List Char} {c : Char} (h : skipBlanks s = c :: r) : r.length < s.length := by
  have := length_skipBlanks_le s
  rw [h, List.length_cons] at this
  omega

/-! ## Strings -/

/-- The number that four hexadecimal digits write. -/
def codeUnit? (a b c d : Char) : Option Nat :=
  return (((← Text.hexValue? a) * 16 + (← Text.hexValue? b)) * 16 + (← Text.hexValue? c)) * 16 + (← Text.hexValue? d)

def isHighSurrogate (n : Nat) : Bool := 0xD800 ≤ n && n < 0xDC00

def isLowSurrogate (n : Nat) : Bool := 0xDC00 ≤ n && n < 0xE000

def isSurrogate (n : Nat) : Bool := isHighSurrogate n || isLowSurrogate n

/-- The character of a code point. A surrogate has none, and a text cannot hold it: the replacement character stands in
its place. -/
def charOfPoint (n : Nat) : Char := if isSurrogate n then '\uFFFD' else Char.ofNat n

/-- The code point after a backslash and `u`, and how many characters write it. A high surrogate takes the escape after
it when that is a low one; without its partner a surrogate is a code point itself. The text must go on after the
digits. -/
def codeEscape (s : List Char) : Except Malformed (Nat × Nat) :=
  match s with
  | a :: b :: c :: d :: next :: s' =>
    match codeUnit? a b c d with
    | none => .error .badCodeEscape
    | some high =>
      match next, s', isHighSurrogate high with
      | '\\', 'u' :: a' :: b' :: c' :: d' :: _ :: _, true =>
        match codeUnit? a' b' c' d' with
        | none => .error .badCodeEscape
        | some low =>
          if isLowSurrogate low then .ok (0x10000 + (high - 0xD800) * 0x400 + (low - 0xDC00), 10)
          else .ok (high, 4)
      | _, _, _ => .ok (high, 4)
  | _ => .error .badCodeEscape

/-- The character that an escape writes and how many characters after the backslash write it. -/
def escape : List Char → Except Malformed (Char × Nat)
  | [] => .error .unterminatedString
  | '"' :: _ => .ok ('"', 1)
  | '\\' :: _ => .ok ('\\', 1)
  | '/' :: _ => .ok ('/', 1)
  | 'b' :: _ => .ok ('\x08', 1)
  | 'f' :: _ => .ok ('\x0C', 1)
  | 'n' :: _ => .ok ('\n', 1)
  | 'r' :: _ => .ok ('\r', 1)
  | 't' :: _ => .ok ('\t', 1)
  | 'u' :: s => (codeEscape s).map fun (point, n) => (charOfPoint point, n + 1)
  | _ => .error .unknownEscape

/-- The string after an opening quote, `done` being its characters so far, the last one first. -/
def stringFrom (done : List Char) (s : List Char) : Except Malformed (Taken String s) :=
  match s with
  | [] => .error .unterminatedString
  | '"' :: r => .ok ⟨String.ofList done.reverse, r, by simp⟩
  | '\\' :: r => do
    let (c, n) ← escape r
    return (← stringFrom (c :: done) (r.drop n)).extend (by simp; omega)
  | c :: r =>
    if c < ' ' then .error .controlCharacter
    else return (← stringFrom (c :: done) r).extend (by simp)
termination_by s.length

/-! ## Numbers -/

/-- The number that decimal digits write. -/
def natOfDigits (digits : List Char) : Nat := digits.foldl (fun n c => n * 10 + (c.toNat - '0'.toNat)) 0

/-- The digits at the front. -/
def takeDigits (s : List Char) : List Char × List Char := (s.takeWhile Char.isDigit, s.dropWhile Char.isDigit)

theorem length_takeDigits (s : List Char) : (takeDigits s).2.length ≤ s.length :=
  (List.dropWhile_sublist _).length_le

/-- The whole part of a number: a single zero, or digits of which the first is not zero. -/
def wholePart? (s : List Char) : Option (Taken (List Char) s) :=
  match s with
  | '0' :: r => some ⟨['0'], r, by simp⟩
  | c :: r =>
    if c.isDigit then some ⟨c :: (takeDigits r).1, (takeDigits r).2, Nat.lt_succ_of_le (length_takeDigits r)⟩ else none
  | [] => none

/-- The digits of a fraction, if a point and a digit come next. -/
def fractionPart (s : List Char) : List Char × { r : List Char // r.length ≤ s.length } :=
  match s with
  | '.' :: r =>
    match takeDigits r, length_takeDigits r with
    | ([], _), _ => ([], ⟨'.' :: r, Nat.le_refl _⟩)
    | (digits, r'), h => (digits, ⟨r', Nat.le_succ_of_le h⟩)
  | s => ([], ⟨s, Nat.le_refl _⟩)

/-- Whether a minus comes next, and what follows the sign if there is one. -/
def exponentSign (s : List Char) : Bool × { r : List Char // r.length ≤ s.length } :=
  match s with
  | '-' :: r => (true, ⟨r, Nat.le_succ _⟩)
  | '+' :: r => (false, ⟨r, Nat.le_succ _⟩)
  | s => (false, ⟨s, Nat.le_refl _⟩)

/-- The exponent, if an `e`, perhaps a sign, and a digit come next. -/
def exponentPart (s : List Char) : Option Int × { r : List Char // r.length ≤ s.length } :=
  match s with
  | c :: r =>
    if c = 'e' ∨ c = 'E' then
      let (negative, signed) := exponentSign r
      match takeDigits signed, length_takeDigits signed with
      | ([], _), _ => (none, ⟨c :: r, Nat.le_refl _⟩)
      | (digits, t), h =>
        let n : Int := natOfDigits digits
        (some (if negative then -n else n), ⟨t, Nat.le_succ_of_le (Nat.le_trans h signed.2)⟩)
    else (none, ⟨c :: r, Nat.le_refl _⟩)
  | [] => (none, ⟨[], Nat.le_refl _⟩)

/-- The number at the front, without its sign. -/
def unsignedNumber (negative : Bool) (s : List Char) : Except ReadError (Taken Json s) := do
  match wholePart? s with
  | none => .error (.malformed .expectingValue)
  | some whole =>
    let (fraction, afterFraction) := fractionPart whole.rest
    let (exponent, rest) := exponentPart afterFraction
    let shorter := Nat.lt_of_le_of_lt (Nat.le_trans rest.2 afterFraction.2) whole.shorter
    if fraction.isEmpty && exponent.isNone then
      if maxIntegerDigits < whole.value.length then .error (.longInteger whole.value.length)
      else
        let n : Int := natOfDigits whole.value
        return ⟨.int (if negative then -n else n), rest, shorter⟩
    else
      let digits := natOfDigits (whole.value ++ fraction)
      return ⟨.real (.nearest negative digits (exponent.getD 0 - fraction.length)), rest, shorter⟩

/-- The number or word at the front. -/
def scalar (s : List Char) : Except ReadError (Taken Json s) :=
  match s with
  | 'n' :: 'u' :: 'l' :: 'l' :: r => .ok ⟨.null, r, by simp; omega⟩
  | 't' :: 'r' :: 'u' :: 'e' :: r => .ok ⟨.bool true, r, by simp; omega⟩
  | 'f' :: 'a' :: 'l' :: 's' :: 'e' :: r => .ok ⟨.bool false, r, by simp; omega⟩
  | 'N' :: 'a' :: 'N' :: r => .ok ⟨.real .notANumber, r, by simp; omega⟩
  | 'I' :: 'n' :: 'f' :: 'i' :: 'n' :: 'i' :: 't' :: 'y' :: r => .ok ⟨.real (.infinity false), r, by simp; omega⟩
  | '-' :: 'I' :: 'n' :: 'f' :: 'i' :: 'n' :: 'i' :: 't' :: 'y' :: r =>
    .ok ⟨.real (.infinity true), r, by simp; omega⟩
  | '-' :: r => return (← unsignedNumber true r).extend (Nat.le_succ _)
  | s => unsignedNumber false s

/-! ## Values -/

mutual

/-- The value at the front. -/
def value (s : List Char) : Except ReadError (Taken Json s) :=
  match s with
  | '"' :: r =>
    match stringFrom [] r with
    | .error fault => .error (.malformed fault)
    | .ok t => .ok ((t.map .text).extend (Nat.le_succ _))
  | '[' :: r =>
    match h : skipBlanks r with
    | ']' :: r' => .ok ⟨.array [], r', Nat.lt_succ_of_lt (length_lt_of_skipBlanks h)⟩
    | _ => return ((← elements [] r).map .array).extend (Nat.le_succ _)
  | '{' :: r =>
    match h : skipBlanks r with
    | '}' :: r' => .ok ⟨.object [], r', Nat.lt_succ_of_lt (length_lt_of_skipBlanks h)⟩
    | _ => return ((← objectMembers [] r).map .object).extend (Nat.le_succ _)
  | s => scalar s
termination_by 2 * s.length

/-- The rest of an array from an element on, `done` being the elements so far, the last one first. -/
def elements (done : List Json) (s : List Char) : Except ReadError (Taken (List Json) s) := do
  have hs := length_skipBlanks_le s
  let item ← value (skipBlanks s)
  have hi := item.shorter
  match h : skipBlanks item.rest with
  | ']' :: r => return ⟨(item.value :: done).reverse, r, by have := length_lt_of_skipBlanks h; omega⟩
  | ',' :: r =>
    have hr := length_lt_of_skipBlanks h
    return (← elements (item.value :: done) r).extend (by omega)
  | _ => .error (.malformed .expectingComma)
termination_by 2 * s.length + 1

/-- The rest of an object from a member on, `done` being the members so far, the last one first. -/
def objectMembers (done : List (String × Json)) (s : List Char) :
    Except ReadError (Taken (List (String × Json)) s) := do
  match hq : skipBlanks s with
  | '"' :: q =>
    have hq := length_lt_of_skipBlanks hq
    let name ← (stringFrom [] q).mapError .malformed
    have hn := name.shorter
    match hc : skipBlanks name.rest with
    | ':' :: c =>
      have hc := length_lt_of_skipBlanks hc
      have hb := length_skipBlanks_le c
      let item ← value (skipBlanks c)
      have hi := item.shorter
      let done := (name.value, item.value) :: done
      match h : skipBlanks item.rest with
      | '}' :: r => return ⟨done.reverse, r, by have := length_lt_of_skipBlanks h; omega⟩
      | ',' :: r =>
        have hr := length_lt_of_skipBlanks h
        return (← objectMembers done r).extend (by omega)
      | _ => .error (.malformed .expectingComma)
    | _ => .error (.malformed .expectingColon)
  | _ => .error (.malformed .expectingName)
termination_by 2 * s.length + 1

end

/-- The value that a text writes. -/
def read (text : String) : Except ReadError Json := do
  let s := text.toList
  if s.head? = some '\uFEFF' then .error (.malformed .byteOrderMark)
  else
    let v ← value (skipBlanks s)
    if (skipBlanks v.rest).isEmpty then return v.value else .error (.malformed .extraData)

end ModelCompiler.Json
