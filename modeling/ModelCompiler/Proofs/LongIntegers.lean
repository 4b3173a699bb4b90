import Mathlib.Data.List.TakeWhile
import ModelCompiler.Loading
import ModelCompiler.Proofs.Results

/-!
# Integers that are too long

A text is refused for the length of an integer exactly when reading it comes to one with more digits than are read
(`read_eq_longInteger_iff`). Reading comes to a value when it has read everything before it, so a fault further on in
the text does not matter and one before it does.

* **Numbers** (`BeginsLong`): the digits are taken as far as they go, and what follows makes no other number of them
  (`EndsInteger`). Only such a number is refused for its length (`scalar_eq_longInteger_iff`).
* **Values** (`ValueMeets`): a value comes to such an integer when it is one, or when its elements or members do, in the
  first of them or after it. The proof follows the recursion of the reader, whose only fault of this kind is the one of
  a part (`value_eq_longInteger_iff`).
-/

namespace ModelCompiler.Json

variable {s : List Char} {n : Nat}

/-! ## Numbers -/

/-- No digit is at the front of a text. -/
def NoDigit (s : List Char) : Prop := ∀ d r, s = d :: r → d.isDigit = false

/-- An integer has ended: what comes next is no digit, no fraction and no exponent. -/
structure EndsInteger (s : List Char) : Prop where
  no_digit : NoDigit s
  no_fraction : ∀ r, s = '.' :: r → NoDigit r
  no_exponent : ∀ e sign r, s = e :: (sign ++ r) → e = 'e' ∨ e = 'E' → sign ∈ [[], ['-'], ['+']] → NoDigit r

/-- The `n` digits of an integer, more than are read. -/
structure IsLong (n : Nat) (digits : List Char) : Prop where
  digit : ∀ c ∈ digits, c.isDigit = true
  no_zero : digits.head? ≠ some '0'
  length_eq : digits.length = n
  long : maxIntegerDigits < n

/-- An integer of `n` digits, more than are read, is at the front of a text. -/
def BeginsLong (n : Nat) (s : List Char) : Prop :=
  ∃ sign digits rest, s = sign ++ (digits ++ rest) ∧ (sign = [] ∨ sign = ['-']) ∧ IsLong n digits ∧ EndsInteger rest

theorem noDigit_cons {c : Char} (h : c.isDigit = false) : NoDigit (c :: s) := by
  intro d r hs
  rwa [← (List.cons.inj hs).1]

theorem takeDigits_eq_nil_iff : (takeDigits s).1 = [] ↔ NoDigit s := by
  cases s with
  | nil => simp [takeDigits, NoDigit]
  | cons c s => simp [takeDigits, NoDigit, List.takeWhile_cons]

/-- The digits at the front are those up to the first other character. -/
theorem takeDigits_eq_iff {digits rest : List Char} : takeDigits s = (digits, rest) ↔
    s = digits ++ rest ∧ (∀ c ∈ digits, c.isDigit = true) ∧ NoDigit rest := by
  constructor
  · intro h
    obtain ⟨rfl, rfl⟩ := Prod.mk.inj h
    refine ⟨List.takeWhile_append_dropWhile.symm, fun c hc => List.mem_takeWhile_imp hc, fun d r hr => ?_⟩
    have hhead := List.head?_dropWhile_not Char.isDigit s
    rw [hr] at hhead
    simpa using hhead
  · rintro ⟨rfl, hdigits, hrest⟩
    have hrest' : takeDigits rest = ([], rest) := by
      cases rest with
      | nil => rfl
      | cons c rest => simp [takeDigits, hrest c rest rfl]
    obtain ⟨htake, hdrop⟩ := Prod.mk.inj hrest'
    rw [takeDigits, List.takeWhile_append_of_pos hdigits, List.dropWhile_append_of_pos hdigits, htake, hdrop,
      List.append_nil]

/-- No fraction is read where there is none. -/
theorem fractionPart_eq_nil_iff : (fractionPart s).1 = [] ↔ ∀ r, s = '.' :: r → NoDigit r := by
  unfold fractionPart
  split
  · split
    · rename_i htake _
      simpa using takeDigits_eq_nil_iff.mp (congrArg Prod.fst htake)
    · rename_i digits _ _ hdigits htake _
      refine iff_of_false hdigits fun h => hdigits ?_
      rw [← takeDigits_eq_nil_iff.mpr (h _ rfl), htake]
  · rename_i hpoint
    exact iff_of_true rfl fun r hr => absurd hr (hpoint r)

theorem fractionPart_rest (h : (fractionPart s).1 = []) : (fractionPart s).2.1 = s := by
  unfold fractionPart at h ⊢
  split at h
  · split at h
    · rfl
    · rename_i hdigits _ _
      exact absurd h hdigits
  · rfl

theorem noDigit_exponentSign_iff {t : List Char} : NoDigit (exponentSign t).2.1 ↔
    ∀ sign r, t = sign ++ r → sign ∈ [[], ['-'], ['+']] → NoDigit r := by
  constructor
  · intro h sign r ht hsign
    simp only [List.mem_cons, List.not_mem_nil, or_false] at hsign
    rcases hsign with rfl | rfl | rfl
    · rw [List.nil_append] at ht
      subst ht
      unfold exponentSign at h
      split at h
      · exact noDigit_cons (by decide)
      · exact noDigit_cons (by decide)
      · exact h
    · subst ht
      exact h
    · subst ht
      exact h
  · intro h
    unfold exponentSign
    split
    · exact h ['-'] _ rfl (by simp)
    · exact h ['+'] _ rfl (by simp)
    · exact h [] _ rfl (by simp)

/-- No exponent is read where there is none. -/
theorem exponentPart_eq_none_iff : (exponentPart s).1 = none ↔
    ∀ e sign r, s = e :: (sign ++ r) → e = 'e' ∨ e = 'E' → sign ∈ [[], ['-'], ['+']] → NoDigit r := by
  unfold exponentPart
  split
  · rename_i c t
    split
    · rename_i hmark
      have hsigned : NoDigit (exponentSign t).2.1 ↔ ∀ e sign r, c :: t = e :: (sign ++ r) → e = 'e' ∨ e = 'E' →
          sign ∈ [[], ['-'], ['+']] → NoDigit r := by
        rw [noDigit_exponentSign_iff]
        constructor
        · intro h e sign r ht _ hsign
          exact h sign r (List.cons.inj ht).2 hsign
        · intro h sign r ht hsign
          exact h c sign r (congrArg _ ht) hmark hsign
      rw [← hsigned, ← takeDigits_eq_nil_iff]
      dsimp only
      split
      · rename_i htake _
        rw [htake]
        exact iff_of_true rfl rfl
      · rename_i hdigits htake _
        rw [htake]
        exact iff_of_false (by simp) hdigits
    · rename_i hmark
      refine iff_of_true rfl fun e sign r h he _ => absurd ?_ hmark
      obtain ⟨rfl, -⟩ := List.cons.inj h
      exact he
  · simp

/-- The digits of a whole part that has more than one of them. -/
theorem wholePart?_of_isLong {digits rest : List Char} (h : IsLong n digits) (hrest : NoDigit rest) :
    ∃ w, wholePart? (digits ++ rest) = some w ∧ w.value = digits ∧ w.rest = rest := by
  cases digits with
  | nil =>
    have := h.long
    rw [← h.length_eq] at this
    simp at this
  | cons c digits =>
    obtain ⟨hc, hdigits⟩ := List.forall_mem_cons.mp h.digit
    have hzero : c ≠ '0' := by simpa using h.no_zero
    have htake : takeDigits (digits ++ rest) = (digits, rest) := takeDigits_eq_iff.mpr ⟨rfl, hdigits, hrest⟩
    rw [List.cons_append, wholePart?]
    · rw [if_pos hc]
      exact ⟨_, rfl, congrArg (c :: Prod.fst ·) htake, congrArg Prod.snd htake⟩
    · intro hc0
      exact absurd hc0 hzero

theorem isLong_of_wholePart? {w : Taken (List Char) s} (hw : wholePart? s = some w)
    (hlong : maxIntegerDigits < w.value.length) :
    s = w.value ++ w.rest ∧ IsLong w.value.length w.value ∧ NoDigit w.rest := by
  unfold wholePart? at hw
  split at hw
  · obtain rfl := Option.some.inj hw
    simp [maxIntegerDigits] at hlong
  · rename_i c r hzero
    split at hw
    · rename_i hc
      obtain rfl := Option.some.inj hw
      obtain ⟨hr, hdigits, hrest⟩ := takeDigits_eq_iff.mp (show takeDigits r = (_, _) from rfl)
      refine ⟨congrArg _ hr, ⟨List.forall_mem_cons.mpr ⟨hc, hdigits⟩, ?_, rfl, hlong⟩, hrest⟩
      simpa using hzero
    · cases hw
  · cases hw

/-- A number is refused for its length exactly when it is an integer with that many digits. -/
theorem unsignedNumber_eq_longInteger_iff {negative : Bool} : unsignedNumber negative s = .error (.longInteger n) ↔
    ∃ digits rest, s = digits ++ rest ∧ IsLong n digits ∧ EndsInteger rest := by
  unfold unsignedNumber
  constructor
  · intro h
    split at h
    · cases h
    · rename_i w hw
      dsimp only at h
      split at h
      · rename_i hinteger
        rw [Bool.and_eq_true, List.isEmpty_iff, Option.isNone_iff_eq_none] at hinteger
        obtain ⟨hfraction, hexponent⟩ := hinteger
        split at h
        · rename_i hlong
          obtain rfl := ReadError.longInteger.inj (Except.error.inj h)
          obtain ⟨hs, hdigits, hrest⟩ := isLong_of_wholePart? hw hlong
          rw [fractionPart_rest hfraction] at hexponent
          exact ⟨w.value, w.rest, hs, hdigits, hrest, fractionPart_eq_nil_iff.mp hfraction,
            exponentPart_eq_none_iff.mp hexponent⟩
        · cases h
      · cases h
  · rintro ⟨digits, rest, rfl, hdigits, hrest⟩
    obtain ⟨w, hw, hvalue, hwrest⟩ := wholePart?_of_isLong hdigits hrest.no_digit
    have hfraction : (fractionPart w.rest).1 = [] := by
      rw [hwrest]
      exact fractionPart_eq_nil_iff.mpr hrest.no_fraction
    have hexponent : (exponentPart (fractionPart w.rest).2.1).1 = none := by
      rw [fractionPart_rest hfraction, hwrest]
      exact exponentPart_eq_none_iff.mpr hrest.no_exponent
    simp only [hw, hfraction, hexponent]
    simp [hvalue, hdigits.length_eq, hdigits.long]

/-- An integer has a digit at its front, perhaps after a sign. -/
theorem IsLong.exists_cons {digits : List Char} (h : IsLong n digits) :
    ∃ c r, digits = c :: r ∧ c.isDigit = true := by
  cases digits with
  | nil =>
    have hlong := h.long
    rw [← h.length_eq] at hlong
    simp at hlong
  | cons c r => exact ⟨c, r, rfl, h.digit c List.mem_cons_self⟩

theorem BeginsLong.exists_cons (h : BeginsLong n s) :
    (∃ c r, s = c :: r ∧ c.isDigit = true) ∨ ∃ c r, s = '-' :: c :: r ∧ c.isDigit = true := by
  obtain ⟨sign, digits, rest, rfl, hsign, hdigits, -⟩ := h
  obtain ⟨c, r, rfl, hc⟩ := hdigits.exists_cons
  rcases hsign with rfl | rfl
  · exact .inl ⟨c, r ++ rest, rfl, hc⟩
  · exact .inr ⟨c, r ++ rest, rfl, hc⟩

theorem beginsLong_minus_iff {r : List Char} : BeginsLong n ('-' :: r) ↔
    ∃ digits rest, r = digits ++ rest ∧ IsLong n digits ∧ EndsInteger rest := by
  constructor
  · rintro ⟨sign, digits, rest, h, rfl | rfl, hdigits, hrest⟩
    · obtain ⟨c, t, rfl, hc⟩ := hdigits.exists_cons
      obtain ⟨rfl, -⟩ := List.cons.inj h
      cases hc
    · exact ⟨digits, rest, (List.cons.inj h).2, hdigits, hrest⟩
  · rintro ⟨digits, rest, rfl, hdigits, hrest⟩
    exact ⟨['-'], digits, rest, rfl, .inr rfl, hdigits, hrest⟩

theorem beginsLong_iff_of_no_minus (h : ∀ r, s ≠ '-' :: r) : BeginsLong n s ↔
    ∃ digits rest, s = digits ++ rest ∧ IsLong n digits ∧ EndsInteger rest := by
  constructor
  · rintro ⟨sign, digits, rest, hs, rfl | rfl, hdigits, hrest⟩
    · exact ⟨digits, rest, hs, hdigits, hrest⟩
    · exact absurd hs (h _)
  · rintro ⟨digits, rest, rfl, hdigits, hrest⟩
    exact ⟨[], digits, rest, rfl, .inl rfl, hdigits, hrest⟩

/-- The words are no integers. -/
theorem scalar_eq_longInteger_iff : scalar s = .error (.longInteger n) ↔ BeginsLong n s := by
  have hword : ∀ c r, c.isDigit = false → c ≠ '-' → ¬BeginsLong n (c :: r) := by
    intro c r hc hminus h
    rcases h.exists_cons with ⟨d, t, h, hd⟩ | ⟨d, t, h, -⟩
    · rw [(List.cons.inj h).1, hd] at hc
      cases hc
    · exact hminus (List.cons.inj h).1
  unfold scalar
  split
  case h_7 r hinfinity =>
    rw [beginsLong_minus_iff, Results.bind_pure_eq_error_iff, unsignedNumber_eq_longInteger_iff]
  case h_8 s hn ht hf hnan hi hminf hminus =>
    rw [beginsLong_iff_of_no_minus fun r hr => hminus r hr, unsignedNumber_eq_longInteger_iff]
  case h_6 r =>
    refine iff_of_false (by simp) fun h => ?_
    obtain ⟨digits, rest, hr, hdigits, -⟩ := beginsLong_minus_iff.mp h
    obtain ⟨c, t, rfl, hc⟩ := hdigits.exists_cons
    rw [← (List.cons.inj hr).1] at hc
    cases hc
  all_goals exact iff_of_false (by simp) (hword _ _ (by decide) (by decide))

/-! ## Values -/

mutual

/-- A value that is read from the front of a text comes to an integer of `n` digits, more than are read. -/
inductive ValueMeets (n : Nat) : List Char → Prop
  | number {s : List Char} (h : BeginsLong n s) : ValueMeets n s
  | array {r : List Char} (h : ElementsMeet n r) : ValueMeets n ('[' :: r)
  | object {r : List Char} (h : MembersMeet n r) : ValueMeets n ('\x7b' :: r)

/-- Reading the elements of an array comes to such an integer in the first of them or after it. -/
inductive ElementsMeet (n : Nat) : List Char → Prop
  | first {s : List Char} (h : ValueMeets n (skipBlanks s)) : ElementsMeet n s
  | later {s r : List Char} {item : Taken Json (skipBlanks s)} (hitem : value (skipBlanks s) = .ok item)
      (hcomma : skipBlanks item.rest = ',' :: r) (h : ElementsMeet n r) : ElementsMeet n s

/-- Reading the members of an object comes to such an integer in the value of the first of them or after it. -/
inductive MembersMeet (n : Nat) : List Char → Prop
  | first {s q c : List Char} {name : Taken String q} (hquote : skipBlanks s = '"' :: q)
      (hname : stringFrom [] q = .ok name) (hcolon : skipBlanks name.rest = ':' :: c)
      (h : ValueMeets n (skipBlanks c)) : MembersMeet n s
  | later {s q c r : List Char} {name : Taken String q} {item : Taken Json (skipBlanks c)}
      (hquote : skipBlanks s = '"' :: q) (hname : stringFrom [] q = .ok name)
      (hcolon : skipBlanks name.rest = ':' :: c) (hitem : value (skipBlanks c) = .ok item)
      (hcomma : skipBlanks item.rest = ',' :: r) (h : MembersMeet n r) : MembersMeet n s

end

theorem not_beginsLong {c : Char} {r : List Char} (hdigit : c.isDigit = false) (hminus : c ≠ '-') :
    ¬BeginsLong n (c :: r) := by
  intro h
  rcases h.exists_cons with ⟨d, t, h, hd⟩ | ⟨d, t, h, -⟩
  · rw [(List.cons.inj h).1, hd] at hdigit
    cases hdigit
  · exact hminus (List.cons.inj h).1

theorem valueMeets_array_iff {r : List Char} : ValueMeets n ('[' :: r) ↔ ElementsMeet n r := by
  constructor
  · intro h
    cases h with
    | number h => exact absurd h (not_beginsLong (by decide) (by decide))
    | array h => exact h
  · exact .array

theorem valueMeets_object_iff {r : List Char} : ValueMeets n ('\x7b' :: r) ↔ MembersMeet n r := by
  constructor
  · intro h
    cases h with
    | number h => exact absurd h (not_beginsLong (by decide) (by decide))
    | object h => exact h
  · exact .object

theorem valueMeets_iff_beginsLong (harray : ∀ r, s ≠ '[' :: r) (hobject : ∀ r, s ≠ '\x7b' :: r) :
    ValueMeets n s ↔ BeginsLong n s := by
  constructor
  · intro h
    cases h with
    | number h => exact h
    | array h => exact absurd rfl (harray _)
    | object h => exact absurd rfl (hobject _)
  · exact .number

theorem elementsMeet_iff : ElementsMeet n s ↔ ValueMeets n (skipBlanks s) ∨ ∃ item r,
    value (skipBlanks s) = .ok item ∧ skipBlanks item.rest = ',' :: r ∧ ElementsMeet n r := by
  constructor
  · intro h
    cases h with
    | first h => exact .inl h
    | later hitem hcomma h => exact .inr ⟨_, _, hitem, hcomma, h⟩
  · rintro (h | ⟨item, r, hitem, hcomma, h⟩)
    · exact .first h
    · exact .later hitem hcomma h

theorem membersMeet_iff {q c : List Char} {name : Taken String q} (hquote : skipBlanks s = '"' :: q)
    (hname : stringFrom [] q = .ok name) (hcolon : skipBlanks name.rest = ':' :: c) :
    MembersMeet n s ↔ ValueMeets n (skipBlanks c) ∨ ∃ item r,
      value (skipBlanks c) = .ok item ∧ skipBlanks item.rest = ',' :: r ∧ MembersMeet n r := by
  constructor
  · intro h
    cases h with
    | first hquote' hname' hcolon' h =>
      obtain rfl := (List.cons.inj (hquote.symm.trans hquote')).2
      obtain rfl := Except.ok.inj (hname.symm.trans hname')
      obtain rfl := (List.cons.inj (hcolon.symm.trans hcolon')).2
      exact .inl h
    | later hquote' hname' hcolon' hitem hcomma h =>
      obtain rfl := (List.cons.inj (hquote.symm.trans hquote')).2
      obtain rfl := Except.ok.inj (hname.symm.trans hname')
      obtain rfl := (List.cons.inj (hcolon.symm.trans hcolon')).2
      exact .inr ⟨_, _, hitem, hcomma, h⟩
  · rintro (h | ⟨item, r, hitem, hcomma, h⟩)
    · exact .first hquote hname hcolon h
    · exact .later hquote hname hcolon hitem hcomma h

/-- What has no member at its front has none that comes to a long integer. -/
theorem MembersMeet.exists_name (h : MembersMeet n s) : ∃ q name c, skipBlanks s = '"' :: q ∧
    stringFrom [] q = .ok name ∧ skipBlanks name.rest = ':' :: c := by
  cases h with
  | first hquote hname hcolon _ => exact ⟨_, _, _, hquote, hname, hcolon⟩
  | later hquote hname hcolon _ _ _ => exact ⟨_, _, _, hquote, hname, hcolon⟩

/-- No value starts with a closing bracket. -/
theorem value_closing (r : List Char) : value (']' :: r) = .error (.malformed .expectingValue) := by
  simp [value.eq_def, scalar, unsignedNumber, wholePart?]

theorem not_elementsMeet_of_end {r : List Char} (h : skipBlanks s = ']' :: r) : ¬ElementsMeet n s := by
  rw [elementsMeet_iff, h, valueMeets_iff_beginsLong (by simp) (by simp)]
  rintro (hbegins | ⟨item, t, hitem, -, -⟩)
  · exact not_beginsLong (by decide) (by decide) hbegins
  · rw [value_closing] at hitem
    cases hitem

theorem exists_after_iff {c : Char} {r : List Char} {p : List Char → Prop} (h : s = c :: r) :
    (∃ r', s = c :: r' ∧ p r') ↔ p r := by
  simp [h]

theorem not_exists_after {c : Char} {p : List Char → Prop} (h : ∀ r, s ≠ c :: r) : ¬∃ r', s = c :: r' ∧ p r' := by
  rintro ⟨r, hr, -⟩
  exact h r hr

mutual

theorem value_eq_longInteger_iff (s : List Char) : value s = .error (.longInteger n) ↔ ValueMeets n s := by
  rw [value.eq_def]
  split
  · rename_i r
    rw [valueMeets_iff_beginsLong (by simp) (by simp)]
    refine iff_of_false (fun h => ?_) (not_beginsLong (by decide) (by decide))
    split at h
    · cases h
    · cases h
  · rename_i r
    rw [valueMeets_array_iff]
    split
    · rename_i hend
      exact iff_of_false (by simp) (not_elementsMeet_of_end hend)
    · rw [Results.bind_pure_eq_error_iff, elements_eq_longInteger_iff [] r]
  · rename_i r
    rw [valueMeets_object_iff]
    split
    · rename_i hend
      refine iff_of_false (by simp) fun h => ?_
      obtain ⟨q, _, _, hquote, -⟩ := h.exists_name
      rw [hend] at hquote
      cases hquote
    · rw [Results.bind_pure_eq_error_iff, objectMembers_eq_longInteger_iff [] r]
  · rename_i s hquote harray hobject
    rw [scalar_eq_longInteger_iff, valueMeets_iff_beginsLong (fun r hr => harray r hr) (fun r hr => hobject r hr)]
termination_by 2 * s.length
decreasing_by
  all_goals
    subst_vars
    simp only [List.length_cons]
    omega

theorem elements_eq_longInteger_iff (done : List Json) (s : List Char) :
    elements done s = .error (.longInteger n) ↔ ElementsMeet n s := by
  have hs := length_skipBlanks_le s
  rw [elements.eq_def, Results.bind_eq_error_iff, elementsMeet_iff, value_eq_longInteger_iff (skipBlanks s)]
  refine or_congr_right (exists_congr fun item => ?_)
  simp only [exists_and_left]
  refine and_congr_right fun hitem => ?_
  have hi := item.shorter
  split
  · rename_i hend
    exact iff_of_false nofun (not_exists_after fun r h => by rw [hend] at h; cases h)
  · rename_i r hcomma
    have hr := length_lt_of_skipBlanks hcomma
    rw [exists_after_iff hcomma, Results.bind_pure_eq_error_iff, elements_eq_longInteger_iff (item.value :: done) r]
  · rename_i hcomma
    exact iff_of_false nofun (not_exists_after hcomma)
termination_by 2 * s.length + 1
decreasing_by
  · omega
  · omega

theorem objectMembers_eq_longInteger_iff (done : List (String × Json)) (s : List Char) :
    objectMembers done s = .error (.longInteger n) ↔ MembersMeet n s := by
  rw [objectMembers.eq_def]
  split
  · rename_i q hquote
    have hq := length_lt_of_skipBlanks hquote
    cases hname : stringFrom [] q with
    | error fault =>
      refine iff_of_false (by simp [Except.mapError, bind, Except.bind]) fun h => ?_
      obtain ⟨q', name, _, hquote', hname', -⟩ := h.exists_name
      obtain rfl := (List.cons.inj (hquote.symm.trans hquote')).2
      rw [hname] at hname'
      cases hname'
    | ok name =>
      have hn := name.shorter
      have hbind : ∀ f : Taken String q → Except ReadError (Taken (List (String × Json)) s),
          ((Except.ok name : Except Malformed _).mapError ReadError.malformed >>= f) = f name := fun _ => rfl
      dsimp only
      rw [hbind]
      split
      · rename_i c hcolon
        have hc := length_lt_of_skipBlanks hcolon
        have hb := length_skipBlanks_le c
        rw [membersMeet_iff hquote hname hcolon, Results.bind_eq_error_iff, value_eq_longInteger_iff (skipBlanks c)]
        refine or_congr_right (exists_congr fun item => ?_)
        simp only [exists_and_left]
        refine and_congr_right fun hitem => ?_
        have hi := item.shorter
        split
        · rename_i hend
          exact iff_of_false nofun (not_exists_after fun r h => by rw [hend] at h; cases h)
        · rename_i r hcomma
          have hr := length_lt_of_skipBlanks hcomma
          rw [exists_after_iff hcomma, Results.bind_pure_eq_error_iff,
            objectMembers_eq_longInteger_iff ((name.value, item.value) :: done) r]
        · rename_i hcomma
          exact iff_of_false nofun (not_exists_after hcomma)
      · rename_i hcolon
        refine iff_of_false nofun fun h => ?_
        obtain ⟨q', name', c, hquote', hname', hcolon'⟩ := h.exists_name
        obtain rfl := (List.cons.inj (hquote.symm.trans hquote')).2
        obtain rfl := Except.ok.inj (hname.symm.trans hname')
        exact hcolon c hcolon'
  · rename_i hquote
    refine iff_of_false (by simp) fun h => ?_
    obtain ⟨q, _, _, h, -⟩ := h.exists_name
    exact hquote q h
termination_by 2 * s.length + 1
decreasing_by
  all_goals omega

end

/-- A text is refused for the length of an integer exactly when reading it comes to one that is too long. -/
theorem read_eq_longInteger_iff {text : String} : read text = .error (.longInteger n) ↔
    ValueMeets n (skipBlanks text.toList) := by
  rw [read]
  split
  · rename_i hmark
    obtain ⟨s, hs⟩ := List.head?_eq_some_iff.mp hmark
    have hblank : skipBlanks text.toList = '\uFEFF' :: s := by
      rw [hs]
      rfl
    rw [hblank, valueMeets_iff_beginsLong (by simp) (by simp)]
    exact iff_of_false (by simp) (not_beginsLong (by decide) (by decide))
  · rw [← value_eq_longInteger_iff, Results.bind_eq_error_iff]
    refine or_iff_left ?_
    rintro ⟨v, -, h⟩
    split at h
    · cases h
    · cases h

end ModelCompiler.Json
