import Embargo.Json.Problem
import Embargo.Text.Digits

/-!
# Lexemes of JSON texts

Scanners take the characters from some point of a text on, and return what they read together with
the characters after it.  The type of the result says that those are fewer, so every loop over a
text ends.

* `skipBlanks` — the four blanks between lexemes;
* `stringBody` — a string, from behind its opening quotation mark, with all its escapes;
* `word` — the rest of `true`, `false` or `null`;
* `number` — a number, as an integer of at most 64 bits or as a binary number.
-/

namespace Embargo.Json

/-- What follows something that was read from the front of `cs`. -/
abbrev Rest (cs : List Char) := { rest : List Char // rest.length < cs.length }

/-- What follows something, possibly empty, that was read from the front of `cs`. -/
abbrev RestOrAll (cs : List Char) := { rest : List Char // rest.length ≤ cs.length }

theorem length_dropWhile_le (p : Char → Bool) :
    ∀ cs : List Char, (cs.dropWhile p).length ≤ cs.length
  | [] => Nat.le_refl _
  | c :: cs => by
    rw [List.dropWhile_cons]
    split
    · exact Nat.le_succ_of_le (length_dropWhile_le p cs)
    · exact Nat.le_refl _

/-- What follows something that was read from behind the first character is fewer characters. -/
theorem length_lt_of_cons {c : Char} {r t cs : List Char} (h : (c :: r).length ≤ cs.length)
    (ht : t.length ≤ r.length) : t.length < cs.length :=
  Nat.lt_of_le_of_lt ht h

theorem length_lt_of_cons_of_lt {c : Char} {r t cs : List Char}
    (h : (c :: r).length ≤ cs.length) (ht : t.length < r.length) : t.length < cs.length :=
  length_lt_of_cons h (Nat.le_of_lt ht)

/-- Space, line feed, carriage return and tab may stand between lexemes. -/
def isBlank (c : Char) : Bool :=
  c = ' ' || c = '\n' || c = '\r' || c = '\t'

/-- The characters from the next lexeme on. -/
def skipBlanks (cs : List Char) : RestOrAll cs :=
  ⟨cs.dropWhile isBlank, length_dropWhile_le _ cs⟩

/-! ### Strings -/

/-- The value of a hexadecimal digit. -/
def hexValue? (c : Char) : Option Nat :=
  if '0' ≤ c ∧ c ≤ '9' then some (c.toNat - 48)
  else if 'a' ≤ c ∧ c ≤ 'f' then some (c.toNat - 87)
  else if 'A' ≤ c ∧ c ≤ 'F' then some (c.toNat - 55)
  else none

/-- The number of four hexadecimal digits. -/
def hexFour? (a b c d : Char) : Option Nat := do
  let a ← hexValue? a
  let b ← hexValue? b
  let c ← hexValue? c
  let d ← hexValue? d
  return ((a * 16 + b) * 16 + c) * 16 + d

/-- The number of bytes of characters in UTF-8. -/
def byteCount : List Char → Nat
  | [] => 0
  | c :: cs => c.utf8Size + byteCount cs

/-- Four hexadecimal digits, which take the next four bytes of the text. -/
def hexUnit (cs : List Char) : Except Problem (Nat × RestOrAll cs) :=
  let failure := if byteCount cs < 4 then Problem.ended .string else .badEscape
  match cs with
  | a :: b :: c :: d :: r =>
      match hexFour? a b c d with
      | some n => .ok (n, ⟨r, by simp only [List.length_cons]; omega⟩)
      | none => .error failure
  | _ => .error failure

/-- Whether a 16-bit unit is the first half of a pair. -/
def isLeading (n : Nat) : Bool := 0xd800 ≤ n && n ≤ 0xdbff

/-- Whether a 16-bit unit is the second half of a pair. -/
def isTrailing (n : Nat) : Bool := 0xdc00 ≤ n && n ≤ 0xdfff

/-- The character of a pair of 16-bit units. -/
def pairChar (leading trailing : Nat) : Char :=
  Char.ofNat ((leading - 0xd800) * 0x400 + (trailing - 0xdc00) + 0x10000)

/-- The character of an escape with digits, from behind its `u`; characters beyond 16 bits are
written as a pair of escapes. -/
def unicodeEscape (cs : List Char) : Except Problem (Char × RestOrAll cs) :=
  match hexUnit cs with
  | .error p => .error p
  | .ok (n, ⟨r, hr⟩) =>
      if isTrailing n then .error .loneSurrogate
      else if isLeading n then
        match r, hr with
        | '\\' :: 'u' :: r, hr =>
            match hexUnit r with
            | .error p => .error p
            | .ok (m, ⟨t, ht⟩) =>
                if isTrailing m then
                  .ok (pairChar n m, ⟨t, by simp only [List.length_cons] at hr; omega⟩)
                else .error .loneSurrogate
        | [], _ => .error (.ended .string)
        | ['\\'], _ => .error (.ended .string)
        | _, _ => .error .brokenPair
      else .ok (Char.ofNat n, ⟨r, hr⟩)

/-- The character that a one-letter escape stands for. -/
def simpleEscape? (c : Char) : Option Char :=
  if c = '"' then some '"'
  else if c = '\\' then some '\\'
  else if c = '/' then some '/'
  else if c = 'b' then some '\x08'
  else if c = 'f' then some '\x0c'
  else if c = 'n' then some '\n'
  else if c = 'r' then some '\r'
  else if c = 't' then some '\t'
  else none

/-- The character of an escape, from behind its backslash. -/
def escape (cs : List Char) : Except Problem (Char × Rest cs) :=
  match cs with
  | [] => .error (.ended .string)
  | c :: r =>
      match simpleEscape? c with
      | some e => .ok (e, ⟨r, by simp⟩)
      | none =>
          if c = 'u' then
            match unicodeEscape r with
            | .error p => .error p
            | .ok (e, ⟨t, ht⟩) => .ok (e, ⟨t, by simp only [List.length_cons]; omega⟩)
          else .error .badEscape

/-- Characters below the space have to be escaped. -/
def isControl (c : Char) : Bool := c.toNat < 0x20

/-- The characters of a string, from behind its opening quotation mark. -/
def stringBody (cs : List Char) : Except Problem (List Char × Rest cs) :=
  match cs with
  | [] => .error (.ended .string)
  | c :: r =>
      if c = '"' then .ok ([], ⟨r, by simp⟩)
      else if c = '\\' then
        match escape r with
        | .error p => .error p
        | .ok (e, ⟨t, ht⟩) =>
            match stringBody t with
            | .error p => .error p
            | .ok (s, ⟨u, hu⟩) => .ok (e :: s, ⟨u, by simp only [List.length_cons]; omega⟩)
      else if isControl c then .error .controlCharacter
      else
        match stringBody r with
        | .error p => .error p
        | .ok (s, ⟨u, hu⟩) => .ok (c :: s, ⟨u, by simp only [List.length_cons]; omega⟩)
termination_by cs.length
decreasing_by all_goals simp only [List.length_cons]; omega

/-- What follows a string whose characters do not matter, from behind its opening quotation mark:
escapes are checked, but halves of pairs may stand alone. -/
def skipString (cs : List Char) : Except Problem (Rest cs) :=
  match cs with
  | [] => .error (.ended .string)
  | c :: r =>
      if c = '"' then .ok ⟨r, by simp⟩
      else if c = '\\' then
        match r with
        | [] => .error (.ended .string)
        | e :: r =>
            if (simpleEscape? e).isSome then
              match skipString r with
              | .error p => .error p
              | .ok ⟨u, hu⟩ => .ok ⟨u, by simp only [List.length_cons]; omega⟩
            else if e = 'u' then
              match hexUnit r with
              | .error p => .error p
              | .ok (_, ⟨t, ht⟩) =>
                  match skipString t with
                  | .error p => .error p
                  | .ok ⟨u, hu⟩ => .ok ⟨u, by simp only [List.length_cons]; omega⟩
            else .error .badEscape
      else if isControl c then .error .controlCharacter
      else
        match skipString r with
        | .error p => .error p
        | .ok ⟨u, hu⟩ => .ok ⟨u, by simp only [List.length_cons]; omega⟩
termination_by cs.length
decreasing_by all_goals simp only [List.length_cons]; omega

/-! ### Words -/

/-- The rest of a word of which the first letter has been seen. -/
def word : (letters : List Char) → (cs : List Char) → Except Problem (RestOrAll cs)
  | [], cs => .ok ⟨cs, Nat.le_refl _⟩
  | _ :: _, [] => .error (.ended .value)
  | l :: letters, c :: cs =>
      if c = l then
        match word letters cs with
        | .error p => .error p
        | .ok ⟨r, hr⟩ => .ok ⟨r, by simp only [List.length_cons]; omega⟩
      else .error .noIdentifier

/-! ### Numbers -/

/-- A number that was read. -/
inductive Number where
  | integer (n : Int)
  | real (negative : Bool) (magnitude : Decimal.Binary64)
  deriving DecidableEq, Repr

/-- A number as a value that was found. -/
def Number.found : Number → Found
  | .integer n => .integer n
  | .real negative m => .real negative m

/-- The digits at the front. -/
def digits (cs : List Char) : List Char := cs.takeWhile Char.isDigit

/-- What follows the digits at the front. -/
def afterDigits (cs : List Char) : List Char := cs.dropWhile Char.isDigit

theorem length_afterDigits_le (cs : List Char) : (afterDigits cs).length ≤ cs.length :=
  length_dropWhile_le _ cs

theorem length_afterDigits_lt {cs : List Char} (h : ¬ (digits cs).isEmpty = true) :
    (afterDigits cs).length < cs.length := by
  cases cs with
  | nil => simp [digits] at h
  | cons c r =>
    by_cases hc : c.isDigit = true
    · rw [afterDigits, List.dropWhile_cons_of_pos hc]
      exact Nat.lt_succ_of_le (length_afterDigits_le r)
    · simp [digits, hc] at h

/-- Appends digits to a significand for as long as it fits 64 bits; the digits that are left. -/
def extend (s : Nat) : List Char → Nat × List Char
  | [] => (s, [])
  | c :: cs =>
      let t := s * 10 + Text.digitValue c
      if t < UInt64.size then extend t cs else (s, c :: cs)

/-- A number from its parts: the significand in 64 bits, the power of ten that goes with it, and
the written exponent. -/
def realOf (negative : Bool) (significand : Nat) (power : Int) : Except Problem Number :=
  match (Decimal.Binary64.ofQuotient? significand 1).bind (·.scaleByTen? power) with
  | some m => .ok (.real negative m)
  | none => .error .numberTooLarge

/-- A number without fraction and exponent: an integer where 64 bits hold it.  There is no
negative zero among the integers. -/
def integerOf (negative : Bool) (n : Nat) : Except Problem Number :=
  if !negative then .ok (.integer n)
  else if 0 < n ∧ n ≤ UInt64.size / 2 then .ok (.integer (-n))
  else realOf true n 0

/-- The largest exponent that is looked at. -/
def greatestExponent : Nat := UInt32.size / 2 - 1

/-- A number with an exponent, from behind the letter `e`. -/
def exponentPart (negative : Bool) (significand : Nat) (power : Int) (cs : List Char) :
    Except Problem (Number × RestOrAll cs) :=
  let down := cs.head? = some '-'
  let ⟨r, hr⟩ : RestOrAll cs :=
    match cs with
    | '+' :: r => ⟨r, by simp⟩
    | '-' :: r => ⟨r, by simp⟩
    | r => ⟨r, Nat.le_refl _⟩
  if (digits r).isEmpty then
    .error (if r.isEmpty then .ended .value else .badNumber)
  else
    let e := Text.naturalOf (digits r)
    let outcome :=
      if greatestExponent < e then
        if significand ≠ 0 ∧ !down then .error .numberTooLarge
        else .ok (.real negative .zero)
      else realOf negative significand (if down then power - e else power + e)
    match outcome with
    | .error p => .error p
    | .ok n => .ok (n, ⟨afterDigits r, Nat.le_trans (length_afterDigits_le r) hr⟩)

/-- A number with a fraction, from behind the point. -/
def fractionPart (negative : Bool) (significand : Nat) (power : Int) (cs : List Char) :
    Except Problem (Number × RestOrAll cs) :=
  let fraction := digits cs
  if fraction.isEmpty then
    .error (if cs.isEmpty then .ended .value else .badNumber)
  else
    let (s, dropped) := extend significand fraction
    let power := power - (fraction.length - dropped.length : Nat)
    have hr := length_afterDigits_le cs
    match afterDigits cs, hr with
    | c :: r, hr =>
        if c = 'e' ∨ c = 'E' then
          match exponentPart negative s power r with
          | .error p => .error p
          | .ok (n, ⟨t, ht⟩) => .ok (n, ⟨t, by simp only [List.length_cons] at hr; omega⟩)
        else
          match realOf negative s power with
          | .error p => .error p
          | .ok n => .ok (n, ⟨c :: r, hr⟩)
    | [], hr =>
        match realOf negative s power with
        | .error p => .error p
        | .ok n => .ok (n, ⟨[], hr⟩)

/-- A number without its sign. -/
def magnitude (negative : Bool) (cs : List Char) : Except Problem (Number × Rest cs) :=
  let whole := digits cs
  if h : (digits cs).isEmpty then
    .error (if cs.isEmpty then .ended .value else .badNumber)
  else if whole.head? = some '0' ∧ 1 < whole.length then .error .badNumber
  else
    let (s, dropped) := extend 0 whole
    let power : Int := dropped.length
    let plain := if dropped.isEmpty then integerOf negative s else realOf negative s power
    have hr := length_afterDigits_lt h
    match afterDigits cs, hr with
    | c :: r, hr =>
        if c = '.' then
          match fractionPart negative s power r with
          | .error p => .error p
          | .ok (n, ⟨t, ht⟩) => .ok (n, ⟨t, by simp only [List.length_cons] at hr; omega⟩)
        else if c = 'e' ∨ c = 'E' then
          match exponentPart negative s power r with
          | .error p => .error p
          | .ok (n, ⟨t, ht⟩) => .ok (n, ⟨t, by simp only [List.length_cons] at hr; omega⟩)
        else
          match plain with
          | .error p => .error p
          | .ok n => .ok (n, ⟨c :: r, hr⟩)
    | [], hr =>
        match plain with
        | .error p => .error p
        | .ok n => .ok (n, ⟨[], hr⟩)

/-- A number; `cs` starts with a minus sign or a digit. -/
def number (cs : List Char) : Except Problem (Number × Rest cs) :=
  match cs with
  | '-' :: r =>
      match magnitude true r with
      | .error p => .error p
      | .ok (n, ⟨t, ht⟩) => .ok (n, ⟨t, by simp only [List.length_cons]; omega⟩)
  | r => magnitude false r

/-! ### Numbers whose value does not matter -/

/-- What follows one or more digits. -/
def skipDigits (cs : List Char) : Except Problem (Rest cs) :=
  if h : (digits cs).isEmpty then .error .badNumber
  else .ok ⟨afterDigits cs, length_afterDigits_lt h⟩

/-- What follows an exponent, if there is one. -/
def skipExponent (cs : List Char) : Except Problem (RestOrAll cs) :=
  match cs with
  | c :: r =>
      if c = 'e' ∨ c = 'E' then
        let ⟨r, hr⟩ : RestOrAll r :=
          match r with
          | '+' :: r => ⟨r, by simp⟩
          | '-' :: r => ⟨r, by simp⟩
          | r => ⟨r, Nat.le_refl _⟩
        match skipDigits r with
        | .error p => .error p
        | .ok ⟨t, ht⟩ => .ok ⟨t, by simp only [List.length_cons]; omega⟩
      else .ok ⟨c :: r, Nat.le_refl _⟩
  | [] => .ok ⟨[], Nat.le_refl _⟩

/-- What follows a fraction and an exponent, if there are any. -/
def skipFraction (cs : List Char) : Except Problem (RestOrAll cs) :=
  match cs with
  | '.' :: r =>
      match skipDigits r with
      | .error p => .error p
      | .ok ⟨t, ht⟩ =>
          match skipExponent t with
          | .error p => .error p
          | .ok ⟨u, hu⟩ => .ok ⟨u, by simp only [List.length_cons]; omega⟩
  | cs => skipExponent cs

/-- What follows a number without its sign; only its form is checked. -/
def skipMagnitude (cs : List Char) : Except Problem (Rest cs) :=
  let whole := digits cs
  if whole.head? = some '0' ∧ 1 < whole.length then .error .badNumber
  else
    match skipDigits cs with
    | .error p => .error p
    | .ok ⟨t, ht⟩ =>
        match skipFraction t with
        | .error p => .error p
        | .ok ⟨u, hu⟩ => .ok ⟨u, by omega⟩

end Embargo.Json
