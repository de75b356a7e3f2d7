import Embargo.Json.Scan

/-!
# Values that are passed over

A record may hold members that nobody knows.  Their values are passed over: only their form is
checked, to any depth.  The brackets that are open form a stack, so depth costs no recursion.

* `skipScalar` — a value without brackets;
* `skipFrom` — the automaton, with the stack of open brackets and what it looks for next;
* `skipValue` — what follows one whole value.
-/

namespace Embargo.Json

/-- What follows a value without brackets, which starts at the front of `cs`. -/
def skipScalar (cs : List Char) : Except Problem (Rest cs) :=
  match cs with
  | [] => .error (.ended .value)
  | c :: r =>
      let follow : Except Problem (RestOrAll r) :=
        if c = '"' then
          match skipString r with
          | .error p => .error p
          | .ok ⟨t, ht⟩ => .ok ⟨t, Nat.le_of_lt ht⟩
        else if c = 'n' then word ['u', 'l', 'l'] r
        else if c = 't' then word ['r', 'u', 'e'] r
        else if c = 'f' then word ['a', 'l', 's', 'e'] r
        else if c = '-' then
          match skipMagnitude r with
          | .error p => .error p
          | .ok ⟨t, ht⟩ => .ok ⟨t, Nat.le_of_lt ht⟩
        else if c.isDigit then
          match skipMagnitude (c :: r) with
          | .error p => .error p
          | .ok ⟨t, ht⟩ => .ok ⟨t, Nat.le_of_lt_succ ht⟩
        else .error .noValue
      match follow with
      | .error p => .error p
      | .ok ⟨t, ht⟩ => .ok ⟨t, Nat.lt_succ_of_le ht⟩

/-- What is looked for next. -/
inductive Wanted where
  /-- A value. -/
  | value
  /-- The name of a member. -/
  | name
  /-- A separator or a closing bracket. -/
  | separator
  deriving DecidableEq, Repr

/-- What the text may go on with once a separator has been read inside a bracket. -/
def Bracket.wanted : Bracket → Wanted
  | .list => .value
  | .object => .name

/-- The character that closes a bracket. -/
def Bracket.closing : Bracket → Char
  | .list => ']'
  | .object => '\x7d'

/-- What the text is when it ends inside a bracket. -/
def Bracket.place : Bracket → Place
  | .list => .list
  | .object => .object

/-- Goes on until the last open bracket is closed: what follows it. -/
def skipFrom (wanted : Wanted) (opened : List Bracket) (cs : List Char) :
    Except Problem (List Char) :=
  match wanted, opened with
  | .separator, [] => .ok cs
  | .separator, b :: outer =>
      match skipBlanks cs with
      | ⟨[], _⟩ => .error (.ended b.place)
      | ⟨c :: r, _⟩ =>
          if c = ',' then skipFrom b.wanted (b :: outer) r
          else if c = b.closing then skipFrom .separator outer r
          else .error (.noSeparator b)
  | .name, opened =>
      match skipBlanks cs with
      | ⟨[], _⟩ => .error (.ended .object)
      | ⟨c :: r, _⟩ =>
          if c = '"' then
            match skipString r with
            | .error p => .error p
            | .ok ⟨t, _⟩ =>
                match skipBlanks t with
                | ⟨[], _⟩ => .error (.ended .object)
                | ⟨d :: u, _⟩ =>
                    if d = ':' then skipFrom .value opened u else .error .noColon
          else .error .nameNotString
  | .value, opened =>
      match skipBlanks cs with
      | ⟨[], _⟩ => .error (.ended .value)
      | ⟨c :: r, _⟩ =>
          if c = '[' then
            match skipBlanks r with
            | ⟨[], _⟩ => .error (.ended .list)
            | ⟨d :: t, _⟩ =>
                if d = ']' then skipFrom .separator opened t
                else skipFrom .value (.list :: opened) r
          else if c = '\x7b' then
            match skipBlanks r with
            | ⟨[], _⟩ => .error (.ended .object)
            | ⟨d :: t, _⟩ =>
                if d = '\x7d' then skipFrom .separator opened t
                else skipFrom .name (.object :: opened) r
          else
            match skipScalar (c :: r) with
            | .error p => .error p
            | .ok ⟨t, _⟩ => skipFrom .separator opened t
termination_by cs.length
decreasing_by all_goals simp only [List.length_cons] at *; omega

theorem length_le_of_skipFrom {wanted : Wanted} {opened : List Bracket} {cs rest : List Char}
    (h : skipFrom wanted opened cs = .ok rest) : rest.length ≤ cs.length := by
  -- either the text ends in an error, or all that follows is what follows a shorter rest
  fun_induction skipFrom wanted opened cs
  case case1 =>
    cases h
    exact Nat.le_refl _
  case case3 hr _ ih => exact Nat.le_of_lt (length_lt_of_cons hr (ih h))
  case case4 hr _ _ ih => exact Nat.le_of_lt (length_lt_of_cons hr (ih h))
  case case9 ht _ _ hr _ hu _ ih =>
    have hle := Nat.le_of_lt (length_lt_of_cons hu (ih h))
    exact Nat.le_of_lt (length_lt_of_cons hr (Nat.le_trans hle (Nat.le_of_lt ht)))
  case case14 hr _ ht _ ih =>
    exact Nat.le_of_lt (length_lt_of_cons hr (Nat.le_of_lt (length_lt_of_cons ht (ih h))))
  case case15 hr _ ih => exact Nat.le_of_lt (length_lt_of_cons hr (ih h))
  case case17 hr _ _ ht _ ih =>
    exact Nat.le_of_lt (length_lt_of_cons hr (Nat.le_of_lt (length_lt_of_cons ht (ih h))))
  case case18 hr _ _ ih => exact Nat.le_of_lt (length_lt_of_cons hr (ih h))
  case case20 hr _ _ _ _ ht _ ih =>
    exact Nat.le_trans (Nat.le_trans (ih h) (Nat.le_of_lt ht)) hr
  all_goals cases h

/-- What follows one whole value, whatever it holds. -/
def skipValue (cs : List Char) : Except Problem (RestOrAll cs) :=
  match h : skipFrom .value [] cs with
  | .error p => .error p
  | .ok rest => .ok ⟨rest, length_le_of_skipFrom h⟩

end Embargo.Json
