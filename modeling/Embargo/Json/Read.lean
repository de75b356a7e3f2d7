import Embargo.Json.Skip

/-!
# Reading values of a known type

A reader takes a value of the type it knows from the front of a text.  Readers are put together:
lists of what a reader reads, records of members that have a reader each.

* `Reader` — the type; `boolean`, `string`, `unsigned`, `variant` — the readers of single values;
* `list` — a list of values of one reader;
* `record` — a record, written as an object with its members in any order, or as a list of their
  values; members that nobody knows are passed over;
* `parse` — a text that holds one value and nothing else.
-/

namespace Embargo.Json

/-- Reads a value from the front of the characters. -/
abbrev Reader (α : Type) := (cs : List Char) → Except Problem (α × Rest cs)

/-- The problem with a value that starts at the front, where another kind of value belongs. -/
def mismatch (expected : Expected) (cs : List Char) : Problem :=
  match cs with
  | [] => .ended .value
  | c :: r =>
      let found : Except Problem Found :=
        if c = 'n' then (word ['u', 'l', 'l'] r).map fun _ => .null
        else if c = 't' then (word ['r', 'u', 'e'] r).map fun _ => .boolean true
        else if c = 'f' then (word ['a', 'l', 's', 'e'] r).map fun _ => .boolean false
        else if c = '-' ∨ c.isDigit then (number (c :: r)).map fun n => n.1.found
        else if c = '"' then (stringBody r).map fun s => .string (String.ofList s.1)
        else if c = '[' then .ok .list
        else if c = '\x7b' then .ok .object
        else .error .noValue
      match found with
      | .error p => p
      | .ok f => .wrongType f expected

/-! ### Single values -/

/-- `true` or `false`. -/
def boolean : Reader Bool := fun cs =>
  match skipBlanks cs with
  | ⟨[], _⟩ => .error (.ended .value)
  | ⟨c :: r, h⟩ =>
      if c = 't' then
        match word ['r', 'u', 'e'] r with
        | .error p => .error p
        | .ok ⟨t, ht⟩ => .ok (true, ⟨t, length_lt_of_cons h ht⟩)
      else if c = 'f' then
        match word ['a', 'l', 's', 'e'] r with
        | .error p => .error p
        | .ok ⟨t, ht⟩ => .ok (false, ⟨t, length_lt_of_cons h ht⟩)
      else .error (mismatch .boolean (c :: r))

/-- A string. -/
def string : Reader String := fun cs =>
  match skipBlanks cs with
  | ⟨[], _⟩ => .error (.ended .value)
  | ⟨c :: r, h⟩ =>
      if c = '"' then
        match stringBody r with
        | .error p => .error p
        | .ok (s, ⟨t, ht⟩) => .ok (String.ofList s, ⟨t, length_lt_of_cons_of_lt h ht⟩)
      else .error (mismatch .string (c :: r))

/-- The value `null`. -/
def null : Reader Unit := fun cs =>
  match skipBlanks cs with
  | ⟨[], _⟩ => .error (.ended .value)
  | ⟨c :: r, h⟩ =>
      if c = 'n' then
        match word ['u', 'l', 'l'] r with
        | .error p => .error p
        | .ok ⟨t, ht⟩ => .ok ((), ⟨t, length_lt_of_cons h ht⟩)
      else .error (mismatch .nothing (c :: r))

/-- An integer from zero up to, but not including, `2 ^ bits`. -/
def unsigned (bits : Nat) : Reader Nat := fun cs =>
  match skipBlanks cs with
  | ⟨[], _⟩ => .error (.ended .value)
  | ⟨c :: r, h⟩ =>
      if c = '-' ∨ c.isDigit then
        match number (c :: r) with
        | .error p => .error p
        | .ok (.integer n, ⟨t, ht⟩) =>
            if 0 ≤ n ∧ n < Nat.pow 2 bits then .ok (n.toNat, ⟨t, Nat.lt_of_lt_of_le ht h⟩)
            else .error (.wrongValue (.integer n) (.unsigned bits))
        | .ok (n, _) => .error (.wrongType n.found (.unsigned bits))
      else .error (mismatch (.unsigned bits) (c :: r))

/-! ### Lists -/

/-- Where a list or an object stands before its next element: at its end, or at the element. -/
inductive Next (cs : List Char) where
  | closed (rest : Rest cs)
  | element (rest : RestOrAll cs)

/-- The next element of a list, from behind the bracket or the element before it. -/
def nextElement (first : Bool) (cs : List Char) : Except Problem (Next cs) :=
  match skipBlanks cs with
  | ⟨[], _⟩ => .error (.ended .list)
  | ⟨c :: r, h⟩ =>
      if c = ']' then .ok (.closed ⟨r, by simp only [List.length_cons] at h; omega⟩)
      else if first then .ok (.element ⟨c :: r, h⟩)
      else if c = ',' then
        match skipBlanks r with
        | ⟨[], _⟩ => .error (.ended .value)
        | ⟨d :: t, ht⟩ =>
            if d = ']' then .error .trailingComma
            else .ok (.element ⟨d :: t, by simp only [List.length_cons] at *; omega⟩)
      else .error (.noSeparator .list)

/-- The elements of a list from some point on, up to and with its end. -/
def elements {α : Type} (element : Reader α) (first : Bool) (cs : List Char) :
    Except Problem (List α × Rest cs) :=
  match nextElement first cs with
  | .error p => .error p
  | .ok (.closed r) => .ok ([], r)
  | .ok (.element ⟨r, hr⟩) =>
      match element r with
      | .error p => .error p
      | .ok (a, ⟨t, ht⟩) =>
          match elements element false t with
          | .error p => .error p
          | .ok (as, ⟨u, hu⟩) => .ok (a :: as, ⟨u, by omega⟩)
termination_by cs.length

/-- A list of values. -/
def list {α : Type} (element : Reader α) : Reader (List α) := fun cs =>
  match skipBlanks cs with
  | ⟨[], _⟩ => .error (.ended .value)
  | ⟨c :: r, h⟩ =>
      if c = '[' then
        match elements element true r with
        | .error p => .error p
        | .ok (as, ⟨t, ht⟩) => .ok (as, ⟨t, length_lt_of_cons_of_lt h ht⟩)
      else .error (mismatch .list (c :: r))

/-! ### Records -/

/-- A member of a record: its name, and how its value is added to what has been gathered. -/
structure Member (σ : Type) where
  name : String
  read : σ → Reader σ

/-- A record as it was gathered from a text. -/
structure Gathered (σ : Type) where
  value : σ
  /-- The names of the members that were there. -/
  names : List String
  /-- Whether it was written as a list. -/
  asList : Bool

/-- A colon, and what follows it. -/
def colon (cs : List Char) : Except Problem (Rest cs) :=
  match skipBlanks cs with
  | ⟨[], _⟩ => .error (.ended .object)
  | ⟨c :: r, h⟩ =>
      if c = ':' then .ok ⟨r, by simp only [List.length_cons] at h; omega⟩
      else .error .noColon

/-- The next member of an object, from behind the bracket or the member before it; an element
starts behind the quotation mark of its name. -/
def nextMember (first : Bool) (cs : List Char) : Except Problem (Next cs) :=
  match skipBlanks cs with
  | ⟨[], _⟩ => .error (.ended .object)
  | ⟨c :: r, h⟩ =>
      if c = '\x7d' then .ok (.closed ⟨r, by simp only [List.length_cons] at h; omega⟩)
      else if first then
        if c = '"' then .ok (.element ⟨r, by simp only [List.length_cons] at h; omega⟩)
        else .error .nameNotString
      else if c = ',' then
        match skipBlanks r with
        | ⟨[], _⟩ => .error (.ended .value)
        | ⟨d :: t, ht⟩ =>
            if d = '"' then .ok (.element ⟨t, by simp only [List.length_cons] at *; omega⟩)
            else if d = '\x7d' then .error .trailingComma
            else .error .nameNotString
      else .error (.noSeparator .object)

/-- The members of an object from some point on, up to and with its end.  A member may be there
once; the names found so far are `names`. -/
def members {σ : Type} (known : List (Member σ)) (value : σ) (names : List String) (first : Bool)
    (cs : List Char) : Except Problem (Gathered σ × Rest cs) :=
  match nextMember first cs with
  | .error p => .error p
  | .ok (.closed r) => .ok (⟨value, names, false⟩, r)
  | .ok (.element ⟨r, hr⟩) =>
      match stringBody r with
      | .error p => .error p
      | .ok (name, ⟨t, ht⟩) =>
          match known.find? fun m => m.name = String.ofList name with
          | some m =>
              if m.name ∈ names then .error (.repeatedField m.name)
              else
                match colon t with
                | .error p => .error p
                | .ok ⟨u, hu⟩ =>
                    match m.read value u with
                    | .error p => .error p
                    | .ok (value, ⟨v, hv⟩) =>
                        match members known value (m.name :: names) false v with
                        | .error p => .error p
                        | .ok (g, ⟨w, hw⟩) => .ok (g, ⟨w, by omega⟩)
          | none =>
              match colon t with
              | .error p => .error p
              | .ok ⟨u, hu⟩ =>
                  match skipValue u with
                  | .error p => .error p
                  | .ok ⟨v, hv⟩ =>
                      match members known value names false v with
                      | .error p => .error p
                      | .ok (g, ⟨w, hw⟩) => .ok (g, ⟨w, by omega⟩)
termination_by cs.length

/-- The end of a list behind its last possible element. -/
def listEnd (cs : List Char) : Except Problem (Rest cs) :=
  match skipBlanks cs with
  | ⟨[], _⟩ => .error (.ended .list)
  | ⟨c :: r, h⟩ =>
      if c = ']' then .ok ⟨r, by simp only [List.length_cons] at h; omega⟩
      else if c = ',' then
        match skipBlanks r with
        | ⟨']' :: _, _⟩ => .error .trailingComma
        | _ => .error .trailingCharacters
      else .error .trailingCharacters

/-- The values of the members in their order, up to and with the end of the list. -/
def values {σ : Type} : (known : List (Member σ)) → (value : σ) → (names : List String) →
    (first : Bool) → (cs : List Char) → Except Problem (Gathered σ × Rest cs)
  | [], value, names, _, cs =>
      match listEnd cs with
      | .error p => .error p
      | .ok r => .ok (⟨value, names, true⟩, r)
  | m :: known, value, names, first, cs =>
      match nextElement first cs with
      | .error p => .error p
      | .ok (.closed r) => .ok (⟨value, names, true⟩, r)
      | .ok (.element ⟨r, hr⟩) =>
          match m.read value r with
          | .error p => .error p
          | .ok (value, ⟨t, ht⟩) =>
              match values known value (m.name :: names) false t with
              | .error p => .error p
              | .ok (g, ⟨u, hu⟩) => .ok (g, ⟨u, by omega⟩)

/-- A record of the given name and members, starting from `initial`. -/
def record {σ : Type} (name : String) (known : List (Member σ)) (initial : σ) :
    Reader (Gathered σ) := fun cs =>
  match skipBlanks cs with
  | ⟨[], _⟩ => .error (.ended .value)
  | ⟨c :: r, h⟩ =>
      if c = '\x7b' then
        match members known initial [] true r with
        | .error p => .error p
        | .ok (g, ⟨t, ht⟩) => .ok (g, ⟨t, length_lt_of_cons_of_lt h ht⟩)
      else if c = '[' then
        match values known initial [] true r with
        | .error p => .error p
        | .ok (g, ⟨t, ht⟩) => .ok (g, ⟨t, length_lt_of_cons_of_lt h ht⟩)
      else .error (mismatch (.record name) (c :: r))

/-- The problem of a record that lacks members it must have, if it lacks any. -/
def Gathered.lacking? {σ : Type} (g : Gathered σ) (name : String) (known : List (Member σ)) :
    Option Problem :=
  match known.find? fun m => m.name ∉ g.names with
  | none => none
  | some m =>
      if g.asList then some (.wrongLength g.names.length name known.length)
      else some (.missingField m.name)

/-! ### Variants -/

/-- The value of a name among the known ones. -/
def choose {α : Type} (known : List (String × α)) (name : String) : Except Problem α :=
  match known.find? fun k => k.1 = name with
  | some k => .ok k.2
  | none => .error (.unknownVariant name (known.map (·.1)))

/-- One of several named values: its name, or an object with that name for its only member and
`null` for its value. -/
def variant {α : Type} (known : List (String × α)) : Reader α := fun cs =>
  match skipBlanks cs with
  | ⟨[], _⟩ => .error (.ended .value)
  | ⟨c :: r, h⟩ =>
      if c = '"' then
        match stringBody r with
        | .error p => .error p
        | .ok (s, ⟨t, ht⟩) =>
            match choose known (String.ofList s) with
            | .error p => .error p
            | .ok a => .ok (a, ⟨t, length_lt_of_cons_of_lt h ht⟩)
      else if c = '\x7b' then
        match nextMember true r with
        | .error p => .error p
        | .ok (.closed _) => .error .noValue
        | .ok (.element ⟨q, hq⟩) =>
            match stringBody q with
            | .error p => .error p
            | .ok (s, ⟨t, ht⟩) =>
                match choose known (String.ofList s) with
                | .error p => .error p
                | .ok a =>
                    match colon t with
                    | .error p => .error p
                    | .ok ⟨u, hu⟩ =>
                        match null u with
                        | .error p => .error p
                        | .ok ((), ⟨v, hv⟩) =>
                            match skipBlanks v with
                            | ⟨[], _⟩ => .error (.ended .object)
                            | ⟨d :: w, hw⟩ =>
                                if d = '\x7d' then
                                  .ok (a, ⟨w, by simp only [List.length_cons] at *; omega⟩)
                                else .error .noValue
      else .error .noValue

/-! ### Whole texts -/

/-- The value of a text that holds nothing else. -/
def parseChars {α : Type} (read : Reader α) (cs : List Char) : Except Problem α :=
  match read cs with
  | .error p => .error p
  | .ok (a, ⟨r, _⟩) =>
      if (skipBlanks r).val.isEmpty then .ok a else .error .trailingCharacters

/-- The value of a text that holds nothing else. -/
def parse {α : Type} (read : Reader α) (text : String) : Except Problem α :=
  parseChars read text.toList

end Embargo.Json
