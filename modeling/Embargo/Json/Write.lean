import Embargo.Text.Quoted

/-!
# Writing JSON texts

Texts are written without blanks.  Strings escape the quotation mark, the backslash and the
controls, and nothing else.

* `quote` — a string;
* `array`, `object` — lists and objects of texts already written.
-/

namespace Embargo.Json

/-- A character of a string. -/
def escaped (c : Char) : List Char :=
  if c = '"' then ['\\', '"']
  else if c = '\\' then ['\\', '\\']
  else if c = '\x08' then ['\\', 'b']
  else if c = '\x0c' then ['\\', 'f']
  else if c = '\n' then ['\\', 'n']
  else if c = '\r' then ['\\', 'r']
  else if c = '\t' then ['\\', 't']
  else if c.toNat < 0x20 then
    ['\\', 'u', '0', '0', Nat.digitChar (c.toNat / 16), Nat.digitChar (c.toNat % 16)]
  else [c]

/-- A string. -/
def quote (s : String) : List Char :=
  ['"'] ++ s.toList.flatMap escaped ++ ['"']

/-- Texts with commas between them. -/
def commaSeparated : List (List Char) → List Char
  | [] => []
  | [t] => t
  | t :: u :: ts => t ++ [','] ++ commaSeparated (u :: ts)

/-- A list of values. -/
def array (ts : List (List Char)) : List Char :=
  ['['] ++ commaSeparated ts ++ [']']

/-- An object of named values. -/
def object (ms : List (String × List Char)) : List Char :=
  ['\x7b'] ++ commaSeparated (ms.map fun m => quote m.1 ++ [':'] ++ m.2) ++ ['\x7d']

/-- A natural number. -/
def natural (n : Nat) : List Char :=
  Nat.toDigits 10 n

/-- A truth value. -/
def truth (b : Bool) : List Char :=
  if b then ['t', 'r', 'u', 'e'] else ['f', 'a', 'l', 's', 'e']

end Embargo.Json
