import Embargo.Decimal.Shortest
import Embargo.Text.Quoted

/-!
# Problems of JSON texts

A text is read from left to right, and the first problem met is reported.

* `Problem` — what can be wrong with a text, by cause;
* `Problem.message` — its wording.
-/

namespace Embargo.Json

/-- What was being read when a text ended too early. -/
inductive Place where
  | value
  | list
  | object
  | string
  deriving DecidableEq, Repr

/-- The two kinds of brackets. -/
inductive Bracket where
  | list
  | object
  deriving DecidableEq, Repr

/-- A value that stands where another kind of value belongs. -/
inductive Found where
  | null
  | boolean (b : Bool)
  | integer (n : Int)
  | real (negative : Bool) (magnitude : Decimal.Binary64)
  | string (s : String)
  | list
  | object
  deriving DecidableEq, Repr

/-- The kind of value that belongs somewhere. -/
inductive Expected where
  | boolean
  | string
  | list
  /-- An unsigned integer of so many bits. -/
  | unsigned (bits : Nat)
  /-- Nothing: the value `null`. -/
  | nothing
  /-- A record of the given name. -/
  | record (name : String)
  deriving DecidableEq, Repr

/-- What can be wrong with a text. -/
inductive Problem where
  | ended (place : Place)
  | noValue
  | noIdentifier
  | noColon
  | noSeparator (bracket : Bracket)
  | trailingComma
  | trailingCharacters
  | nameNotString
  | badNumber
  | numberTooLarge
  | badEscape
  | brokenPair
  | loneSurrogate
  | controlCharacter
  | wrongType (found : Found) (expected : Expected)
  | wrongValue (found : Found) (expected : Expected)
  | repeatedField (name : String)
  | missingField (name : String)
  | wrongLength (length : Nat) (record : String) (fields : Nat)
  | unknownVariant (name : String) (known : List String)
  deriving DecidableEq, Repr

/-- How numbers with a fraction or an exponent are shown: positionally from `0.00001` up to, but
not including, `10 ^ 16`. -/
def numberLayout : Decimal.Layout := ⟨-5, 16, 1⟩

/-- A name between back quotes. -/
def named (s : String) : String :=
  "`" ++ s ++ "`"

/-- The name of a place. -/
def Place.name : Place → String
  | .value => "a value"
  | .list => "a list"
  | .object => "an object"
  | .string => "a string"

/-- The mark that closes a bracket. -/
def Bracket.close : Bracket → String
  | .list => "]"
  | .object => "\x7d"

/-- A value in words. -/
def Found.describe : Found → String
  | .null => "null"
  | .boolean b => "boolean " ++ named (if b then "true" else "false")
  | .integer n => "integer " ++ named (toString n)
  | .real negative m => "floating point " ++ named (numberLayout.text negative m)
  | .string s => "string " ++ Text.quoted s
  | .list => "sequence"
  | .object => "map"

/-- A kind of value in words. -/
def Expected.describe : Expected → String
  | .boolean => "a boolean"
  | .string => "a string"
  | .list => "a sequence"
  | .unsigned bits => "u" ++ toString bits
  | .nothing => "unit"
  | .record name => "struct " ++ name

/-- The names to choose from, in words. -/
def oneOf : List String → String
  | [] => "there are no variants"
  | [a] => "expected " ++ named a
  | [a, b] => "expected " ++ named a ++ " or " ++ named b
  | names => "expected one of " ++ ", ".intercalate (names.map named)

/-- A problem in words. -/
def Problem.message : Problem → String
  | .ended place => "EOF while parsing " ++ place.name
  | .noValue => "expected value"
  | .noIdentifier => "expected ident"
  | .noColon => "expected " ++ named ":"
  | .noSeparator bracket => "expected " ++ named "," ++ " or " ++ named bracket.close
  | .trailingComma => "trailing comma"
  | .trailingCharacters => "trailing characters"
  | .nameNotString => "key must be a string"
  | .badNumber => "invalid number"
  | .numberTooLarge => "number out of range"
  | .badEscape => "invalid escape"
  | .brokenPair => "unexpected end of hex escape"
  | .loneSurrogate => "lone leading surrogate in hex escape"
  | .controlCharacter => "control character (\\u0000-\\u001F) found while parsing a string"
  | .wrongType found expected =>
      "invalid type: " ++ found.describe ++ ", expected " ++ expected.describe
  | .wrongValue found expected =>
      "invalid value: " ++ found.describe ++ ", expected " ++ expected.describe
  | .repeatedField name => "duplicate field " ++ named name
  | .missingField name => "missing field " ++ named name
  | .wrongLength length record fields =>
      "invalid length " ++ toString length ++ ", expected struct " ++ record ++ " with "
        ++ toString fields ++ " elements"
  | .unknownVariant name known => "unknown variant " ++ named name ++ ", " ++ oneOf known

end Embargo.Json
