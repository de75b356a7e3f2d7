/-!
# Blank characters

Topic names, group names and configuration values are compared after blank characters have been
removed from both ends.  A character is blank when Unicode gives it the property `White_Space`:
25 code points, in ten runs.

* `isBlank` — the property, from the table `blankRuns`;
* `trim` — a text without the blanks at its two ends.

Characters that merely look empty (the zero-width space, the byte-order mark) are not blank.
-/

namespace Embargo.Text

/-- The code points with the property `White_Space`, as runs with both ends included. -/
def blankRuns : List (Nat × Nat) :=
  [(0x09, 0x0d), (0x20, 0x20), (0x85, 0x85), (0xa0, 0xa0), (0x1680, 0x1680),
   (0x2000, 0x200a), (0x2028, 0x2029), (0x202f, 0x202f), (0x205f, 0x205f), (0x3000, 0x3000)]

/-- Whether a character has the property `White_Space`. -/
def isBlank (c : Char) : Bool :=
  blankRuns.any fun run => run.1 ≤ c.toNat && c.toNat ≤ run.2

/-- The characters without the blanks in front. -/
def trimFront (cs : List Char) : List Char :=
  cs.dropWhile isBlank

/-- The characters without the blanks at either end. -/
def trimChars (cs : List Char) : List Char :=
  (trimFront (trimFront cs).reverse).reverse

/-- A text without the blanks at either end. -/
def trim (s : String) : String :=
  String.ofList (trimChars s.toList)

/-- A text made of blanks only, the empty text included. -/
def isBlankText (s : String) : Bool :=
  (trim s).isEmpty

/-! ### Small facts -/

@[simp] theorem toList_trim (s : String) : (trim s).toList = trimChars s.toList := by
  simp [trim]

/-- There are 25 blank characters. -/
example : (blankRuns.map fun run => run.2 - run.1 + 1).sum = 25 := by decide

end Embargo.Text
