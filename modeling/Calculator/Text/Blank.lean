/-!
# Blank characters

The Unicode property `White_Space`, and the two ways in which lines of input are
cut at it: removal at both ends, and a split at the first occurrence.
-/

set_option autoImplicit false

namespace Calculator

/-- The ranges of code points with the property `White_Space`, in order, both
ends included. -/
def blankRanges : List (Nat × Nat) :=
  [(0x09, 0x0D), (0x20, 0x20), (0x85, 0x85), (0xA0, 0xA0), (0x1680, 0x1680),
   (0x2000, 0x200A), (0x2028, 0x2029), (0x202F, 0x202F), (0x205F, 0x205F),
   (0x3000, 0x3000)]

/-- Whether a character has the property `White_Space`. -/
def isBlank (character : Char) : Bool :=
  blankRanges.any fun (first, last) =>
    first ≤ character.toNat && character.toNat ≤ last

example : (blankRanges.map fun (first, last) => last + 1 - first).sum = 25 := by decide

/-- The text without the blanks that it begins with. -/
def trimStart (text : List Char) : List Char :=
  text.dropWhile isBlank

/-- The text without the blanks that it ends with. -/
def trimEnd (text : List Char) : List Char :=
  (text.reverse.dropWhile isBlank).reverse

/-- The text without the blanks at either end. -/
def trim (text : List Char) : List Char :=
  trimEnd (trimStart text)

/-- The parts of a text before and after the first character that separates,
which belongs to neither; `none` if no character does. -/
def splitFirst? (separates : Char → Bool) : List Char → Option (List Char × List Char)
  | [] => none
  | character :: rest =>
      if separates character then some ([], rest)
      else
        (splitFirst? separates rest).map fun (before, after) => (character :: before, after)

/-- As `splitFirst?`; a text without a separator is all before it. -/
def splitFirst (separates : Char → Bool) (text : List Char) : List Char × List Char :=
  (splitFirst? separates text).getD (text, [])

end Calculator
