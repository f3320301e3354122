/-!
# Edit distance

The least number of single-character insertions, deletions and replacements that
turn one text into another. The distances from a text to every suffix of a
second text are computed together, one row for each character of the first text.
-/

set_option autoImplicit false

namespace Calculator

/-- The row for no characters: every suffix is reached by inserting all of it. -/
def distancesFromEmpty : List Char → List Nat
  | [] => [0]
  | _ :: rest => (rest.length + 1) :: distancesFromEmpty rest

/-- The row for `character :: source`, given the row for `source`. Both rows hold
one entry for each suffix of `target`, the longest suffix first. -/
def extendDistances (character : Char) : List Char → List Nat → List Nat
  | [], row => [row.headD 0 + 1]
  | other :: target, row =>
      let shorter := extendDistances character target row.tail
      let replace := row.tail.headD 0 + (if character = other then 0 else 1)
      let delete := row.headD 0 + 1
      let insert := shorter.headD 0 + 1
      min replace (min delete insert) :: shorter

/-- The distances from `source` to every suffix of `target`, the longest suffix
first. -/
def suffixDistances (source target : List Char) : List Nat :=
  source.foldr (fun character row => extendDistances character target row)
    (distancesFromEmpty target)

/-- The least number of single-character edits between two texts. -/
def editDistance (source target : String) : Nat :=
  (suffixDistances source.toList target.toList).headD 0

end Calculator
