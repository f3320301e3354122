/-!
# Lines and positions

A line ends after a line feed, after a carriage return, or after the two in this
order, which count as one terminator. A terminator at the very end of a text
opens no further line.
-/

set_option autoImplicit false

namespace Calculator

/-- Puts a character in front of the first line. -/
def consFirstLine (character : Char) : List (List Char) → List (List Char)
  | [] => [[character]]
  | line :: lines => (character :: line) :: lines

/-- The lines of a text, each with the terminator that ends it. -/
def linesOf : List Char → List (List Char)
  | [] => []
  | '\r' :: '\n' :: rest => ['\r', '\n'] :: linesOf rest
  | character :: rest =>
      if character = '\n' ∨ character = '\r' then [character] :: linesOf rest
      else consFirstLine character (linesOf rest)

/-- A place in a text as people count: lines and columns start at one. -/
structure Position where
  line : Nat
  column : Nat
deriving DecidableEq, Repr

namespace Position

/-- The position of an offset in `lines`, the first of which is line `line`.
Whatever lies beyond the last line is counted on it. -/
def inLines (line : Nat) : List (List Char) → Nat → Position
  | [], offset => ⟨line, offset + 1⟩
  | [_], offset => ⟨line, offset + 1⟩
  | current :: next :: rest, offset =>
      if offset < current.length then ⟨line, offset + 1⟩
      else inLines (line + 1) (next :: rest) (offset - current.length)

/-- The position of an offset in a text. -/
def ofOffset (text : String) (offset : Nat) : Position :=
  inLines 1 (linesOf text.toList) offset

/-- A position is written `line:column`. -/
def text (position : Position) : String :=
  toString position.line ++ ":" ++ toString position.column

end Position

/-- The pieces of a text between its line feeds. -/
def splitAtLineFeeds (text : List Char) : List (List Char) :=
  text.splitOn '\n'

end Calculator
