import Calculator.Token

/-!
# From text to tokens

A source is cut into tokens from left to right. Each token is as long as its kind
allows, and every character belongs to exactly one token: what begins no other
token is a symbol of its own.
-/

set_option autoImplicit false

namespace Calculator

/-- The characters that separate tokens. -/
def isSeparator (character : Char) : Bool :=
  character == ' ' || character == '\t' || character == '\n' || character == '\r'

/-- The characters that a name may begin with: ASCII letters and the underscore. -/
def isNameStart (character : Char) : Bool :=
  character.isAlpha || character == '_'

/-- The characters that a name may go on with. -/
def isNameRest (character : Char) : Bool :=
  character.isAlphanum || character == '_'

/-- How many characters at the front of a text satisfy a condition. -/
def runLength (condition : Char → Bool) (text : List Char) : Nat :=
  (text.takeWhile condition).length

/-- How many characters of a fraction, with its point, are at the front of a
text. -/
def fractionLength : List Char → Nat
  | '.' :: rest => 1 + runLength Char.isDigit rest
  | _ => 0

/-- The kind of the token that begins with `first`, and the number of characters
of `rest` that belong to it. -/
def munch (first : Char) (rest : List Char) : TokenKind × Nat :=
  if isSeparator first then (.whitespace, runLength isSeparator rest)
  else if first = '+' then (.add, 0)
  else if first = '-' then (.sub, 0)
  else if first = '*' then (.mul, 0)
  else if first = '/' then (.div, 0)
  else if first = '(' then (.openParen, 0)
  else if first = ')' then (.closeParen, 0)
  else if isNameStart first then (.name, runLength isNameRest rest)
  else if first.isDigit then
    let digits := runLength Char.isDigit rest
    (.num, digits + fractionLength (rest.drop digits))
  else if first = '.' ∧ runLength Char.isDigit rest ≠ 0 then
    (.num, runLength Char.isDigit rest)
  else (.symbol, 0)

/-- The tokens of a text that begins at a byte offset. -/
def tokensFrom (offset : Nat) : List Char → List Token
  | [] => []
  | first :: rest =>
      let kind := (munch first rest).1
      let taken := (munch first rest).2
      let lexeme := String.ofList (first :: rest.take taken)
      let stop := offset + lexeme.utf8ByteSize
      ⟨kind, lexeme, ⟨offset, stop⟩⟩ :: tokensFrom stop (rest.drop taken)
termination_by text => text.length

def tokenize (source : String) : List Token :=
  tokensFrom 0 source.toList

end Calculator
