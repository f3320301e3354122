/-!
# Quoted text

The notation of logged text: a double quote at either end, an escape for a quote,
a backslash and each control character, every other character as itself.
-/

set_option autoImplicit false

namespace Calculator

/-- How a character is written between the quotes. -/
def quotedCharacter (character : Char) : List Char :=
  if character = '\x00' then ['\x5c', '0']
  else if character = '\t' then ['\x5c', 't']
  else if character = '\n' then ['\x5c', 'n']
  else if character = '\r' then ['\x5c', 'r']
  else if character = '\x22' ∨ character = '\x5c' then ['\x5c', character]
  else if character.toNat < 0x20 ∨ character = '\x7f' then
    ['\x5c', 'u', '\x7b'] ++ Nat.toDigits 16 character.toNat ++ ['\x7d']
  else [character]

def quoted (text : String) : String :=
  String.ofList (['\x22'] ++ text.toList.flatMap quotedCharacter ++ ['\x22'])

/-- A list of quoted texts, in brackets and separated by commas. -/
def quotedList (texts : List String) : String :=
  "[" ++ ", ".intercalate (texts.map quoted) ++ "]"

end Calculator
