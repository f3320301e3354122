import Calculator.Json
import Calculator.NameMap
import Calculator.Text.EditDistance

/-!
# Contexts

A context binds names to numbers. For a name that it does not bind it suggests
the bound names that one edit of a character turns into it.
-/

set_option autoImplicit false

namespace Calculator

abbrev Context (α : Type) := NameMap α

namespace Context

variable {α : Type}

/-- The names of a listing at an edit distance of less than two, in order. -/
def similarAmong (listing : List String) (name : String) : List String :=
  (listing.filter fun other => editDistance other name < 2).mergeSort

/-- The bound names that are similar to a name. A bound name is similar to itself. -/
def similarNames (context : Context α) (name : String) : List String :=
  similarAmong context.names name

/-- A context as a document: an object of its bindings in the field `vars`. -/
def toJson [Numeral α] (context : Context α) : Json α :=
  .object [("vars", .object (context.entries.map fun (name, value) => (name, .ofNumber value)))]

end Context

end Calculator
