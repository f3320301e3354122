/-!
# Regions of source text

Offsets count bytes of UTF-8. A region is half open, so two neighbouring regions
share an offset and no byte.
-/

set_option autoImplicit false

namespace Calculator

/-- The bytes from `start` up to, and not including, `stop`. -/
structure Span where
  start : Nat
  stop : Nat
deriving DecidableEq, Repr, Inhabited

namespace Span

/-- The empty region at an offset. -/
def point (offset : Nat) : Span :=
  ⟨offset, offset⟩

/-- The region that starts with `first` and ends with `last`. -/
def through (first last : Span) : Span :=
  ⟨first.start, last.stop⟩

end Span

/-- A value together with the region that it was read from. -/
structure Located (β : Type) where
  value : β
  span : Span
deriving DecidableEq, Repr

end Calculator
