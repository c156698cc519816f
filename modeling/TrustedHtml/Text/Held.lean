import TrustedHtml.Text.Quoted

/-!
# Held Names

A short name is held in place, and a longer one on its own. Where an error shows the name it
was raised for, it also shows which of the two applies.

## Main definitions

* `Text.inPlaceCapacity` — the size of the longest name held in place.
* `Text.held` — the literal of a name, with how it is held.
-/

namespace TrustedHtml.Text

/-- The size of the longest name held in place, in bytes. -/
def inPlaceCapacity : Nat := 15

/-- The literal of a name, with how it is held. -/
def held (name : String) : String :=
  if name.utf8ByteSize ≤ inPlaceCapacity then s!"Inline({quoted name})"
  else s!"Owned({quoted name})"

end TrustedHtml.Text
