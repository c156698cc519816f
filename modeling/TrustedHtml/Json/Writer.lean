import TrustedHtml.Decimal.Shortest
import TrustedHtml.Json.Basic

/-!
# Writing the Numbers of JSON

An integer is written with its digits, and a double with the fewest digits that read back as it.
The text of a double has a point or an exponent, so it is never taken for an integer.

## Main definitions

* `Json.Number.shortestText` — how a number is written.
* `Json.shortestWriter` — the writer that writes like this.
-/

namespace TrustedHtml.Json

/-- How a number is written. -/
def Number.shortestText : Number → String
  | natural n => toString n
  | negative n => "-" ++ toString n
  | double isNegative magnitude => (if isNegative then "-" else "") ++ magnitude.shortest.text

/-- The writer of shortest texts. -/
instance shortestWriter : NumberWriter := ⟨Number.shortestText⟩

end TrustedHtml.Json
