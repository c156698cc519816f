import TrustedHtml.Decimal.Binary64

/-!
# JSON Documents

## Main definitions

* `Json.Number` — the numbers of a document: integers of machine size, and doubles.
* `Json` — documents. The members of an object are in increasing order of their names, and no
  name occurs twice.
* `Json.NumberWriter` — what a writer of numbers provides.
* `Json.insertMember` — adds a member to an object, in place of one with the same name.
-/

namespace TrustedHtml

/-- A number of a document. -/
inductive Json.Number where
  /-- An integer that is not negative. -/
  | natural (n : Nat)
  /-- The integer `-n`, for a positive `n`. -/
  | negative (n : Nat)
  /-- Any other number, as a double with its sign. -/
  | double (isNegative : Bool) (magnitude : Binary64)
deriving DecidableEq, Repr

/-- A document. -/
inductive Json where
  | null
  | bool (value : Bool)
  | number (value : Json.Number)
  | string (value : String)
  | array (items : List Json)
  | object (members : List (String × Json))

namespace Json

/-- A writer of numbers. How a number is written is left to it, so that everything built on it
holds for every such writer; a writer is in `TrustedHtml.Json.Writer`. -/
class NumberWriter where
  /-- The text of a number. -/
  text : Number → String

/-- Add a member to the members of an object, in place of one with the same name. -/
def insertMember (name : String) (value : Json) : List (String × Json) → List (String × Json)
  | [] => [(name, value)]
  | (other, old) :: rest =>
    if name < other then (name, value) :: (other, old) :: rest
    else if name = other then (name, value) :: rest
    else (other, old) :: insertMember name value rest

/-- How a truth value is written. -/
def boolText (value : Bool) : String :=
  if value then "true" else "false"

end Json

end TrustedHtml
