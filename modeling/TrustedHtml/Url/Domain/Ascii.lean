import TrustedHtml.Url.Domain.Direction
import TrustedHtml.Url.Domain.Label

/-!
# Domain Names in ASCII

A domain name is written in ASCII: its characters are folded, brought into a canonical form
and split into labels, and every label is read and written in ASCII. In a name with letters
that are written from right to left, all labels have to be of one direction each.

## Main definitions

* `Domain.labels` — the parts of a name between dots.
* `Domain.keepsOrder` — names whose labels appear in the order in which they are written.
* `Domain.toAscii?` — the ASCII form of a domain name.
-/

namespace TrustedHtml.Url.Domain

/-- Split at every dot. -/
def labels : List Char → List (List Char)
  | [] => [[]]
  | c :: rest =>
    if c == '.' then [] :: labels rest
    else match labels rest with
      | label :: others => (c :: label) :: others
      | [] => [[c]]

/-- Whether the labels of a name appear in the order in which they are written. -/
def keepsOrder (labels : List (List Char)) : Bool :=
  let directions := labels.map (·.map Direction.ofChar)
  !directions.any (·.any Direction.turns) || directions.all Direction.isConsistent

/-- The ASCII form of a domain name. -/
def toAscii? (domain : String) : Option String := do
  let folded ← domain.toList.mapM mapChar?
  let name := normalize folded.flatten
  if name.any isForbidden then none
  let read ← (labels name).mapM readLabel?
  if keepsOrder read then
    return String.ofList (List.intercalate ['.'] (read.map writeLabel))
  else none

end TrustedHtml.Url.Domain
