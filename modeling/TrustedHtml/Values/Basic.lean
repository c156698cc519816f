import TrustedHtml.Error.Failure
import TrustedHtml.Schema.Basic
import TrustedHtml.Trust.SafeString

/-!
# Value Sets

A value set holds the values for one instantiation of a schema: a string for every variable
and a sequence of rows for every subsection, where a row is a value set for the schema of
the subsection. Strings are checked when they are stored. What was never set reads as empty.

The places of a value set are only provided when something is first stored, all of them at
once.

## Main definitions

* `RowStream` — rows, possibly cut off by a failure of their source.
* `ValueSet` — the values for a schema.
* `ValueSet.setScalar`, `ValueSet.setConst`, `ValueSet.setRows` — storing values.
* `ValueSet.getScalar`, `ValueSet.getStream`, `ValueSet.scalarByName` — reading them.
-/

namespace TrustedHtml

/-- The rows of a subsection. A source that fails gives the rows before the failure. -/
structure RowStream (α : Type) where
  rows : List α
  failure : Option Failure

namespace RowStream

variable {α : Type}

/-- Rows held in memory. -/
def ofRows (rows : List α) : RowStream α := ⟨rows, none⟩

/-- No rows. -/
def empty : RowStream α := ofRows []

/-- The rows that a source produces, up to the first failure. Anything else that ends the
source is not a matter of its rows. -/
def ofResults : List (Except Abort α) → Except Abort (RowStream α)
  | [] => .ok empty
  | .ok row :: rest => do
    let stream ← ofResults rest
    return { stream with rows := row :: stream.rows }
  | .error (.failure f) :: _ => .ok ⟨[], some f⟩
  | .error e :: _ => .error e

/-- The number of rows. -/
def count (s : RowStream α) : Except Failure Nat :=
  match s.failure with
  | none => .ok s.rows.length
  | some f => .error f

end RowStream

/-- The values for one instantiation of a schema. -/
structure ValueSet where
  schema : Schema
  /-- The strings by place; none at all before the first one is stored. -/
  values : List String
  /-- The rows by place; none at all before the first ones are set. -/
  streams : List (Option (RowStream ValueSet))

/-- A new value set for a schema. -/
def Schema.valueSet (s : Schema) : ValueSet :=
  ⟨s, [], []⟩

namespace ValueSet

/-- Places up to `count`, the new ones filled with `a`, if there is no place `index` yet. -/
def provide {α : Type} (index count : Nat) (a : α) (places : List α) : List α :=
  if places.length ≤ index then places ++ List.replicate (count - places.length) a else places

/-- Put `a` at a place that has been provided. -/
def put {α : Type} (index : Nat) (a : α) (places : List α) : Except Misuse (List α) :=
  if index < places.length then .ok (places.set index a)
  else .error (.noSuchSlot index places.length)

/-- Store a string at the place of a variable. -/
def store (vs : ValueSet) (v : Var) (text : String) : Except Misuse ValueSet := do
  let values ← put v.index text (provide v.index vs.schema.scalars.length "" vs.values)
  return { vs with values }

/-- Store a literal, which needs no check. -/
def setConst (vs : ValueSet) (v : Var) (text : String) : Except Misuse ValueSet := do
  vs.schema.checkVar v
  vs.store v text

/-- Set the rows of a subsection. -/
def setStream (vs : ValueSet) (t : Tag) (stream : RowStream ValueSet) :
    Except Misuse ValueSet := do
  vs.schema.checkTag t .valueSet
  let places := provide t.index vs.schema.subsections.length none vs.streams
  let streams ← put t.index (some stream) places
  return { vs with streams }

/-- Set the rows of a subsection from value sets, which have to be made for its schema. -/
def setRows (vs : ValueSet) (t : Tag) (rows : List ValueSet) : Except Misuse ValueSet := do
  match rows.find? fun row => row.schema.id ≠ t.child with
  | some row => throw (.foreignRow t row.schema.id row.schema.debugName)
  | none => vs.setStream t (.ofRows rows)

/-- The string at a place. -/
def valueAt (vs : ValueSet) (index : Nat) : String :=
  vs.values[index]?.getD ""

/-- The rows at a place. -/
def streamAt (vs : ValueSet) (index : Nat) : RowStream ValueSet :=
  (vs.streams[index]?.getD none).getD .empty

/-- The value of a variable. -/
def getScalar (vs : ValueSet) (v : Var) : Except Misuse String := do
  vs.schema.checkVar v
  return vs.valueAt v.index

/-- The rows of a subsection. -/
def getStream (vs : ValueSet) (t : Tag) : Except Misuse (RowStream ValueSet) := do
  vs.schema.checkTag t .valueSet
  return vs.streamAt t.index

/-- The value of the variable of a given name. -/
def scalarByName (vs : ValueSet) (name : String) : Option String :=
  (vs.schema.scalar? name).map fun v => vs.valueAt v.index

variable [UrlReader]

/-- Store a string, checked at the level that the variable requires now, raised by `extra`.
The text that is stored is the one the check gives. -/
def setScalarRequiring (vs : ValueSet) (v : Var) (value : SafeString) (extra : TrustLevel) :
    Except Abort ValueSet := do
  (vs.schema.checkVar v).mapError .misuse
  let required := (← (vs.schema.slotLevel v).mapError .misuse).join extra
  match value.check required with
  | .ok text => (vs.store v text).mapError .misuse
  | .error source => throw (.ofCause (.bind (.trust v.name.text source)))

/-- Store a string, checked at the level that the variable requires now. -/
def setScalar (vs : ValueSet) (v : Var) (value : SafeString) : Except Abort ValueSet :=
  vs.setScalarRequiring v value .untrusted

end ValueSet

end TrustedHtml
