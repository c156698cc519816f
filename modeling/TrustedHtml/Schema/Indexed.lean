import Std.Data.ExtHashMap
import TrustedHtml.Schema.Declare

/-!
# Schemas with Tables of Names

A schema lists its variables and its subsections in the order of their places. To find the place
of a name without going through the list, it can keep two tables beside the lists, one for the
names of variables and one for those of subsections. A declaration then looks into a table only,
goes to the place that it finds there, and enters what it adds into the list and into the table.
Nothing forces a table to agree with its list, and a place that is not in the list is a mistake of
the program.

## Main definitions

* `NameTable` — a table that leads from names to places.
* `IndexedSchema` — a schema with its tables, at every level of nesting.
* `IndexedSchema.scalar?`, `IndexedSchema.subsection?` — handles by name.
* `IndexedSchema.declare` — declares a variable, or raises its level.
* `IndexedScope.declareSubsection` — declares a subsection.
* `IndexedSchema.child`, `IndexedSchema.setRows` — the schema of the rows of a subsection.
-/

namespace TrustedHtml

/-- A table that leads from names to places. -/
abbrev NameTable := Std.ExtHashMap String Nat

namespace NameTable

/-- A table without names. -/
def empty : NameTable := ∅

/-- The place that a table has for a name. -/
def find? (table : NameTable) (name : String) : Option Nat :=
  table[name]?

/-- The table with a name and its place entered. -/
def enter (table : NameTable) (name : String) (index : Nat) : NameTable :=
  table.insert name index

@[simp] theorem find?_empty (name : String) : empty.find? name = none := by
  simp [find?, empty]

@[simp] theorem find?_enter (table : NameTable) (name : String) (index : Nat) (other : String) :
    (table.enter name index).find? other =
      if name = other then some index else table.find? other := by
  simp [find?, enter, Std.ExtHashMap.getElem?_insert]

end NameTable

/-- A schema with tables of its names. -/
structure IndexedSchema where
  id : SchemaId
  /-- Whether binding fails on names that are not declared, instead of ignoring them. -/
  strict : Bool
  /-- The subsection this schema describes; none for a root schema. -/
  nesting : Option Nesting
  scalars : List Var
  scalarsByName : NameTable
  subsections : List (Tag × IndexedSchema)
  subsectionsByName : NameTable

namespace IndexedSchema

/-- A schema without variables and subsections. -/
def empty (id : SchemaId) (nesting : Option Nesting) : IndexedSchema :=
  ⟨id, false, nesting, [], .empty, [], .empty⟩

/-- The schema without its subsections, which is enough to check a handle. -/
def head (s : IndexedSchema) : Schema :=
  ⟨s.id, s.strict, s.nesting, s.scalars, []⟩

/-- The entry at a place, which has to be there. -/
def entry {α : Type} (entries : List α) (index : Nat) : Except Misuse α :=
  match entries[index]? with
  | some a => .ok a
  | none => .error (.noSuchSlot index entries.length)

/-- The variable of the given name. -/
def scalar? (s : IndexedSchema) (name : String) : Except Misuse (Option Var) :=
  match s.scalarsByName.find? name with
  | some index => do return some (← entry s.scalars index)
  | none => .ok none

/-- The subsection of the given name. -/
def subsection? (s : IndexedSchema) (name : String) : Except Misuse (Option Tag) :=
  match s.subsectionsByName.find? name with
  | some index => do return some (← entry s.subsections index).1
  | none => .ok none

/-- Declare a variable. If the table has the name, the level of the variable is raised to the join
with `level`. -/
def declare (s : IndexedSchema) (name : SlotName) (level : TrustLevel) :
    Except Misuse (Var × IndexedSchema) :=
  match s.scalarsByName.find? name.text with
  | some index => do
    let v ← entry s.scalars index
    let raised := { v with level := v.level.join level }
    return (raised, { s with scalars := s.scalars.set index raised })
  | none =>
    let index := s.scalars.length
    let v : Var := ⟨index, name, level, some s.id⟩
    .ok (v, { s with
      scalars := s.scalars ++ [v], scalarsByName := s.scalarsByName.enter name.text index })

/-- The schema with another strictness; its subsections keep theirs. -/
def setStrict (s : IndexedSchema) (strict : Bool) : IndexedSchema :=
  { s with strict }

/-- The schema of the rows of a subsection. -/
def child (s : IndexedSchema) (t : Tag) : Except Misuse IndexedSchema := do
  s.head.checkTag t .schema
  return (← entry s.subsections t.index).2

/-- The schema with another schema for the rows of the subsection at a place. -/
def setRows (s : IndexedSchema) (index : Nat) (rows : IndexedSchema) : IndexedSchema :=
  { s with subsections := s.subsections.modify index fun sub => (sub.1, rows) }

end IndexedSchema

/-- A schema with tables that is being declared on, and the number of the next schema. -/
structure IndexedScope where
  schema : IndexedSchema
  next : Nat

namespace IndexedScope

/-- The place of a subsection, which is added behind the others if the table does not have its
name. -/
def place (s : IndexedScope) (name : SlotName) : Nat × IndexedScope :=
  match s.schema.subsectionsByName.find? name.text with
  | some index => (index, s)
  | none =>
    let index := s.schema.subsections.length
    let child := IndexedSchema.empty ⟨s.next⟩ (some ⟨s.schema.id, index, name⟩)
    let tag : Tag := ⟨index, name, s.schema.id, child.id⟩
    let schema := { s.schema with
      subsections := s.schema.subsections ++ [(tag, child)],
      subsectionsByName := s.schema.subsectionsByName.enter name.text index }
    (index, ⟨schema, s.next + 1⟩)

/-- Declare a subsection, unless the table has its name, and give its handle and the schema of
its rows. -/
def declareSubsection (s : IndexedScope) (name : SlotName) :
    Except Misuse ((Tag × IndexedSchema) × IndexedScope) := do
  let (index, declared) := s.place name
  return (← IndexedSchema.entry declared.schema.subsections index, declared)

end IndexedScope

end TrustedHtml
