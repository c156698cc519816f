import TrustedHtml.Schema.Handle

/-!
# Misuse

Some conditions are reported not as errors of the data but as mistakes of the program that uses
the library: an empty name, or a handle that belongs to another schema. Of these only an empty
name can come with data.

## Main definitions

* `Misuse` — what the program did wrong.
* `Misuse.message` — the text under which it is reported.
-/

namespace TrustedHtml

/-- What a subsection handle was used with. -/
inductive HandleUser where
  | valueSet
  | schema
deriving DecidableEq, Repr

/-- How the user of a handle is called. -/
def HandleUser.name : HandleUser → String
  | valueSet => "this ValueSet"
  | schema => "the schema"

/-- A mistake of the program. -/
inductive Misuse where
  | emptyVarName
  | emptySubsectionName
  /-- A free variable where an attached one is needed. -/
  | unattachedVar (var : Var)
  /-- A variable of the schema `home`, used with values of another schema. -/
  | foreignVar (var : Var) (home used : SchemaId) (usedName : String)
  /-- A subsection of another schema. -/
  | foreignTag (tag : Tag) (user : HandleUser) (used : SchemaId) (usedName : String)
  /-- A row that was not made for the subsection it is used for. -/
  | foreignRow (tag : Tag) (row : SchemaId) (rowName : String)
  /-- Values that were not made for the template they are rendered with. -/
  | foreignValues (values template : SchemaId)
  /-- A handle to a place that the schema does not have. -/
  | noSuchSlot (index count : Nat)
deriving DecidableEq

/-- The text under which a mistake is reported. -/
def Misuse.message : Misuse → String
  | emptyVarName => "Var name cannot be empty"
  | emptySubsectionName => "subsection name cannot be empty"
  | unattachedVar var =>
    s!"{var.describe} is unattached, used with {HandleUser.valueSet.name} " ++
      "(programmer error: free variables must be attached to a schema)"
  | foreignVar var home used usedName =>
    s!"{var.describe} is bound to schema {home}, {HandleUser.valueSet.name} is from schema " ++
      s!"{used} {Text.quoted usedName} (programmer error: variable used in wrong context)"
  | foreignTag tag user used usedName =>
    s!"{tag.describe} is declared in schema {tag.parent}, {user.name} is from schema {used} " ++
      s!"{Text.quoted usedName} (programmer error: subsection used in wrong context)"
  | foreignRow tag row rowName =>
    s!"row from schema {row} {Text.quoted rowName} used for {tag.describe} " ++
      "(programmer error: row built from the wrong schema)"
  | foreignValues values template =>
    s!"ValueSet of schema {values} rendered with a template of schema {template} " ++
      "(programmer error: values used in wrong context)"
  | noSuchSlot index count =>
    s!"index out of bounds: the len is {count} but the index is {index}"

/-- A free variable with the given name. -/
def Var.free (name : String) : Except Misuse Var :=
  match SlotName.ofString? name with
  | some name => .ok (Var.ofName name)
  | none => .error .emptyVarName

end TrustedHtml
