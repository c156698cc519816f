import TrustedHtml.Binding.Arg
import TrustedHtml.Values.Basic

/-!
# Binding

Arguments are applied to a value set one after the other. A variable is found by its handle
if that belongs to the schema, and otherwise by its name; a subsection handle has to belong
to the schema. A name that is not declared is an error if the schema is strict, and has no
effect otherwise. An argument that fails changes nothing, and those after it are not applied.

## Main definitions

* `Binding.resolveVar?`, `Binding.resolveTag?` — the slots that keys address.
* `ValueSet.bindInto` — applies arguments, and says what stopped it.
* `Schema.bind` — a new value set with arguments applied.
-/

namespace TrustedHtml

namespace Binding

/-- The variable that a key addresses. -/
def resolveVar? (s : Schema) : Key Var → Option Var
  | .handle v => if v.schema = some s.id then some v else s.scalar? v.name.text
  | .name n => s.scalar? n

/-- The subsection that a key addresses. -/
def resolveTag? (s : Schema) : Key Tag → Except Abort (Option Tag)
  | .handle t =>
    if t.parent = s.id then .ok (some t)
    else .error (.ofCause (.bind (.foreignSubsection t.name.text)))
  | .name n => .ok (s.subsection? n)

/-- A name that is not declared, for a value set that it leaves as it is. -/
def undeclared (vs : ValueSet) (kind : SlotKind) (name : String) : Except Abort ValueSet :=
  if vs.schema.strict then .error (.ofCause (.bind (.undefined kind name))) else .ok vs

variable [UrlReader]

mutual

/-- Apply one argument. -/
def applyArg (vs : ValueSet) : BindArg → Except Abort ValueSet
  | .scalar key value level =>
    match resolveVar? vs.schema key with
    | some v => vs.setScalarRequiring v value level
    | none => undeclared vs .var (BindArg.scalar key value level).name
  | .rows key rows => do
    match ← resolveTag? vs.schema key with
    | some t =>
      let child ← (vs.schema.child t).mapError .misuse
      let series ← applyRows child t.name.text 1 rows.length rows
      (vs.setRows t series).mapError .misuse
    | none => undeclared vs .subsection (BindArg.rows key rows).name

/-- The value sets for rows, the first of which has the given number. -/
def applyRows (child : Schema) (subsection : String) (number count : Nat) :
    List (List BindArg) → Except Abort (List ValueSet)
  | [] => .ok []
  | row :: rest => do
    let (vs, stopped) := applyAll child.valueSet row
    match stopped with
    | some e => throw (e.within (.row number count subsection))
    | none => return vs :: (← applyRows child subsection (number + 1) count rest)

/-- Apply arguments in order, up to one that fails. -/
def applyAll (vs : ValueSet) : List BindArg → ValueSet × Option Abort
  | [] => (vs, none)
  | arg :: rest =>
    match applyArg vs arg with
    | .ok vs => applyAll vs rest
    | .error e => (vs, some e)

end

end Binding

variable [UrlReader]

/-- Apply arguments to a value set. If one of them fails, those before it stay applied. -/
def ValueSet.bindInto (vs : ValueSet) (args : List BindArg) : ValueSet × Option Abort :=
  Binding.applyAll vs args

/-- A new value set with arguments applied. -/
def Schema.bind (s : Schema) (args : List BindArg) : Except Abort ValueSet :=
  match s.valueSet.bindInto args with
  | (vs, none) => .ok vs
  | (_, some e) => .error e

end TrustedHtml
