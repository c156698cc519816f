import TrustedHtml.Binding.Bind
import TrustedHtml.Json.Basic

/-!
# Binding JSON Documents

The members of an object are arguments: strings, numbers and truth values are given at one
trust level, a list of objects is the rows of a subsection, and an object is a subsection
with one row. A member that is null is left out.

## Main definitions

* `Json.bindArgs` — the arguments for a document.
* `Schema.bindJson` — binds a document.
-/

namespace TrustedHtml

namespace Json

variable [NumberWriter]

mutual

/-- The argument for the member `name`, if it is not null. -/
def memberArg (level : TrustLevel) (path name : String) : Json → Except BindError (Option BindArg)
  | null => .ok none
  | string s => .ok (some (.scalar (.name name) ⟨level, s⟩ .untrusted))
  | number n => .ok (some (.scalar (.name name) ⟨level, NumberWriter.text n⟩ .untrusted))
  | bool b => .ok (some (.scalar (.name name) ⟨level, boolText b⟩ .untrusted))
  | object members => do
    return some (.rows (.name name) [← memberArgs level path members])
  | array items => do return some (.rows (.name name) (← itemArgs level path 0 items))

/-- The arguments for the members of the object at `path`. -/
def memberArgs (level : TrustLevel) (path : String) :
    List (String × Json) → Except BindError (List BindArg)
  | [] => .ok []
  | (name, value) :: rest => do
    let arg ← memberArg level (path ++ "/" ++ name) name value
    return arg.toList ++ (← memberArgs level path rest)

/-- The arguments for the rows in the list at `path`, from the given place on. -/
def itemArgs (level : TrustLevel) (path : String) (index : Nat) :
    List Json → Except BindError (List (List BindArg))
  | [] => .ok []
  | object members :: rest => do
    let row ← memberArgs level s!"{path}/{index}" members
    return row :: (← itemArgs level path (index + 1) rest)
  | _ :: _ => .error (.document s!"{path}/{index}" .rowNotObject)

end

/-- The arguments for a document, which has to be an object. -/
def bindArgs (level : TrustLevel) : Json → Except BindError (List BindArg)
  | object members => memberArgs level "" members
  | _ => .error (.document "" .rootNotObject)

end Json

/-- A new value set with the values of a document. -/
def Schema.bindJson [UrlReader] [Json.NumberWriter] (s : Schema) (document : Json)
    (level : TrustLevel) : Except Abort ValueSet := do
  let args ← (document.bindArgs level).mapError fun e => .ofCause (.bind e)
  s.bind args

end TrustedHtml
