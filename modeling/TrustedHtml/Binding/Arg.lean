import TrustedHtml.Schema.Handle
import TrustedHtml.Trust.SafeString

/-!
# Bind Arguments

A whole tree of values is bound in one call. Each argument addresses a variable or a
subsection by its handle or by its name, and gives its value or the arguments for each of
its rows.

## Main definitions

* `Key` — a handle or a name.
* `BindArg` — one argument.
* `BindArg.requiring` — an argument with a raised requirement.
* `BindArg.dump`, `BindArg.dumpAll` — descriptions of arguments.
-/

namespace TrustedHtml

/-- How an argument finds its slot. -/
inductive Key (α : Type) where
  | handle (handle : α)
  | name (name : String)
deriving DecidableEq

/-- One value to bind. -/
inductive BindArg where
  /-- A string for a variable; `level` is required in addition to what the slot requires. -/
  | scalar (key : Key Var) (value : SafeString) (level : TrustLevel)
  /-- The rows of a subsection, each of them the arguments for one value set. -/
  | rows (key : Key Tag) (rows : List (List BindArg))

namespace BindArg

/-- Raise the level required for a string. Rows are left as they are. -/
def requiring (level : TrustLevel) : BindArg → BindArg
  | scalar key value required => scalar key value (required.join level)
  | rows key rs => rows key rs

/-- The name that an argument addresses. -/
def name : BindArg → String
  | scalar (.handle v) _ _ => v.name.text
  | scalar (.name n) _ _ => n
  | rows (.handle t) _ => t.name.text
  | rows (.name n) _ => n

/-! ### Descriptions -/

/-- The indentation of a description of arguments. -/
def spaces (depth : Nat) : String :=
  "".pushn ' ' (2 * depth)

mutual

/-- The description of an argument, without a line break at its end. -/
def dump (depth : Nat) : BindArg → String
  | scalar key value level =>
    let addressed := match key with
      | .handle v => s!"var={v.describe}"
      | .name n => s!"named {Text.quoted n}"
    s!"{spaces depth}BindArg\x7b {addressed}, string={value.describe}, req={level} \x7d"
  | rows key rs =>
    let addressed := match key with
      | .handle t => t.describe
      | .name n => s!"named {Text.quoted n}"
    let ending := if rs.isEmpty then "" else spaces depth
    s!"{spaces depth}BindArg\x7b subsection {addressed}, {rs.length} rows"
      ++ dumpRows depth 1 rs.length rs ++ ending ++ "\x7d"

/-- The description of rows, the first of which has the given number. -/
def dumpRows (depth number count : Nat) : List (List BindArg) → String
  | [] => ""
  | row :: rest =>
    s!"\n{spaces depth}  row {number}/{count}:\n" ++ dumpRow depth row
      ++ dumpRows depth (number + 1) count rest

/-- The description of the arguments of a row. -/
def dumpRow (depth : Nat) : List BindArg → String
  | [] => ""
  | arg :: rest => dump (depth + 2) arg ++ "\n" ++ dumpRow depth rest

end

/-- The description of a list of arguments. -/
def dumpAll (args : List BindArg) (depth : Nat) : String :=
  String.join <| args.zipIdx.map fun (arg, i) =>
    s!"{spaces depth}arg {i + 1}/{args.length}:\n{arg.dump (depth + 1)}\n"

end BindArg

end TrustedHtml
