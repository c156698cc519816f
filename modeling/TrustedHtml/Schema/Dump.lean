import TrustedHtml.Schema.Basic

/-!
# Descriptions of Schemas

A schema is described over several lines, its variables and subsections in the order of
their places. The description tells two schemas apart unless they differ only in their
identities.

## Main definitions

* `Text.unlines` — lines, each with its end.
* `Schema.dump` — the description of a schema.
-/

namespace TrustedHtml

namespace Text

/-- The lines of a description, each followed by a line break. -/
def unlines (lines : List String) : String :=
  String.join (lines.map (· ++ "\n"))

/-- The indentation of a description. -/
def tabs (depth : Nat) : String :=
  "".pushn '\t' depth

end Text

namespace Schema

/-- The first line of the description of a schema or of values for it. -/
def headLine (title : String) (s : Schema) : String :=
  let nested := if s.isRoot then "" else s!" (nested, named {Text.quoted s.debugName})"
  s!"{title}\x7b strict={s.strict}{nested}"

/-- The description of the variable at place `index` of `count`. -/
def scalarLine (index count : Nat) (v : Var) : String :=
  s!"var {index + 1}/{count}: {Text.quoted v.name.text}@{v.index} ({v.level})"

mutual

/-- The lines of a description, indented by `depth` tabs. -/
def lines (depth : Nat) : Schema → List String
  | ⟨id, strict, nesting, scalars, subsections⟩ =>
    let indent := Text.tabs depth
    let head := headLine "Schema" ⟨id, strict, nesting, [], []⟩
    let vars := scalars.zipIdx.map fun (v, i) =>
      s!"{indent}\t{scalarLine i scalars.length v}"
    (indent ++ head) :: vars ++ subsectionLines depth 0 subsections.length subsections
      ++ [indent ++ "\x7d"]

/-- The lines for the subsections from place `index` on. -/
def subsectionLines (depth index count : Nat) : List (Tag × Schema) → List String
  | [] => []
  | (_, child) :: rest =>
    s!"{Text.tabs depth}\tnested schema {index + 1}/{count}:" ::
      (lines (depth + 1) child ++ subsectionLines depth (index + 1) count rest)

end

/-- The description of a schema, indented by `depth` tabs. -/
def dump (s : Schema) (depth : Nat) : String :=
  Text.unlines (s.lines depth)

end Schema

end TrustedHtml
