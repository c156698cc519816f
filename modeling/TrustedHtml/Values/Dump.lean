import TrustedHtml.Schema.Dump
import TrustedHtml.Values.Basic

/-!
# Descriptions of Value Sets

A value set is described like its schema, with the value under each variable and the rows
under each subsection.

## Main definitions

* `ValueSet.lines` — the lines of a description.
* `ValueSet.dump` — the description of a value set.
-/

namespace TrustedHtml.ValueSet

/-- How a value is described. -/
def valueLine (value : String) : String :=
  if value = "" then "(empty)" else s!"string {Text.quoted value}"

/-- The lines for the variables. -/
def scalarLines (indent : String) (vars : List Var) (valueAt : Nat → String) : List String :=
  vars.zipIdx.flatMap fun (v, i) =>
    [s!"{indent}\t{Schema.scalarLine i vars.length v}",
      s!"{indent}\t\t{valueLine (valueAt v.index)}"]

/-- The lines for the subsections, where `blocks` are the lines for the rows, by place. -/
def subsectionLines (indent : String) (tags : List Tag) (blocks : List (List String)) :
    List String :=
  tags.zipIdx.flatMap fun (t, i) =>
    s!"{indent}\tnested schema {i + 1}/{tags.length} {Text.quoted t.name.text}@{t.index}:" ::
      (blocks[t.index]?.getD [s!"{indent}\t\t(empty)"])

mutual

/-- The lines of a description, indented by `depth` tabs. -/
def lines (depth : Nat) : ValueSet → List String
  | ⟨schema, values, streams⟩ =>
    let indent := Text.tabs depth
    (indent ++ Schema.headLine "ValueSet" schema)
      :: scalarLines indent schema.scalars (fun i => values[i]?.getD "")
      ++ subsectionLines indent (schema.subsections.map (·.1)) (streamBlocks depth streams)
      ++ [indent ++ "\x7d"]

/-- The lines for the rows of each subsection. -/
def streamBlocks (depth : Nat) : List (Option (RowStream ValueSet)) → List (List String)
  | [] => []
  | none :: rest => [Text.tabs depth ++ "\t\t(empty)"] :: streamBlocks depth rest
  | some ⟨rows, failure⟩ :: rest =>
    let shown := rowLines depth 1 rows
    let ending :=
      match failure with
      | some f => [s!"{Text.tabs depth}\t\t(stream failed: {f.headline})"]
      | none => if rows.isEmpty then [Text.tabs depth ++ "\t\t(empty)"] else []
    (shown ++ ending) :: streamBlocks depth rest

/-- The lines for rows, the first of which has the given number. -/
def rowLines (depth number : Nat) : List ValueSet → List String
  | [] => []
  | row :: rest =>
    s!"{Text.tabs depth}\tinstantiation (ValueSet) #{number}:" ::
      (lines (depth + 2) row ++ rowLines depth (number + 1) rest)

end

/-- The description of a value set, indented by `depth` tabs. -/
def dump (vs : ValueSet) (depth : Nat) : String :=
  Text.unlines (vs.lines depth)

end TrustedHtml.ValueSet
