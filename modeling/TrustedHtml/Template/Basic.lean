import TrustedHtml.Schema.Dump
import TrustedHtml.Template.Program

/-!
# Templates

## Main definitions

* `Template` — a program with the schema of its values.
* `Template.dump` — the description of a template.
-/

namespace TrustedHtml

/-- A compiled tree with the schema of its values. -/
structure Template where
  schema : Schema
  program : Program

/-- The description of a template, indented by `depth` tabs. -/
def Template.dump (t : Template) (depth : Nat) : String :=
  let indent := Text.tabs depth
  Text.unlines <| [indent ++ "Template\x7b"] ++ t.program.lines (depth + 1)
    ++ [indent ++ "\t-- bindings follow after this line --"]
    ++ t.schema.lines (depth + 1) ++ [indent ++ "\x7d"]

end TrustedHtml
