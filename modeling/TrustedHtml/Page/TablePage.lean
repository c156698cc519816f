import TrustedHtml.Node.Builder
import TrustedHtml.Template.Compile
import TrustedHtml.Template.Render

/-!
# The Page of a Table

A page with one big table of many small rows.

## Main definitions

* `TablePage.node` — the page as a tree.
* `TablePage.args` — the arguments for a number of rows.
* `TablePage.render` — writes the page.
-/

namespace TrustedHtml.TablePage

/-- A cell that is bound later. -/
def cell (name : String) (name_ne : name ≠ "" := by simp) : Content :=
  .node (.ofElement "td" [.node (.ofText (.named name name_ne))])

/-- The page. -/
def node : Node :=
  let rows := Node.subsection "rows" (.ofElement "tr" [cell "label", cell "state"])
  .htmlPage (.head [.node (.ofElement "title" [.node (.literal "Test page")])])
    (.ofElement "body" [.node (.ofElement "table" [.node (.ofElement "tbody" [.node rows])])])
    []

/-- Whether the row of the given number is on. -/
def isOn (number : Int) : Bool :=
  Float.sin (Float.ofInt number * 0.1) > 0.432

/-- The arguments for the row of the given number, displayed as shifted by `counter`. -/
def rowArgs (counter number : Int) : Except Overflow (List BindArg) := do
  let state := if isOn number then "on" else "off"
  let shifted ← Counter.addSigned number counter
  return [.scalar (.name "label") (.untrusted s!"{counter}abc") .untrusted,
    .scalar (.name "state") (.untrusted s!"{shifted} - {state}") .untrusted]

/-- The arguments for a table. Its rows are numbered from 100 on. -/
def args (counter : Int) (count : Nat) : Except Overflow (List BindArg) := do
  let stop ← Counter.addSigned 100 (Counter.toSigned count)
  let numbers := (List.range (stop - 100).toNat).map fun (i : Nat) => 100 + (i : Int)
  return [.rows (.name "rows") (← numbers.mapM (rowArgs counter))]

/-- Write the page, with a new schema. -/
def render [UrlReader] (o : LayoutOptions) (counter : Int) (count next : Nat) : Delivery :=
  match (node.compile o (.newRoot next)).1 with
  | .error e => ⟨"", some e⟩
  | .ok template =>
    match args counter count with
    | .error o => ⟨"", some (.overflow o)⟩
    | .ok args => template.generate args none

end TrustedHtml.TablePage
