import TrustedHtml.Proofs.Bound
import TrustedHtml.Node.Basic

/-!
# Going Through Trees and Arguments

What is asked of all strings of a tree, of all its conditions, or of all arguments at every
level of nesting is asked here of a list or of each argument in turn, so that a statement can
say it in one line.

## Main definitions

* `Leaf`, `Node.leaves` — the strings and variables of a tree, with the places they stand at.
* `Node.conditions` — the conditions of a tree.
* `BindArg.AllEverywhere` — something holds of all arguments, those of rows included.

## Main results

* `Binding.mem_of_lastScalar?_eq`, `Binding.mem_of_mem_lastRows`: what is bound in the end was
  among the arguments.
-/

namespace TrustedHtml

/-! ### Trees -/

/-- A string or a variable in a tree. -/
inductive Leaf where
  | attribute (a : Attribute)
  | text (value : Value) (width : Option ℕ)
  | raw (value : Value)

/-- The string or variable that a leaf is. -/
def Leaf.value : Leaf → Value
  | .attribute a => a.value
  | .text value _ => value
  | .raw value => value

namespace Node

mutual

/-- The leaves of a tree, in the order of the page. -/
def leaves : Node → List Leaf
  | .element e contents => e.attributes.map .attribute ++ childLeaves contents
  | .text value width => [.text value width]
  | .raw value => [.raw value]
  | .multi _ contents => childLeaves contents
  | .subsection _ prototype => leaves prototype
  | .switch cases default => caseLeaves cases ++ outputLeaves default

/-- The leaves of children. -/
def childLeaves : List Node → List Leaf
  | [] => []
  | child :: rest => leaves child ++ childLeaves rest

/-- The leaves of cases. -/
def caseLeaves : List (Condition × Option Node) → List Leaf
  | [] => []
  | (_, output) :: rest => outputLeaves output ++ caseLeaves rest

/-- The leaves of an alternative. -/
def outputLeaves : Option Node → List Leaf
  | none => []
  | some output => leaves output

end

mutual

/-- The conditions of a tree, in the order of the page. -/
def conditions : Node → List Condition
  | .element _ contents => childConditions contents
  | .text _ _ => []
  | .raw _ => []
  | .multi _ contents => childConditions contents
  | .subsection _ prototype => conditions prototype
  | .switch cases default => caseConditions cases ++ outputConditions default

/-- The conditions of children. -/
def childConditions : List Node → List Condition
  | [] => []
  | child :: rest => conditions child ++ childConditions rest

/-- The conditions of cases, and those in their outputs. -/
def caseConditions : List (Condition × Option Node) → List Condition
  | [] => []
  | (condition, output) :: rest => condition :: (outputConditions output ++ caseConditions rest)

/-- The conditions of an alternative. -/
def outputConditions : Option Node → List Condition
  | none => []
  | some output => conditions output

end

end Node

/-! ### Arguments -/

namespace BindArg

mutual

/-- `P` holds of an argument and of all arguments in its rows. -/
def Everywhere (P : BindArg → Prop) : BindArg → Prop
  | .scalar key value level => P (.scalar key value level)
  | .rows key given => P (.rows key given) ∧ RowsEverywhere P given

/-- `P` holds of all arguments in rows. -/
def RowsEverywhere (P : BindArg → Prop) : List (List BindArg) → Prop
  | [] => True
  | row :: rest => AllEverywhere P row ∧ RowsEverywhere P rest

/-- `P` holds of all arguments, those of rows included. -/
def AllEverywhere (P : BindArg → Prop) : List BindArg → Prop
  | [] => True
  | arg :: rest => Everywhere P arg ∧ AllEverywhere P rest

end

variable {P : BindArg → Prop} {args : List BindArg} {given : List (List BindArg)}

/-- It holds of each of the arguments. -/
theorem AllEverywhere.of_mem : ∀ {args : List BindArg}, AllEverywhere P args →
    ∀ {arg}, arg ∈ args → arg.Everywhere P
  | arg :: rest, h, other, hmem => by
      rw [AllEverywhere] at h
      obtain rfl | hmem := List.mem_cons.mp hmem
      · exact h.1
      · exact AllEverywhere.of_mem h.2 hmem

/-- It holds of the arguments of each row. -/
theorem RowsEverywhere.of_mem : ∀ {given : List (List BindArg)}, RowsEverywhere P given →
    ∀ {row}, row ∈ given → AllEverywhere P row
  | row :: rest, h, other, hmem => by
      rw [RowsEverywhere] at h
      obtain rfl | hmem := List.mem_cons.mp hmem
      · exact h.1
      · exact RowsEverywhere.of_mem h.2 hmem

/-- What `Q` needs to hold of all arguments of which `P` holds everywhere: it holds of strings,
and of rows if it holds of all arguments in them. -/
structure Inductive (P Q : BindArg → Prop) : Prop where
  scalar : ∀ key value level, P (.scalar key value level) → Q (.scalar key value level)
  rows : ∀ key given, P (.rows key given) → (∀ row ∈ given, ∀ arg ∈ row, Q arg) →
    Q (.rows key given)

mutual

/-- **Induction over an argument.** -/
theorem Inductive.holds {P Q : BindArg → Prop} (hind : Inductive P Q) : ∀ arg : BindArg,
    arg.Everywhere P → Q arg
  | .scalar key value level, h => hind.scalar key value level h
  | .rows key given, h => hind.rows key given h.1 (hind.holds_rows given h.2)

/-- Induction over the arguments of rows. -/
theorem Inductive.holds_rows {P Q : BindArg → Prop} (hind : Inductive P Q) :
    ∀ given : List (List BindArg), RowsEverywhere P given → ∀ row ∈ given, ∀ arg ∈ row, Q arg
  | [], _ => nofun
  | row :: rest, h => List.forall_mem_cons.mpr
      ⟨hind.holds_all row h.1, hind.holds_rows rest h.2⟩

/-- **Induction over arguments.** -/
theorem Inductive.holds_all {P Q : BindArg → Prop} (hind : Inductive P Q) :
    ∀ args : List BindArg, AllEverywhere P args → ∀ arg ∈ args, Q arg
  | [], _ => nofun
  | arg :: rest, h => List.forall_mem_cons.mpr ⟨hind.holds arg h.1, hind.holds_all rest h.2⟩

end

end BindArg

namespace Binding

variable {s : Schema} {i : ℕ} {args : List BindArg}

/-- The last string for a place is that of an argument. -/
theorem mem_of_lastScalar?_eq {value : SafeString} {level : TrustLevel}
    (h : lastScalar? s i args = some (value, level)) :
    ∃ key, BindArg.scalar key value level ∈ args := by
  obtain ⟨arg, hmem, hfor⟩ := List.mem_filterMap.mp (List.mem_of_getLast? h)
  cases arg with
  | rows key given => cases hfor
  | scalar key other extra =>
      rw [BindArg.scalarFor?] at hfor
      split at hfor
      · split at hfor
        · cases hfor
          exact ⟨key, hmem⟩
        · cases hfor
      · cases hfor

/-- The last rows for a subsection are those of an argument. -/
theorem mem_of_mem_lastRows {row : List BindArg} (h : row ∈ lastRows s i args) :
    ∃ key given, BindArg.rows key given ∈ args ∧ row ∈ given := by
  rw [lastRows] at h
  cases hlast : (args.filterMap (·.rowsFor? s i)).getLast? with
  | none =>
      rw [hlast] at h
      cases h
  | some last =>
      rw [hlast] at h
      obtain ⟨arg, hmem, hfor⟩ := List.mem_filterMap.mp (List.mem_of_getLast? hlast)
      cases arg with
      | scalar key value level => cases hfor
      | rows key given =>
          rw [BindArg.rowsFor?] at hfor
          split at hfor
          · split at hfor
            · cases hfor
              exact ⟨key, last, hmem, h⟩
            · cases hfor
          · cases hfor

/-- What holds of all arguments holds of those in the last rows for a subsection. -/
theorem everywhere_lastRows {P : BindArg → Prop} (h : BindArg.AllEverywhere P args) :
    ∀ row ∈ lastRows s i args, BindArg.AllEverywhere P row := by
  intro row hrow
  obtain ⟨key, given, hmem, hgiven⟩ := mem_of_mem_lastRows hrow
  have harg := h.of_mem hmem
  rw [BindArg.Everywhere] at harg
  exact harg.2.of_mem hgiven

end Binding

end TrustedHtml
