import TrustedHtml.Node.Builder
import TrustedHtml.Proofs.Uses
import TrustedHtml.Url.Web

/-!
# Violations

A tree is not compiled if something in it is not as it has to be: an error was kept when it was
built, a name cannot be written, an element without a closing tag has contents, or a string that
is known does not meet the requirement of its place. Values that are bound later are never at
fault here, and neither are attributes that a later one of the same name replaces.

What is wrong in a tree is told in two ways. `Node.Violates` says of a failure that its steps
lead from the root of the tree to the place where its cause is found, with the places among
siblings given by their index. `Node.violations` lists all of them in the order of the tree. The
two agree, and what compiling reports is the head of the list.

## Main definitions

* `Node.Violates`: something is wrong at the end of a path.
* `Node.violations`: everything that is wrong, in the order of the tree.

## Main results

* `Node.mem_violations_iff`: **the list is complete**, and its steps are the way to the place.
* `Node.compile_violations`: **compiling fails with the first violation**, if there is one.
-/

namespace TrustedHtml

/-! ### Names -/

/-- A name that can be written into a page. -/
def IsPlainName (name : String) : Prop :=
  name ≠ "" ∧ ∀ c ∈ name.toList, isNameChar c = true

instance (name : String) : Decidable (IsPlainName name) :=
  inferInstanceAs (Decidable (_ ∧ _))

/-- A name is accepted if it is plain. -/
theorem SlotName.checked_cases (kind : NameKind) (name : String) :
    (IsPlainName name ∧ ∃ slot, checked kind name = .ok slot) ∨
      (¬ IsPlainName name ∧ checked kind name = .error (.invalidName kind name)) := by
  rw [checked, ofString?]
  by_cases hempty : name = ""
  · rw [dif_pos hempty]
    exact .inr ⟨fun h => h.1 hempty, rfl⟩
  · rw [dif_neg hempty]
    dsimp only
    by_cases hall : ∀ c ∈ name.toList, isNameChar c = true
    · rw [if_pos (List.all_eq_true.mpr hall)]
      exact .inl ⟨⟨hempty, hall⟩, _, rfl⟩
    · rw [if_neg fun h => hall (List.all_eq_true.mp h)]
      exact .inr ⟨fun h => hall h.2, rfl⟩

/-- A failure described as having arisen at `step`. -/
def Failure.within (step : Step) (f : Failure) : Failure :=
  { f with steps := step :: f.steps }

/-! ### The first of several failures -/

namespace Verdict

/-- The verdict that the first of several failures is. -/
def ofFirst : List Failure → Verdict
  | [] => .ok ()
  | f :: _ => .error (.failure f)

/-- The first of failures that follow each other. -/
theorem ofFirst_append (found later : List Failure) :
    ofFirst (found ++ later) = (do ofFirst found; ofFirst later) := by
  cases found <;> rfl

/-- The first failure within a part of a tree. -/
theorem ofFirst_within (step : Step) (found : List Failure) :
    ofFirst (found.map (.within step)) = Except.within step (ofFirst found) := by
  cases found <;> rfl

end Verdict

/-! ### What can be wrong at one place -/

/-- What is wrong with a name. -/
def nameFaults (kind : NameKind) (name : String) : List Cause :=
  if IsPlainName name then [] else [.structural (.invalidName kind name)]

/-- What is wrong with an element itself: an error that was kept, then its name, then contents
that it cannot have. -/
def Element.faults (e : Element) (contents : List Node) : List Cause :=
  (e.error.map Cause.structural).toList ++ nameFaults .element e.name ++
    if e.isClosed ∧ contents ≠ [] then [.structural (.selfClosingWithContents e.name)] else []

/-- The verdict about a name. -/
theorem ofStructure_checked (kind : NameKind) (name : String) :
    Verdict.ofStructure (SlotName.checked kind name) =
      Verdict.ofFirst ((nameFaults kind name).map .ofCause) := by
  rw [nameFaults]
  obtain ⟨hplain, slot, hchecked⟩ | ⟨hplain, hchecked⟩ := SlotName.checked_cases kind name
  · rw [hchecked, if_pos hplain]
    rfl
  · rw [hchecked, if_neg hplain]
    rfl

namespace Element

/-- The verdict about an element itself. -/
theorem ofStructure_check (e : Element) (contents : List Node) :
    Verdict.ofStructure (e.check contents) =
      Verdict.ofFirst ((e.faults contents).map .ofCause) := by
  rw [check, faults]
  cases e.error with
  | some error => rfl
  | none =>
      obtain ⟨hplain, slot, hchecked⟩ | ⟨hplain, hchecked⟩ :=
        SlotName.checked_cases .element e.name
      · rw [hchecked, nameFaults, if_pos hplain]
        by_cases hcontents : e.isClosed ∧ contents ≠ []
        · have hboth : (e.isClosed && !contents.isEmpty) = true := by simpa using hcontents
          rw [if_pos hcontents]
          simp only [hboth, if_pos]
          rfl
        · have hboth : (e.isClosed && !contents.isEmpty) = false := by simpa using hcontents
          rw [if_neg hcontents]
          simp only [hboth, Bool.false_eq_true, if_false]
          rfl
      · rw [hchecked, nameFaults, if_neg hplain]
        rfl

/-- Where nothing is wrong with an element without a closing tag, it has no contents. -/
theorem contents_eq_nil_of_faults {e : Element} {contents : List Node}
    (hclosed : e.isClosed = true) (h : e.faults contents = []) : contents = [] := by
  rw [faults, List.append_eq_nil_iff] at h
  by_contra hcontents
  rw [if_pos ⟨hclosed, hcontents⟩] at h
  cases h.2

end Element

section

variable [UrlReader]

/-- What is wrong with a value at a place that requires `level`. -/
def Value.faults (level : TrustLevel) : Value → List Cause
  | .concrete s =>
      match s.check level with
      | .ok _ => []
      | .error e => [.trust e]
  | .deferred _ => []

/-- What is wrong with an attribute: its name, and then its value. -/
def Attribute.faults (a : Attribute) : List Cause :=
  nameFaults .attribute a.name ++ a.value.faults a.required

namespace Node

/-- What is wrong with a node itself, apart from the nodes and the attributes in it. -/
def faults : Node → List Cause
  | .element e contents => e.faults contents
  | .text value _ => value.faults .textSafe
  | .raw value => value.faults .htmlSafe
  | .multi error _ => (error.map Cause.structural).toList
  | .subsection name _ => nameFaults .subsection name
  | .switch _ _ => []

/-! ### What is wrong in a tree -/

/-- **Something is wrong in a tree**: a failure whose steps lead, outermost first, from the tree
to the place where its cause is found. -/
inductive Violates : Node → Failure → Prop
  | here {node : Node} {cause : Cause} (h : cause ∈ node.faults) : Violates node (.ofCause cause)
  | inAttribute {e : Element} {contents : List Node} {a : Attribute} {cause : Cause}
      (ha : a ∈ Attribute.lastOfEachName e.attributes) (h : cause ∈ a.faults) :
      Violates (.element e contents) ((Failure.ofCause cause).within (.attribute a.name e.name))
  | inElement {e : Element} {contents : List Node} {child : Node} {i : ℕ} {f : Failure}
      (hi : contents[i]? = some child) (h : Violates child f) :
      Violates (.element e contents) (f.within (.child (i + 1) (.element e.name)))
  | inGroup {error : Option StructureError} {contents : List Node} {child : Node} {i : ℕ}
      {f : Failure} (hi : contents[i]? = some child) (h : Violates child f) :
      Violates (.multi error contents) (f.within (.child (i + 1) .multi))
  | inPrototype {name : String} {node : Node} {f : Failure} (h : Violates node f) :
      Violates (.subsection name node) (f.within (.subsection name))
  | inCase {cases : List (Condition × Option Node)} {default : Option Node} {condition : Condition}
      {output : Node} {i : ℕ} {f : Failure} (hi : cases[i]? = some (condition, some output))
      (h : Violates output f) :
      Violates (.switch cases default) (f.within (.case (i + 1) cases.length))
  | inDefault {cases : List (Condition × Option Node)} {output : Node} {f : Failure}
      (h : Violates output f) :
      Violates (.switch cases (some output)) (f.within .defaultCase)

mutual

/-- **Everything that is wrong in a tree**, in the order of the tree. -/
def violations : Node → List Failure
  | .element e contents =>
      (e.faults contents).map .ofCause
        ++ ((Attribute.lastOfEachName e.attributes).flatMap fun a =>
          a.faults.map fun cause => (Failure.ofCause cause).within (.attribute a.name e.name))
        ++ childViolations (.element e.name) 1 contents
  | .text value _ => (value.faults .textSafe).map .ofCause
  | .raw value => (value.faults .htmlSafe).map .ofCause
  | .multi error contents =>
      (error.map Cause.structural).toList.map .ofCause ++ childViolations .multi 1 contents
  | .subsection name prototype =>
      (nameFaults .subsection name).map .ofCause
        ++ (violations prototype).map (.within (.subsection name))
  | .switch cases default => caseViolations 1 cases.length cases ++ defaultViolations default

/-- Everything that is wrong in children, the first of which has the given number. -/
def childViolations (parent : Parent) (number : ℕ) : List Node → List Failure
  | [] => []
  | child :: rest =>
      (violations child).map (.within (.child number parent))
        ++ childViolations parent (number + 1) rest

/-- Everything that is wrong in cases, the first of which has the given number. -/
def caseViolations (number count : ℕ) : List (Condition × Option Node) → List Failure
  | [] => []
  | (_, none) :: rest => caseViolations (number + 1) count rest
  | (_, some output) :: rest =>
      (violations output).map (.within (.case number count))
        ++ caseViolations (number + 1) count rest

/-- Everything that is wrong in the default of a switch. -/
def defaultViolations : Option Node → List Failure
  | none => []
  | some output => (violations output).map (.within .defaultCase)

end

end Node

/-! ### Verdicts and violations -/

open Verdict

/-- The verdict about a value. -/
theorem Value.verify_eq (level : TrustLevel) (value : Value) :
    value.verify level = ofFirst ((value.faults level).map .ofCause) := by
  cases value with
  | deferred v => rfl
  | concrete s =>
      rw [verify, faults]
      cases s.check level <;> rfl

/-- The verdict about an attribute. -/
theorem Attribute.verify_eq (a : Attribute) :
    a.verify = ofFirst (a.faults.map .ofCause) := by
  rw [verify, faults, List.map_append, ofFirst_append, ofStructure_checked, Value.verify_eq]

namespace Element

/-- The verdict about attributes. -/
theorem verifyAttributes_eq (e : Element) : ∀ attributes : List Attribute,
    e.verifyAttributes attributes = ofFirst (attributes.flatMap fun a =>
      a.faults.map fun cause => (Failure.ofCause cause).within (.attribute a.name e.name))
  | [] => rfl
  | a :: rest => by
      rw [verifyAttributes, List.flatMap_cons, ofFirst_append, verifyAttributes_eq e rest,
        a.verify_eq, ← ofFirst_within, List.map_map]
      rfl

end Element

namespace Node

mutual

/-- **The verdict about a tree is its first violation.** -/
theorem verify_eq : ∀ node : Node, node.verify = ofFirst node.violations
  | .element e contents => by
      have hchildren := verifyChildren_eq (.element e.name) 1 contents
      rw [verify, violations, ofFirst_append, ofFirst_append, ← e.ofStructure_check,
        Element.verify, e.verifyAttributes_eq, hchildren]
      cases hclosed : e.isClosed with
      | false => simp
      | true =>
          rw [if_pos rfl, e.ofStructure_check]
          cases hfaults : e.faults contents with
          | nil =>
              obtain rfl := Element.contents_eq_nil_of_faults hclosed hfaults
              simp [childViolations, ofFirst]
          | cons cause later => rfl
  | .text value _ => by rw [verify, violations, value.verify_eq]
  | .raw value => by rw [verify, violations, value.verify_eq]
  | .multi (some error) contents => rfl
  | .multi none contents => verifyChildren_eq .multi 1 contents
  | .subsection name prototype => by
      rw [verify, violations, ofFirst_append, ofFirst_within, ofStructure_checked,
        verify_eq prototype]
  | .switch cases default => by
      rw [verify, violations, ofFirst_append, verifyCases_eq, verifyDefault_eq]

/-- The verdict about children is their first violation. -/
theorem verifyChildren_eq (parent : Parent) (number : ℕ) : ∀ contents : List Node,
    verifyChildren parent number contents = ofFirst (childViolations parent number contents)
  | [] => rfl
  | child :: rest => by
      rw [verifyChildren, childViolations, ofFirst_append, ofFirst_within,
        verify_eq child, verifyChildren_eq parent (number + 1) rest]

/-- The verdict about cases is their first violation. -/
theorem verifyCases_eq (number count : ℕ) : ∀ cases : List (Condition × Option Node),
    verifyCases number count cases = ofFirst (caseViolations number count cases)
  | [] => rfl
  | (_, none) :: rest => verifyCases_eq (number + 1) count rest
  | (_, some output) :: rest => by
      rw [verifyCases, caseViolations, ofFirst_append, ofFirst_within,
        verify_eq output, verifyCases_eq (number + 1) count rest]

/-- The verdict about a default is its first violation. -/
theorem verifyDefault_eq : ∀ default : Option Node,
    verifyDefault default = ofFirst (defaultViolations default)
  | none => rfl
  | some output => by
      rw [verifyDefault, defaultViolations, ofFirst_within, verify_eq output]

end

/-! ### The list is complete -/

mutual

/-- What is listed is wrong in the tree. -/
theorem violates_of_mem : ∀ {node : Node} {f : Failure}, f ∈ node.violations → node.Violates f
  | .element e contents, f, h => by
      rw [violations, List.mem_append, List.mem_append] at h
      obtain (h | h) | h := h
      · obtain ⟨cause, hcause, rfl⟩ := List.mem_map.mp h
        exact .here hcause
      · obtain ⟨a, ha, h⟩ := List.mem_flatMap.mp h
        obtain ⟨cause, hcause, rfl⟩ := List.mem_map.mp h
        exact .inAttribute ha hcause
      · obtain ⟨i, child, inner, hi, hinner, rfl⟩ := violates_of_mem_children h
        rw [Nat.add_comm]
        exact .inElement hi hinner
  | .text value width, f, h => by
      obtain ⟨cause, hcause, rfl⟩ := List.mem_map.mp h
      exact .here hcause
  | .raw value, f, h => by
      obtain ⟨cause, hcause, rfl⟩ := List.mem_map.mp h
      exact .here hcause
  | .multi error contents, f, h => by
      rw [violations, List.mem_append] at h
      obtain h | h := h
      · obtain ⟨cause, hcause, rfl⟩ := List.mem_map.mp h
        exact .here hcause
      · obtain ⟨i, child, inner, hi, hinner, rfl⟩ := violates_of_mem_children h
        rw [Nat.add_comm]
        exact .inGroup hi hinner
  | .subsection name prototype, f, h => by
      rw [violations, List.mem_append] at h
      obtain h | h := h
      · obtain ⟨cause, hcause, rfl⟩ := List.mem_map.mp h
        exact .here hcause
      · obtain ⟨inner, hinner, rfl⟩ := List.mem_map.mp h
        exact .inPrototype (violates_of_mem hinner)
  | .switch cases default, f, h => by
      rw [violations, List.mem_append] at h
      obtain h | h := h
      · obtain ⟨i, condition, output, inner, hi, hinner, rfl⟩ := violates_of_mem_cases h
        rw [Nat.add_comm]
        exact .inCase hi hinner
      · obtain ⟨output, inner, rfl, hinner, rfl⟩ := violates_of_mem_default h
        exact .inDefault hinner

/-- What is listed of children is wrong in one of them. -/
theorem violates_of_mem_children : ∀ {parent : Parent} {number : ℕ} {contents : List Node}
    {f : Failure}, f ∈ childViolations parent number contents →
      ∃ i child inner, contents[i]? = some child ∧ Violates child inner ∧
        f = inner.within (.child (number + i) parent)
  | parent, number, child :: rest, f, h => by
      rw [childViolations, List.mem_append] at h
      obtain h | h := h
      · obtain ⟨inner, hinner, rfl⟩ := List.mem_map.mp h
        exact ⟨0, child, inner, rfl, violates_of_mem hinner, rfl⟩
      · obtain ⟨i, other, inner, hi, hinner, rfl⟩ := violates_of_mem_children h
        exact ⟨i + 1, other, inner, hi, hinner, by rw [Nat.add_right_comm, Nat.add_assoc]⟩

/-- What is listed of cases is wrong in the output of one of them. -/
theorem violates_of_mem_cases : ∀ {number count : ℕ} {cases : List (Condition × Option Node)}
    {f : Failure}, f ∈ caseViolations number count cases →
      ∃ i condition output inner, cases[i]? = some (condition, some output) ∧
        Violates output inner ∧ f = inner.within (.case (number + i) count)
  | number, count, (_, none) :: rest, f, h => by
      rw [caseViolations] at h
      obtain ⟨i, condition, other, inner, hi, hinner, rfl⟩ := violates_of_mem_cases h
      exact ⟨i + 1, condition, other, inner, hi, hinner,
        by rw [Nat.add_right_comm, Nat.add_assoc]⟩
  | number, count, (condition, some output) :: rest, f, h => by
      rw [caseViolations, List.mem_append] at h
      obtain h | h := h
      · obtain ⟨inner, hinner, rfl⟩ := List.mem_map.mp h
        exact ⟨0, condition, output, inner, rfl, violates_of_mem hinner, rfl⟩
      · obtain ⟨i, other, node, inner, hi, hinner, rfl⟩ := violates_of_mem_cases h
        exact ⟨i + 1, other, node, inner, hi, hinner,
          by rw [Nat.add_right_comm, Nat.add_assoc]⟩

/-- What is listed of a default is wrong in its output. -/
theorem violates_of_mem_default : ∀ {default : Option Node} {f : Failure},
    f ∈ defaultViolations default →
      ∃ output inner, default = some output ∧ Violates output inner ∧
        f = inner.within .defaultCase
  | some output, f, h => by
      obtain ⟨inner, hinner, rfl⟩ := List.mem_map.mp h
      exact ⟨output, inner, rfl, violates_of_mem hinner, rfl⟩

end

/-- What is wrong in a child is listed of the children. -/
theorem mem_childViolations {parent : Parent} {number i : ℕ} {contents : List Node} {child : Node}
    {inner : Failure} (hi : contents[i]? = some child) (h : inner ∈ child.violations) :
    inner.within (.child (number + i) parent) ∈ childViolations parent number contents := by
  induction contents generalizing number i with
  | nil => cases hi
  | cons first rest ih =>
      rw [childViolations, List.mem_append]
      cases i with
      | zero =>
          obtain rfl : first = child := Option.some.inj hi
          exact .inl (List.mem_map_of_mem h)
      | succ i =>
          have hlater := @ih (number + 1) i hi
          rw [Nat.add_right_comm, Nat.add_assoc] at hlater
          exact .inr hlater

/-- What is wrong in the output of a case is listed of the cases. -/
theorem mem_caseViolations {number count i : ℕ} {cases : List (Condition × Option Node)}
    {condition : Condition} {output : Node} {inner : Failure}
    (hi : cases[i]? = some (condition, some output)) (h : inner ∈ output.violations) :
    inner.within (.case (number + i) count) ∈ caseViolations number count cases := by
  induction cases generalizing number i with
  | nil => cases hi
  | cons first rest ih =>
      cases i with
      | zero =>
          obtain rfl : first = (condition, some output) := Option.some.inj hi
          rw [caseViolations, List.mem_append]
          exact .inl (List.mem_map_of_mem h)
      | succ i =>
          have hlater := @ih (number + 1) i hi
          rw [Nat.add_right_comm, Nat.add_assoc] at hlater
          obtain ⟨_, _ | other⟩ := first
          · exact hlater
          · rw [caseViolations, List.mem_append]
            exact .inr hlater

/-- What is wrong with a node itself is listed. -/
theorem mem_violations_of_mem_faults {node : Node} {cause : Cause} (h : cause ∈ node.faults) :
    Failure.ofCause cause ∈ node.violations := by
  have hmem : Failure.ofCause cause ∈ node.faults.map .ofCause := List.mem_map_of_mem h
  cases node with
  | element e contents => exact List.mem_append_left _ (List.mem_append_left _ hmem)
  | text value width => exact hmem
  | raw value => exact hmem
  | multi error contents => exact List.mem_append_left _ hmem
  | subsection name prototype => exact List.mem_append_left _ hmem
  | switch cases default => cases hmem

/-- **The list is complete**: a failure is listed if and only if its steps lead to the place of
its cause. -/
theorem mem_violations_iff {node : Node} {f : Failure} :
    f ∈ node.violations ↔ node.Violates f := by
  refine ⟨violates_of_mem, fun h => ?_⟩
  induction h with
  | here h => exact mem_violations_of_mem_faults h
  | inAttribute ha h =>
      refine List.mem_append_left _ (List.mem_append_right _ ?_)
      exact List.mem_flatMap.mpr ⟨_, ha, List.mem_map_of_mem h⟩
  | inElement hi _ ih =>
      rw [Nat.add_comm]
      exact List.mem_append_right _ (mem_childViolations hi ih)
  | inGroup hi _ ih =>
      rw [Nat.add_comm]
      exact List.mem_append_right _ (mem_childViolations hi ih)
  | inPrototype _ ih => exact List.mem_append_right _ (List.mem_map_of_mem ih)
  | inCase hi _ ih =>
      rw [Nat.add_comm]
      exact List.mem_append_left _ (mem_caseViolations hi ih)
  | inDefault _ ih => exact List.mem_append_right _ (List.mem_map_of_mem ih)

/-! ### Compiling -/

/-- **Compiling fails with the first violation.** Whatever the layout, and whatever is declared
already, and unless a counter overflows, a tree is refused if and only if something is wrong in
it, and then for what is wrong first in the order of the tree, with the steps that lead to the
place of it. -/
theorem compile_violations {node : Node} {o : LayoutOptions} {scope : Scope}
    (hcounters : ∀ x, (node.compile o scope).1 ≠ .error (.overflow x)) :
    ((∃ e, (node.compile o scope).1 = .error e) ↔ ∃ f, node.Violates f) ∧
      ∀ e, (node.compile o scope).1 = .error e →
        ∃ first later, node.violations = first :: later ∧ node.Violates first ∧
          e = .failure first := by
  cases hviolations : node.violations with
  | nil =>
      have hverify : node.verify = .ok () := by rw [verify_eq, hviolations]; rfl
      obtain ⟨t, next, hcompile⟩ := compile_of_verify_eq_ok hcounters hverify
      refine ⟨⟨?_, ?_⟩, ?_⟩
      · rintro ⟨e, he⟩
        rw [hcompile] at he
        cases he
      · rintro ⟨f, hf⟩
        rw [← mem_violations_iff, hviolations] at hf
        cases hf
      · intro e he
        rw [hcompile] at he
        cases he
  | cons first later =>
      have hfirst : node.Violates first := by
        rw [← mem_violations_iff, hviolations]
        exact List.mem_cons_self
      have hverify : node.verify = .error (.failure first) := by rw [verify_eq, hviolations]; rfl
      obtain ⟨next, hcompile⟩ := compile_of_verify_eq_error hcounters hverify
      refine ⟨⟨fun _ => ⟨first, hfirst⟩, fun _ => ⟨_, by rw [hcompile]⟩⟩, fun e he => ?_⟩
      rw [hcompile] at he
      cases he
      exact ⟨first, later, rfl, hfirst, rfl⟩

end Node

end

namespace Node

/-- A group with a link whose first target is replaced, and behind it a switch with two faults:
HTML that is not trusted in its second case, and an element without a name in its default. -/
def faulty : Node :=
  .multi none
    [.element ⟨"a", [.ofName "href" (.concrete (.untrusted "javascript:f")),
        .ofName "href" (.literal "/")], .inline, false, false, none⟩ [.literal "home"],
      .switch [(.isSet "x", none), (.isSet "y", some (.raw (.concrete (.untrusted "<b>"))))]
        (some (.element ⟨"", [], .inline, false, false, none⟩ []))]

/-- `faulty` is refused for its second case. -/
theorem compile_violations_faulty : ∃ first later, faulty.violations = first :: later ∧
    faulty.Violates first ∧ (faulty.compile .tidy (.newRoot 1)).1 = .error (.failure first) ∧
    first = ⟨.trust .htmlEscapeUnsupported, [.child 2 .multi, .case 2 2]⟩ := by
  have hrun : (faulty.compile .tidy (.newRoot 1)).1.map (fun _ => ()) =
      .error (.failure ⟨.trust .htmlEscapeUnsupported, [.child 2 .multi, .case 2 2]⟩) := by
    decide +kernel
  rcases hcompile : (faulty.compile .tidy (.newRoot 1)).1 with e | t
  · rw [hcompile] at hrun
    obtain rfl := Except.error.inj hrun
    have hcounters : ∀ x, (faulty.compile .tidy (.newRoot 1)).1 ≠ .error (.overflow x) := by
      intro x hoverflow
      rw [hcompile] at hoverflow
      cases hoverflow
    obtain ⟨-, hfirst⟩ := compile_violations hcounters
    obtain ⟨first, later, hviolations, hviolates, heq⟩ := hfirst _ hcompile
    cases heq
    exact ⟨_, later, hviolations, hviolates, rfl, rfl⟩
  · rw [hcompile] at hrun
    cases hrun

end Node

end TrustedHtml
