import TrustedHtml.Proofs.Violations

/-!
# Errors of Building

Building a tree never fails. An error that arises when a content is added is kept in the node, if
it is the first one, and the contents that can be added are added all the same; it is compiling
that reports the error. On the way a group that is added to a group gives up its error to it, as
it gives up its members.

`Node.Misbuilt` says of a tree that an addition has failed somewhere, at whatever depth of the
calls it was built with. `Node.KeepsError` says which places of the tree keep an error. Compiling
goes through the tree in order, so it ends at such a place at the latest, and `Node.EndsAt` says
where and for what reason it can end: a counter can overflow too.

## Main definitions

* `Node.raised`: the errors that arise when contents are added.
* `Node.Misbuilt`, `Node.KeepsError`: an addition has failed; a place keeps an error.
* `Step.Before`: which of two steps is taken first. Places are ordered as words of steps are.
* `Node.EndsAt`: compiling can end at a place.
* `Node.EndsBy`: it ends at the place of a failure, or in front of it.
* `Declaring.FailsBy`, `Declaring.Stops`: how operations fail.

## Main results

* `Node.ofElement_eq`, `Node.ofContents_eq`: **what elements and groups are built to.**
* `Node.Misbuilt.keepsError`: after a failed addition some place keeps an error.
* `Node.pieces_failsBy`: compiling ends at a place of the tree, if it fails.
* `Node.KeepsError.pieces_stops`: it fails where an error is kept, or in front of it.
* `Node.no_error_lost`: **no error of building is lost**, and neither is a child or an attribute.
-/

namespace TrustedHtml

/-! ### Contents -/

namespace Content

/-- The node that a content is. -/
def node? : Content → Option Node
  | .node n => some n
  | _ => none

/-- The attribute that a content is. -/
def attribute? : Content → Option Attribute
  | .attribute a => some a
  | _ => none

/-- The nodes that a group gets from a content. -/
def members : Content → List Node
  | .node (.multi _ inner) => inner
  | .node n => [n]
  | _ => []

/-- The error that arises when a content is added to an element: a width is for texts. -/
def elementError : Content → Option StructureError
  | .width _ => some (.invalidOption .width .element)
  | _ => none

/-- The error that arises when a content is added to a group: that of a group, or that it is not
a node. -/
def groupError : Content → Option StructureError
  | .node (.multi error _) => error
  | .node _ => none
  | content => some (.invalidOption content.kind .multi)

/-- Only groups are replaced by their members. -/
theorem members_node (n : Node) :
    (∃ error inner, n = .multi error inner) ∨ (node n).members = [n] := by
  cases n with
  | multi error inner => exact .inl ⟨error, inner, rfl⟩
  | _ => exact .inr rfl

end Content

namespace Element

/-- An element as it is before anything is added. -/
def bare (name : String) : Element :=
  ⟨name, [], Catalogue.style name, Catalogue.isVoid name, false, none⟩

/-- An element to which a content is added, apart from its children. -/
def taking (e : Element) : Content → Element
  | .attribute a => { e with attributes := e.attributes ++ [a] }
  | .indent style => { e with style }
  | .selfClosing => { e with selfClosing := true }
  | .xmlElement => { e with selfClosing := false, xmlSelfClosing := false }
  | _ => e

/-- An element keeps its name. -/
theorem taking_name (e : Element) (content : Content) : (e.taking content).name = e.name := by
  cases content <;> rfl

/-- An element gets every attribute. -/
theorem taking_attributes (e : Element) (content : Content) :
    (e.taking content).attributes = e.attributes ++ content.attribute?.toList := by
  cases content with
  | «attribute» a => rfl
  | _ => exact (List.append_nil _).symm

/-- An element keeps its name, whatever is added. -/
theorem foldl_taking_name (e : Element) (contents : List Content) :
    (contents.foldl taking e).name = e.name := by
  induction contents generalizing e with
  | nil => rfl
  | cons content rest ih => rw [List.foldl_cons, ih, taking_name]

/-- An element gets all attributes, in order. -/
theorem foldl_taking_attributes (e : Element) (contents : List Content) :
    (contents.foldl taking e).attributes =
      e.attributes ++ contents.filterMap Content.attribute? := by
  induction contents generalizing e with
  | nil => exact (List.append_nil _).symm
  | cons content rest ih =>
      rw [List.foldl_cons, ih, taking_attributes, List.append_assoc, List.filterMap_cons]
      cases content.attribute? <;> rfl

end Element

namespace Node

/-! ### Adding contents -/

/-- **The errors that arise when contents are added in order**, each one to what those before it
have made of the node. -/
def raised (target : Node) : List Content → List StructureError
  | [] => []
  | content :: rest => (target.add content).2.toList ++ (target.add content).1.raised rest

/-- Adding one content after the other. -/
theorem addAll_cons (target : Node) (content : Content) (rest : List Content) :
    target.addAll (content :: rest) = (((target.add content).1.addAll rest).1,
      (target.add content).2 <|> ((target.add content).1.addAll rest).2) :=
  rfl

/-- The error that is given is the first one that arises. -/
theorem addAll_snd (target : Node) (contents : List Content) :
    (target.addAll contents).2 = (target.raised contents).head? := by
  induction contents generalizing target with
  | nil => rfl
  | cons content rest ih =>
      rw [addAll_cons, raised, List.head?_append, ih]
      cases (target.add content).2 <;> rfl

/-- **Adding a content to an element**: a node is added to its children. -/
theorem add_element (e : Element) (inner : List Node) (content : Content) :
    (element e inner).add content =
      (element (e.taking content) (inner ++ content.node?.toList), content.elementError) := by
  cases content with
  | node n => cases n <;> rfl
  | _ => exact congrArg (fun children => (element _ children, _)) (List.append_nil inner).symm

/-- **Adding a content to a group**: nodes are added to its members. -/
theorem add_multi (kept : Option StructureError) (inner : List Node) (content : Content) :
    (multi kept inner).add content =
      (multi kept (inner ++ content.members), content.groupError) := by
  cases content with
  | node n => cases n <;> rfl
  | _ => exact congrArg (fun members => (multi _ members, _)) (List.append_nil inner).symm

/-- Adding contents to an element. -/
theorem addAll_element (e : Element) (inner : List Node) (contents : List Content) :
    ((element e inner).addAll contents).1 =
      element (contents.foldl Element.taking e) (inner ++ contents.filterMap Content.node?) := by
  induction contents generalizing e inner with
  | nil => rw [List.filterMap_nil, List.append_nil]; rfl
  | cons content rest ih =>
      rw [addAll_cons, add_element, ih, List.append_assoc, List.foldl_cons, List.filterMap_cons]
      cases content.node? <;> rfl

/-- Adding contents to a group. -/
theorem addAll_multi (kept : Option StructureError) (inner : List Node)
    (contents : List Content) : ((multi kept inner).addAll contents).1 =
      multi kept (inner ++ contents.flatMap Content.members) := by
  induction contents generalizing inner with
  | nil => rw [List.flatMap_nil, List.append_nil]; rfl
  | cons content rest ih =>
      rw [addAll_cons, add_multi, ih, List.append_assoc, List.flatMap_cons]

/-- The errors that arise when contents are added to an element. -/
theorem raised_element (e : Element) (inner : List Node) (contents : List Content) :
    (element e inner).raised contents = contents.filterMap Content.elementError := by
  induction contents generalizing e inner with
  | nil => rfl
  | cons content rest ih =>
      rw [raised, add_element, ih, List.filterMap_cons]
      cases content.elementError <;> rfl

/-- The errors that arise when contents are added to a group. -/
theorem raised_multi (kept : Option StructureError) (inner : List Node)
    (contents : List Content) :
    (multi kept inner).raised contents = contents.filterMap Content.groupError := by
  induction contents generalizing inner with
  | nil => rfl
  | cons content rest ih =>
      rw [raised, add_multi, ih, List.filterMap_cons]
      cases content.groupError <;> rfl

/-- **What an element is built to.** -/
theorem ofElement_eq (name : String) (contents : List Content) :
    ofElement name contents =
      element { contents.foldl Element.taking (.bare name) with
          error := ((element (.bare name) []).raised contents).head? }
        (contents.filterMap Content.node?) := by
  change (((element (.bare name) []).addAll contents).1.keepError _) = _
  rw [addAll_snd, addAll_element]
  rfl

/-- **What a group is built to.** -/
theorem ofContents_eq (contents : List Content) :
    ofContents contents = multi ((multi none []).raised contents).head?
      (contents.flatMap Content.members) := by
  change (((multi none []).addAll contents).1.keepError _) = _
  rw [addAll_snd, addAll_multi]
  rfl

example : ofContents [.node (ofContents [.width 40, .node (literal "inner")]), .selfClosing] =
    multi (some (.invalidOption .width .multi)) [literal "inner"] :=
  rfl

/-! ### Errors that are kept -/

/-- **An addition has failed** in a tree, at whatever depth of the calls that it was built with. -/
inductive Misbuilt : Node → Prop
  | element {name : String} {contents : List Content}
      (h : (Node.element (.bare name) []).raised contents ≠ []) :
      Misbuilt (ofElement name contents)
  | group {contents : List Content} (h : (multi none []).raised contents ≠ []) :
      Misbuilt (ofContents contents)
  | inElement {name : String} {contents : List Content} {child : Node}
      (hchild : .node child ∈ contents) (h : Misbuilt child) : Misbuilt (ofElement name contents)
  | inGroup {contents : List Content} {child : Node} (hchild : .node child ∈ contents)
      (h : Misbuilt child) : Misbuilt (ofContents contents)
  | inPrototype {name : String} {prototype : Node} (h : Misbuilt prototype) :
      Misbuilt (.subsection name prototype)
  | inCase {cases : List (Condition × Option Node)} {default : Option Node}
      {condition : Condition} {output : Node} (hcase : (condition, some output) ∈ cases)
      (h : Misbuilt output) : Misbuilt (.switch cases default)
  | inDefault {cases : List (Condition × Option Node)} {output : Node} (h : Misbuilt output) :
      Misbuilt (.switch cases (some output))

/-- **An error is kept** in a tree, at the place that the steps of the failure lead to. -/
inductive KeepsError : Node → Failure → Prop
  | element {e : Element} {contents : List Node} {error : StructureError}
      (h : e.error = some error) :
      KeepsError (.element e contents) (.ofCause (.structural error))
  | group {error : StructureError} {contents : List Node} :
      KeepsError (.multi (some error) contents) (.ofCause (.structural error))
  | inElement {e : Element} {contents : List Node} {child : Node} {i : ℕ} {f : Failure}
      (hi : contents[i]? = some child) (h : KeepsError child f) :
      KeepsError (.element e contents) (f.within (.child (i + 1) (.element e.name)))
  | inGroup {error : Option StructureError} {contents : List Node} {child : Node} {i : ℕ}
      {f : Failure} (hi : contents[i]? = some child) (h : KeepsError child f) :
      KeepsError (.multi error contents) (f.within (.child (i + 1) .multi))
  | inPrototype {name : String} {prototype : Node} {f : Failure} (h : KeepsError prototype f) :
      KeepsError (.subsection name prototype) (f.within (.subsection name))
  | inCase {cases : List (Condition × Option Node)} {default : Option Node}
      {condition : Condition} {output : Node} {i : ℕ} {f : Failure}
      (hi : cases[i]? = some (condition, some output)) (h : KeepsError output f) :
      KeepsError (.switch cases default) (f.within (.case (i + 1) cases.length))
  | inDefault {cases : List (Condition × Option Node)} {output : Node} {f : Failure}
      (h : KeepsError output f) : KeepsError (.switch cases (some output)) (f.within .defaultCase)

/-- What is kept is an error of structure. -/
theorem KeepsError.structural {node : Node} {f : Failure} (h : node.KeepsError f) :
    ∃ error, f.cause = .structural error := by
  induction h with
  | element | group => exact ⟨_, rfl⟩
  | inElement _ _ ih | inGroup _ _ ih | inCase _ _ ih => exact ih
  | inPrototype _ ih | inDefault _ ih => exact ih

/-- An element to which contents could not all be added keeps an error. -/
theorem keepsError_ofElement {name : String} {contents : List Content}
    (h : (element (.bare name) []).raised contents ≠ []) :
    ∃ f, (ofElement name contents).KeepsError f := by
  obtain ⟨error, later, hraised⟩ := List.exists_cons_of_ne_nil h
  rw [ofElement_eq, hraised]
  exact ⟨_, .element rfl⟩

/-- A group to which contents could not all be added keeps an error. -/
theorem keepsError_ofContents {contents : List Content} (h : (multi none []).raised contents ≠ []) :
    ∃ f, (ofContents contents).KeepsError f := by
  obtain ⟨error, later, hraised⟩ := List.exists_cons_of_ne_nil h
  rw [ofContents_eq, hraised]
  exact ⟨_, .group⟩

/-- An error of a member is an error in the group. -/
theorem KeepsError.ofContents {contents : List Content} {content : Content} {child : Node}
    {f : Failure} (h : child.KeepsError f) (hcontent : content ∈ contents)
    (hchild : child ∈ content.members) : ∃ f, (ofContents contents).KeepsError f := by
  obtain ⟨i, hi⟩ := List.getElem?_of_mem (List.mem_flatMap.mpr ⟨content, hcontent, hchild⟩)
  rw [ofContents_eq]
  exact ⟨_, .inGroup hi h⟩

/-- **After a failed addition some place keeps an error.** A group within a group is not there any
more, but it has given up its error, and its members are there. -/
theorem Misbuilt.keepsError {node : Node} (h : node.Misbuilt) : ∃ f, node.KeepsError f := by
  induction h with
  | element h => exact keepsError_ofElement h
  | group h => exact keepsError_ofContents h
  | @inElement name contents child hchild _ ih =>
      obtain ⟨f, hf⟩ := ih
      obtain ⟨i, hi⟩ := List.getElem?_of_mem
        (List.mem_filterMap.mpr ⟨_, hchild, (rfl : Content.node? (.node child) = some child)⟩)
      rw [ofElement_eq]
      exact ⟨_, .inElement hi hf⟩
  | @inGroup contents child hchild _ ih =>
      obtain ⟨f, hf⟩ := ih
      obtain ⟨error, inner, rfl⟩ | hmembers := Content.members_node child
      · cases hf with
        | @group error =>
            refine keepsError_ofContents fun hnone => ?_
            have herror : error ∈ (multi none []).raised contents := by
              rw [raised_multi]
              exact List.mem_filterMap.mpr ⟨_, hchild, rfl⟩
            rw [hnone] at herror
            cases herror
        | inGroup hi h => exact h.ofContents hchild (List.mem_of_getElem? hi)
      · exact hf.ofContents hchild (by rw [hmembers]; exact List.mem_singleton_self child)
  | inPrototype _ ih =>
      obtain ⟨f, hf⟩ := ih
      exact ⟨_, .inPrototype hf⟩
  | inCase hcase _ ih =>
      obtain ⟨f, hf⟩ := ih
      obtain ⟨i, hi⟩ := List.getElem?_of_mem hcase
      exact ⟨_, .inCase hi hf⟩
  | inDefault _ ih =>
      obtain ⟨f, hf⟩ := ih
      exact ⟨_, .inDefault hf⟩

end Node

/-! ### Where compiling ends -/

/-- From the same place one step is taken before another one: attributes come before children,
children and cases are in order, and the default is last. -/
inductive Step.Before : Step → Step → Prop
  | attribute {name element : String} {number : ℕ} {parent : Parent} :
      Before (.attribute name element) (.child number parent)
  | child {number later : ℕ} {parent : Parent} (h : number < later) :
      Before (.child number parent) (.child later parent)
  | case {number later count : ℕ} (h : number < later) :
      Before (.case number count) (.case later count)
  | default {number count : ℕ} : Before (.case number count) .defaultCase

section

variable [UrlReader]

/-- **Compiling can end at a place** of a tree, to which the steps lead: something is wrong there,
or a counter overflows, that of the depth or one of the columns. -/
inductive Node.EndsAt (o : LayoutOptions) : ℕ → Node → List Step → Abort → Prop
  | fault {depth : ℕ} {node : Node} {cause : Cause} (h : cause ∈ node.faults) :
      EndsAt o depth node [] (.ofCause cause)
  | inAttribute {depth : ℕ} {e : Element} {contents : List Node} {a : Attribute} {cause : Cause}
      (ha : a ∈ Attribute.lastOfEachName e.attributes) (h : cause ∈ a.faults) :
      EndsAt o depth (.element e contents) [.attribute a.name e.name]
        ((Abort.ofCause cause).within (.attribute a.name e.name))
  | depth {depth : ℕ} {e : Element} {contents : List Node} (hopen : e.isClosed = false)
      (hblock : e.isBlock o = true) (h : Counter.bound ≤ depth + 1) :
      EndsAt o depth (.element e contents) [] (.overflow .add)
  | column {depth : ℕ} {s : SafeString} {width : Option ℕ} {checked : String} {x : Overflow}
      (hcheck : s.check .textSafe = .ok checked)
      (h : (o.reflow depth width).apply checked = .error x) :
      EndsAt o depth (.text (.concrete s) width) [] (.overflow x)
  | inElement {depth : ℕ} {e : Element} {contents : List Node} {child : Node} {i : ℕ}
      {steps : List Step} {abort : Abort} (hopen : e.isClosed = false)
      (hi : contents[i]? = some child)
      (h : EndsAt o (e.innerDepth o depth) child steps abort) :
      EndsAt o depth (.element e contents) (.child (i + 1) (.element e.name) :: steps)
        (abort.within (.child (i + 1) (.element e.name)))
  | inGroup {depth : ℕ} {contents : List Node} {child : Node} {i : ℕ} {steps : List Step}
      {abort : Abort} (hi : contents[i]? = some child) (h : EndsAt o depth child steps abort) :
      EndsAt o depth (.multi none contents) (.child (i + 1) .multi :: steps)
        (abort.within (.child (i + 1) .multi))
  | inPrototype {depth : ℕ} {name : String} {prototype : Node} {steps : List Step} {abort : Abort}
      (h : EndsAt o depth prototype steps abort) :
      EndsAt o depth (.subsection name prototype) (.subsection name :: steps)
        (abort.within (.subsection name))
  | inCase {depth : ℕ} {cases : List (Condition × Option Node)} {default : Option Node}
      {condition : Condition} {output : Node} {i : ℕ} {steps : List Step} {abort : Abort}
      (hi : cases[i]? = some (condition, some output)) (h : EndsAt o depth output steps abort) :
      EndsAt o depth (.switch cases default) (.case (i + 1) cases.length :: steps)
        (abort.within (.case (i + 1) cases.length))
  | inDefault {depth : ℕ} {cases : List (Condition × Option Node)} {output : Node}
      {steps : List Step} {abort : Abort} (h : EndsAt o depth output steps abort) :
      EndsAt o depth (.switch cases (some output)) (.defaultCase :: steps)
        (abort.within .defaultCase)

end

/-! ### How operations fail -/

namespace Declaring

variable {α β : Type} {act : Declaring α} {P Q : Abort → Prop}

/-- If an operation fails, it fails with an abort of a kind. -/
def FailsBy (act : Declaring α) (P : Abort → Prop) : Prop :=
  ∀ s e t, act s = .error e t → P e

/-- An operation fails, with an abort of a kind. -/
def Stops (act : Declaring α) (P : Abort → Prop) : Prop :=
  ∀ s, ∃ e t, act s = .error e t ∧ P e

/-- An answer without a declaration. -/
theorem FailsBy.pure (a : α) : FailsBy (Pure.pure a) P :=
  nofun

/-- A failure. -/
theorem FailsBy.throw {e : Abort} (h : P e) :
    FailsBy (MonadExcept.throw e : Declaring α) P := by
  intro s e' t herror
  cases herror
  exact h

/-- One operation after another. -/
theorem FailsBy.bind {k : α → Declaring β} (h : act.FailsBy P)
    (hk : ∀ {s t a}, act s = .ok a t → (k a).FailsBy P) : (act >>= k).FailsBy P := by
  intro s e t herror
  obtain hact | ⟨a, mid, hact, hrest⟩ := bind_eq_error herror
  · exact h s e t hact
  · exact hk hact mid e t hrest

/-- An operation after which only an answer is given. -/
theorem FailsBy.map (h : act.FailsBy P) (g : α → β) :
    (act >>= fun a => Pure.pure (g a)).FailsBy P :=
  h.bind fun _ => .pure _

/-- A wider kind. -/
theorem FailsBy.mono (h : act.FailsBy P) (himp : ∀ e, P e → Q e) : act.FailsBy Q :=
  fun s e t herror => himp e (h s e t herror)

/-- Describing failures. -/
theorem FailsBy.within (h : act.FailsBy P) (step : Step) :
    (act.within step).FailsBy fun e => ∃ inner, P inner ∧ e = inner.within step := by
  intro s e t herror
  simp only [Declaring.within] at herror
  split at herror <;> cases herror
  rename_i hact
  exact ⟨_, h _ _ _ hact, rfl⟩

/-- Working on the schema of the rows of a subsection. -/
theorem FailsBy.inSubsection (h : act.FailsBy P) (name : SlotName) :
    (Declaring.inSubsection name act).FailsBy P := by
  intro s e t herror
  obtain ⟨inner, hact, -⟩ := inSubsection_eq_error herror
  exact h _ _ _ hact

/-- A check of structure. -/
theorem orStructure_failsBy {r : Except StructureError α}
    (h : ∀ e, r = .error e → P (.ofCause (.structural e))) : (orStructure r).FailsBy P := by
  cases r with
  | ok a => exact .pure a
  | error e => exact .throw (h e rfl)

/-- A check of trust. -/
theorem orTrust_failsBy {r : Except TrustError α}
    (h : ∀ e, r = .error e → P (.ofCause (.trust e))) : (orTrust r).FailsBy P := by
  cases r with
  | ok a => exact .pure a
  | error e => exact .throw (h e rfl)

/-- A counter. -/
theorem orOverflow_failsBy {r : Except Overflow α}
    (h : ∀ x, r = .error x → P (.overflow x)) : (orOverflow r).FailsBy P := by
  cases r with
  | ok a => exact .pure a
  | error x => exact .throw (h x rfl)

/-- A failure. -/
theorem Stops.throw {e : Abort} (h : P e) : Stops (MonadExcept.throw e : Declaring α) P :=
  fun s => ⟨e, s, rfl, h⟩

/-- If the first operation fails, both do. -/
theorem Stops.first {k : α → Declaring β} (h : act.Stops P) : (act >>= k).Stops P := by
  intro s
  obtain ⟨e, t, hact, he⟩ := h s
  exact ⟨e, t, bind_of_error hact, he⟩

/-- If the second operation fails, both do, unless the first one has failed already. -/
theorem Stops.second {k : α → Declaring β} (h : act.FailsBy P)
    (hk : ∀ {s t a}, act s = .ok a t → (k a).Stops P) : (act >>= k).Stops P := by
  intro s
  cases hact : act s with
  | ok a mid =>
      obtain ⟨e, t, hrest, he⟩ := hk hact mid
      exact ⟨e, t, by rw [bind_of_ok hact, hrest], he⟩
  | error e t => exact ⟨e, t, bind_of_error hact, h s e t hact⟩

/-- A wider kind. -/
theorem Stops.mono (h : act.Stops P) (himp : ∀ e, P e → Q e) : act.Stops Q := by
  intro s
  obtain ⟨e, t, hact, he⟩ := h s
  exact ⟨e, t, hact, himp e he⟩

/-- Describing failures. -/
theorem Stops.within (h : act.Stops P) (step : Step) :
    (act.within step).Stops fun e => ∃ inner, P inner ∧ e = inner.within step := by
  intro s
  obtain ⟨e, t, hact, he⟩ := h s
  exact ⟨e.within step, t, by simp only [Declaring.within, hact], e, he, rfl⟩

/-- Working on the schema of the rows of a subsection. -/
theorem Stops.inSubsection (h : act.Stops P) (name : SlotName) :
    (Declaring.inSubsection name act).Stops P := by
  intro s
  simp only [Declaring.inSubsection]
  obtain ⟨e, t, hact, he⟩ := h ⟨(s.declareSubsection name).1.2, (s.declareSubsection name).2.next⟩
  rw [hact]
  exact ⟨e, _, rfl, he⟩

end Declaring

/-! ### Compiling ends at a place of the tree -/

/-- A name that is not accepted is at fault. -/
theorem SlotName.mem_nameFaults {kind : NameKind} {name : String} {error : StructureError}
    (h : checked kind name = .error error) : .structural error ∈ nameFaults kind name := by
  obtain ⟨-, slot, hchecked⟩ | ⟨hplain, hchecked⟩ := SlotName.checked_cases kind name
  · rw [h] at hchecked
    cases hchecked
  · rw [h] at hchecked
    cases hchecked
    rw [nameFaults, if_neg hplain]
    exact List.mem_singleton_self _

/-- An element that is refused is at fault. -/
theorem Element.mem_faults {e : Element} {contents : List Node} {error : StructureError}
    (h : e.check contents = .error error) : .structural error ∈ e.faults contents := by
  have hfirst := e.ofStructure_check contents
  rw [h] at hfirst
  cases hfaults : e.faults contents with
  | nil =>
      rw [hfaults] at hfirst
      cases hfirst
  | cons cause later =>
      rw [hfaults] at hfirst
      cases hfirst
      exact List.mem_cons_self

/-- An element that is accepted is not at fault. -/
theorem Element.faults_eq_nil {e : Element} {contents : List Node}
    (h : e.check contents = .ok ()) : e.faults contents = [] := by
  have hfirst := e.ofStructure_check contents
  rw [h] at hfirst
  cases hfaults : e.faults contents with
  | nil => rfl
  | cons cause later =>
      rw [hfaults] at hfirst
      cases hfirst

section

variable [UrlReader]

open Declaring

/-- A value fails for what is wrong with it. -/
theorem Value.piece_failsBy {level : TrustLevel} {value : Value} {P : Abort → Prop}
    (h : ∀ cause ∈ value.faults level, P (.ofCause cause)) : (value.piece level).FailsBy P := by
  cases value with
  | deferred v => exact fun _ _ _ herror => nomatch herror
  | concrete s =>
      refine (orTrust_failsBy fun e he => h _ ?_).map Piece.text
      rw [faults, he]
      exact List.mem_singleton_self _

/-- An attribute fails for what is wrong with it. -/
theorem Attribute.pieces_failsBy (a : Attribute) :
    a.pieces.FailsBy fun e => ∃ cause ∈ a.faults, e = .ofCause cause := by
  rw [pieces]
  refine FailsBy.bind ?_ fun _ => FailsBy.map ?_ _
  · cases hname : SlotName.checked .attribute a.name with
    | ok slot => exact .pure ()
    | error e =>
        exact .throw ⟨_, List.mem_append_left _ (SlotName.mem_nameFaults hname), rfl⟩
  · exact Value.piece_failsBy fun cause hcause => ⟨cause, List.mem_append_right _ hcause, rfl⟩

/-- Attributes fail for what is wrong with one of them. -/
theorem Element.attributePieces_failsBy (e : Element) : ∀ attributes : List Attribute,
    (e.attributePieces attributes).FailsBy fun abort => ∃ a ∈ attributes, ∃ cause ∈ a.faults,
      abort = (Abort.ofCause cause).within (.attribute a.name e.name)
  | [] => .pure []
  | a :: rest => by
      rw [attributePieces]
      refine FailsBy.bind ((a.pieces_failsBy.within _).mono ?_) fun _ =>
        ((e.attributePieces_failsBy rest).mono ?_).map _
      · rintro _ ⟨_, ⟨cause, hcause, rfl⟩, rfl⟩
        exact ⟨a, List.mem_cons_self, cause, hcause, rfl⟩
      · rintro _ ⟨other, hother, cause, hcause, rfl⟩
        exact ⟨other, List.mem_cons_of_mem _ hother, cause, hcause, rfl⟩

namespace Node

variable (o : LayoutOptions) (depth : ℕ)

/-- An element is refused at its place. -/
theorem check_failsBy (e : Element) (contents : List Node) :
    (orStructure (e.check contents)).FailsBy ((element e contents).EndsAt o depth []) :=
  orStructure_failsBy fun _ herror => .fault (Element.mem_faults herror)

/-- An opening tag fails at one of its attributes. -/
theorem openingPieces_failsBy (e : Element) (contents : List Node) :
    e.openingPieces.FailsBy fun abort => ∃ a : Attribute,
      (element e contents).EndsAt o depth [.attribute a.name e.name] abort := by
  refine ((e.attributePieces_failsBy _).mono ?_).map _
  rintro _ ⟨a, ha, cause, hcause, rfl⟩
  exact ⟨a, .inAttribute ha hcause⟩

/-- The counter of the depth overflows at an element. -/
theorem enter_failsBy {e : Element} (contents : List Node) (hopen : e.isClosed = false) :
    (e.enter o depth).FailsBy ((element e contents).EndsAt o depth []) := by
  rw [Element.enter]
  split
  · rename_i hblock
    refine orOverflow_failsBy fun x hx => ?_
    rw [Counter.add] at hx
    split at hx <;> cases hx
    rename_i hbound
    exact .depth hopen hblock (Nat.not_lt.mp hbound)
  · exact .pure depth

/-- A text that is known fails for what is wrong with it, or for a column. -/
theorem textPiece_failsBy (value : Value) (width : Option ℕ) :
    (value.textPiece o depth width).FailsBy ((text value width).EndsAt o depth []) := by
  cases value with
  | deferred v => exact fun _ _ _ herror => nomatch herror
  | concrete s =>
      rw [Value.textPiece]
      cases hcheck : s.check .textSafe with
      | error e =>
          refine .throw (.fault ?_)
          rw [faults, Value.faults, hcheck]
          exact List.mem_singleton_self _
      | ok checked =>
          exact (orOverflow_failsBy fun x hx => .column hcheck hx).map Piece.text

mutual

/-- **If compiling fails, it ends at a place of the tree.** -/
theorem pieces_failsBy (o : LayoutOptions) (depth : ℕ) : ∀ node : Node,
    (node.pieces o depth).FailsBy fun e => ∃ steps, node.EndsAt o depth steps e
  | .element e contents => by
      rw [pieces_element]
      refine ((check_failsBy o depth e contents).mono fun _ h => ⟨[], h⟩).bind fun _ =>
        ((openingPieces_failsBy o depth e contents).mono ?_).bind fun _ => ?_
      · rintro _ ⟨a, h⟩
        exact ⟨_, h⟩
      cases hopen : e.isClosed with
      | true => exact .pure _
      | false =>
          refine FailsBy.bind ((enter_failsBy o depth contents hopen).mono fun _ h => ⟨[], h⟩)
            fun hinner => ?_
          rw [Element.eq_innerDepth_of_enter hinner]
          refine ((childPieces_failsBy o _ (.element e.name) 1 contents).mono ?_).map _
          rintro _ ⟨i, child, steps, abort, hi, h, rfl⟩
          rw [Nat.add_comm]
          exact ⟨_, .inElement hopen hi h⟩
  | .text value width => by
      rw [pieces]
      exact ((textPiece_failsBy o depth value width).mono fun _ h => ⟨[], h⟩).map _
  | .raw value => by
      rw [pieces]
      exact (Value.piece_failsBy fun cause hcause => ⟨[], .fault hcause⟩).map _
  | .multi (some error) contents => by
      rw [pieces]
      exact .throw ⟨[], .fault (List.mem_singleton_self _)⟩
  | .multi none contents => by
      rw [pieces]
      refine (childPieces_failsBy o depth .multi 1 contents).mono ?_
      rintro _ ⟨i, child, steps, abort, hi, h, rfl⟩
      rw [Nat.add_comm]
      exact ⟨_, .inGroup hi h⟩
  | .subsection name prototype => by
      rw [pieces]
      have hname : (orStructure (SlotName.checked .subsection name)).FailsBy fun e =>
          ∃ steps, (subsection name prototype).EndsAt o depth steps e :=
        orStructure_failsBy fun _ herror => ⟨[], .fault (SlotName.mem_nameFaults herror)⟩
      refine hname.bind fun {_ _ slot} _ =>
        ((((pieces_failsBy o depth prototype).within _).inSubsection slot).mono ?_).map _
      rintro _ ⟨abort, ⟨steps, h⟩, rfl⟩
      exact ⟨_, .inPrototype h⟩
  | .switch cases default => by
      rw [pieces]
      refine ((casePrograms_failsBy o depth 1 cases.length cases).mono ?_).bind fun _ =>
        ((defaultProgram_failsBy o depth default).mono ?_).map _
      · rintro _ ⟨i, condition, output, steps, abort, hi, h, rfl⟩
        rw [Nat.add_comm]
        exact ⟨_, .inCase hi h⟩
      · rintro _ ⟨output, steps, abort, rfl, h, rfl⟩
        exact ⟨_, .inDefault h⟩

/-- If compiling children fails, it ends at a place in one of them. -/
theorem childPieces_failsBy (o : LayoutOptions) (depth : ℕ) (parent : Parent) (number : ℕ) :
    ∀ contents : List Node, (childPieces o depth parent number contents).FailsBy fun e =>
      ∃ (i : ℕ) (child : Node) (steps : List Step) (abort : Abort), contents[i]? = some child ∧
        child.EndsAt o depth steps abort ∧ e = abort.within (.child (number + i) parent)
  | [] => .pure []
  | child :: rest => by
      rw [childPieces]
      refine FailsBy.bind (((pieces_failsBy o depth child).within _).mono ?_) fun _ =>
        ((childPieces_failsBy o depth parent (number + 1) rest).mono ?_).map _
      · rintro _ ⟨abort, ⟨steps, h⟩, rfl⟩
        exact ⟨0, child, steps, abort, rfl, h, rfl⟩
      · rintro _ ⟨i, other, steps, abort, hi, h, rfl⟩
        exact ⟨i + 1, other, steps, abort, hi, h, by rw [Nat.add_right_comm, Nat.add_assoc]⟩

/-- If compiling cases fails, it ends at a place in the output of one of them. -/
theorem casePrograms_failsBy (o : LayoutOptions) (depth number count : ℕ) :
    ∀ cases : List (Condition × Option Node),
      (casePrograms o depth number count cases).FailsBy fun e =>
        ∃ (i : ℕ) (condition : Condition) (output : Node) (steps : List Step) (abort : Abort),
          cases[i]? = some (condition, some output) ∧ output.EndsAt o depth steps abort ∧
            e = abort.within (.case (number + i) count)
  | [] => .pure []
  | (condition, none) :: rest => by
      rw [casePrograms]
      refine ((casePrograms_failsBy o depth (number + 1) count rest).mono ?_).map _
      rintro _ ⟨i, other, output, steps, abort, hi, h, rfl⟩
      exact ⟨i + 1, other, output, steps, abort, hi, h,
        by rw [Nat.add_right_comm, Nat.add_assoc]⟩
  | (condition, some output) :: rest => by
      rw [casePrograms]
      refine FailsBy.bind (((pieces_failsBy o depth output).within _).mono ?_) fun _ =>
        ((casePrograms_failsBy o depth (number + 1) count rest).mono ?_).map _
      · rintro _ ⟨abort, ⟨steps, h⟩, rfl⟩
        exact ⟨0, condition, output, steps, abort, rfl, h, rfl⟩
      · rintro _ ⟨i, other, later, steps, abort, hi, h, rfl⟩
        exact ⟨i + 1, other, later, steps, abort, hi, h,
          by rw [Nat.add_right_comm, Nat.add_assoc]⟩

/-- If compiling the default of a switch fails, it ends at a place in its output. -/
theorem defaultProgram_failsBy (o : LayoutOptions) (depth : ℕ) : ∀ default : Option Node,
    (defaultProgram o depth default).FailsBy fun e =>
      ∃ (output : Node) (steps : List Step) (abort : Abort), default = some output ∧
        output.EndsAt o depth steps abort ∧ e = abort.within .defaultCase
  | none => .pure none
  | some output => by
      rw [defaultProgram]
      refine (((pieces_failsBy o depth output).within _).mono ?_).map _
      rintro _ ⟨abort, ⟨steps, h⟩, rfl⟩
      exact ⟨output, steps, abort, rfl, h, rfl⟩

end

/-! ### Compiling ends where an error is kept -/

/-- If compiling a child fails, compiling the children does, with it or with one before it. -/
theorem childPieces_stops {o : LayoutOptions} {depth number i : ℕ} {parent : Parent}
    {contents : List Node} {child : Node} {P : Abort → Prop} (hi : contents[i]? = some child)
    (h : (child.pieces o depth).Stops P) :
    (childPieces o depth parent number contents).Stops fun e =>
      (∃ abort, P abort ∧ e = abort.within (.child (number + i) parent)) ∨
      ∃ (j : ℕ) (sibling : Node) (steps : List Step) (abort : Abort), j < i ∧
        contents[j]? = some sibling ∧ sibling.EndsAt o depth steps abort ∧
          e = abort.within (.child (number + j) parent) := by
  induction contents generalizing number i with
  | nil => cases hi
  | cons first rest ih =>
      rw [childPieces]
      cases i with
      | zero =>
          obtain rfl : first = child := Option.some.inj hi
          exact ((h.within _).mono fun _ hfirst => .inl hfirst).first
      | succ i =>
          refine Stops.second (((pieces_failsBy o depth first).within _).mono ?_) fun _ =>
            ((ih hi).mono ?_).first
          · rintro _ ⟨abort, ⟨steps, hfirst⟩, rfl⟩
            exact .inr ⟨0, first, steps, abort, Nat.succ_pos i, rfl, hfirst, rfl⟩
          · rintro _ (⟨abort, habort, rfl⟩ | ⟨j, sibling, steps, abort, hlt, hj, hsibling, rfl⟩)
            · exact .inl ⟨abort, habort, by rw [Nat.add_right_comm, Nat.add_assoc]⟩
            · exact .inr ⟨j + 1, sibling, steps, abort, Nat.succ_lt_succ hlt, hj, hsibling,
                by rw [Nat.add_right_comm, Nat.add_assoc]⟩

/-- If compiling the output of a case fails, compiling the cases does, with it or with one before
it. -/
theorem casePrograms_stops {o : LayoutOptions} {depth number count i : ℕ}
    {cases : List (Condition × Option Node)} {condition : Condition} {output : Node}
    {P : Abort → Prop} (hi : cases[i]? = some (condition, some output))
    (h : (output.pieces o depth).Stops P) :
    (casePrograms o depth number count cases).Stops fun e =>
      (∃ abort, P abort ∧ e = abort.within (.case (number + i) count)) ∨
      ∃ (j : ℕ) (other : Condition) (sibling : Node) (steps : List Step) (abort : Abort), j < i ∧
        cases[j]? = some (other, some sibling) ∧ sibling.EndsAt o depth steps abort ∧
          e = abort.within (.case (number + j) count) := by
  induction cases generalizing number i with
  | nil => cases hi
  | cons first rest ih =>
      cases i with
      | zero =>
          obtain rfl : first = (condition, some output) := Option.some.inj hi
          rw [casePrograms]
          exact ((h.within _).mono fun _ hfirst => .inl hfirst).first
      | succ i =>
          have hlater : (casePrograms o depth (number + 1) count rest).Stops fun e =>
              (∃ abort, P abort ∧ e = abort.within (.case (number + (i + 1)) count)) ∨
              ∃ (j : ℕ) (other : Condition) (sibling : Node) (steps : List Step) (abort : Abort),
                j < i + 1 ∧ (first :: rest)[j]? = some (other, some sibling) ∧
                  sibling.EndsAt o depth steps abort ∧
                    e = abort.within (.case (number + j) count) := by
            refine (ih hi).mono ?_
            rintro _ (⟨abort, habort, rfl⟩ |
              ⟨j, other, sibling, steps, abort, hlt, hj, hsibling, rfl⟩)
            · exact .inl ⟨abort, habort, by rw [Nat.add_right_comm, Nat.add_assoc]⟩
            · exact .inr ⟨j + 1, other, sibling, steps, abort, Nat.succ_lt_succ hlt, hj, hsibling,
                by rw [Nat.add_right_comm, Nat.add_assoc]⟩
          obtain ⟨other, _ | sibling⟩ := first
          · rw [casePrograms]
            exact hlater.first
          · rw [casePrograms]
            refine Stops.second (((pieces_failsBy o depth sibling).within _).mono ?_) fun _ =>
              hlater.first
            rintro _ ⟨abort, ⟨steps, hsibling⟩, rfl⟩
            exact .inr ⟨0, other, sibling, steps, abort, Nat.succ_pos i, rfl, hsibling, rfl⟩

/-- An abort ends compiling at the place of a failure, or at one that comes before it in the
order of the tree. -/
def EndsBy (o : LayoutOptions) (depth : ℕ) (node : Node) (f : Failure) (e : Abort) : Prop :=
  ∃ steps, node.EndsAt o depth steps e ∧
    (steps = f.steps ∧ e = .failure f ∨ List.Lex Step.Before steps f.steps)

/-- Ending in front of a place. -/
theorem EndsAt.before {o : LayoutOptions} {depth : ℕ} {node : Node} {f : Failure} {e : Abort}
    {steps : List Step} (h : node.EndsAt o depth steps e)
    (hbefore : List.Lex Step.Before steps f.steps) : node.EndsBy o depth f e :=
  ⟨steps, h, .inr hbefore⟩

/-- What ends a part by the place of a failure ends the whole by it. -/
theorem EndsBy.within {o : LayoutOptions} {depth inner : ℕ} {node part : Node} {f : Failure}
    {e : Abort} {step : Step} (h : part.EndsBy o inner f e)
    (hlift : ∀ {steps}, part.EndsAt o inner steps e →
      node.EndsAt o depth (step :: steps) (e.within step)) :
    node.EndsBy o depth (f.within step) (e.within step) := by
  obtain ⟨steps, hends, ⟨rfl, rfl⟩ | hbefore⟩ := h
  · exact ⟨_, hlift hends, .inl ⟨rfl, rfl⟩⟩
  · exact ⟨_, hlift hends, .inr (.cons hbefore)⟩

/-- **Compiling fails where an error is kept**, or in front of it. -/
theorem KeepsError.pieces_stops {node : Node} {f : Failure} (h : node.KeepsError f)
    (o : LayoutOptions) (depth : ℕ) : (node.pieces o depth).Stops (node.EndsBy o depth f) := by
  induction h generalizing depth with
  | @element e contents error herror =>
      rw [pieces_element, Element.check, herror]
      refine (Stops.throw ⟨[], .fault ?_, .inl ⟨rfl, rfl⟩⟩).first
      rw [faults, Element.faults, herror]
      exact List.mem_cons_self
  | group =>
      rw [pieces]
      exact .throw ⟨[], .fault (List.mem_singleton_self _), .inl ⟨rfl, rfl⟩⟩
  | @inElement e contents child i f hi _ ih =>
      rw [pieces_element]
      refine Stops.second ((check_failsBy o depth e contents).mono fun _ h => h.before .nil)
        fun hcheck => ?_
      have hopen : e.isClosed = false := by
        by_contra hclosed
        rw [Element.contents_eq_nil_of_faults (Bool.eq_true_of_not_eq_false hclosed)
          (Element.faults_eq_nil (eq_ok_of_orStructure hcheck))] at hi
        cases hi
      refine Stops.second ((openingPieces_failsBy o depth e contents).mono ?_) fun _ => ?_
      · rintro _ ⟨a, h⟩
        exact h.before (.rel .attribute)
      rw [if_neg (by simp [hopen])]
      refine Stops.second ((enter_failsBy o depth contents hopen).mono fun _ h => h.before .nil)
        fun hinner => ?_
      rw [Element.eq_innerDepth_of_enter hinner]
      refine ((childPieces_stops hi (ih _)).mono ?_).first
      rintro _ (⟨abort, habort, rfl⟩ | ⟨j, sibling, steps, abort, hlt, hj, hsibling, rfl⟩)
      · rw [Nat.add_comm 1]
        exact habort.within (.inElement hopen hi)
      · rw [Nat.add_comm 1]
        exact (EndsAt.inElement hopen hj hsibling).before (.rel (.child (Nat.succ_lt_succ hlt)))
  | @inGroup error contents child i f hi _ ih =>
      cases error with
      | some error =>
          rw [pieces]
          exact .throw ((EndsAt.fault (List.mem_singleton_self _)).before .nil)
      | none =>
          rw [pieces]
          refine (childPieces_stops hi (ih depth)).mono ?_
          rintro _ (⟨abort, habort, rfl⟩ | ⟨j, sibling, steps, abort, hlt, hj, hsibling, rfl⟩)
          · rw [Nat.add_comm 1]
            exact habort.within (.inGroup hi)
          · rw [Nat.add_comm 1]
            exact (EndsAt.inGroup hj hsibling).before (.rel (.child (Nat.succ_lt_succ hlt)))
  | @inPrototype name prototype f _ ih =>
      rw [pieces]
      refine Stops.second
        (orStructure_failsBy fun _ herror =>
          (EndsAt.fault (SlotName.mem_nameFaults herror)).before .nil)
        fun {_ _ slot} _ => ((((ih depth).within _).inSubsection slot).mono ?_).first
      rintro _ ⟨abort, habort, rfl⟩
      exact habort.within .inPrototype
  | @inCase cases default condition output i f hi _ ih =>
      rw [pieces]
      refine ((casePrograms_stops hi (ih depth)).mono ?_).first
      rintro _ (⟨abort, habort, rfl⟩ | ⟨j, other, sibling, steps, abort, hlt, hj, hsibling, rfl⟩)
      · rw [Nat.add_comm 1]
        exact habort.within (.inCase hi)
      · rw [Nat.add_comm 1]
        exact (EndsAt.inCase hj hsibling).before (.rel (.case (Nat.succ_lt_succ hlt)))
  | @inDefault cases output f _ ih =>
      rw [pieces]
      refine Stops.second ((casePrograms_failsBy o depth 1 cases.length cases).mono ?_) fun _ =>
        Stops.first ?_
      · rintro _ ⟨i, condition, other, steps, abort, hi, h, rfl⟩
        rw [Nat.add_comm 1]
        exact (EndsAt.inCase hi h).before (.rel .default)
      · rw [defaultProgram]
        refine Stops.first (((ih depth).within _).mono ?_)
        rintro _ ⟨abort, habort, rfl⟩
        exact habort.within .inDefault

/-- **No error of building is lost**, and neither is a child or an attribute. An element and a
group keep the first of the errors that arise when their contents are added in order. An element
has all nodes and all attributes that are added to it, and a group all nodes, with groups replaced
by their members. A tree in which an addition has failed keeps an error somewhere. Whatever the
layout, and whatever is declared already, compiling a tree fails at every place that keeps an error,
with that error, unless it has failed at a place before it. -/
theorem no_error_lost :
    (∀ (name : String) (contents : List Content),
      (element (.bare name) []).raised contents = contents.filterMap Content.elementError ∧
      ∃ e : Element, ofElement name contents = element e (contents.filterMap Content.node?) ∧
        e.name = name ∧ e.attributes = contents.filterMap Content.attribute? ∧
        e.error = ((element (.bare name) []).raised contents).head?) ∧
    (∀ contents : List Content,
      (multi none []).raised contents = contents.filterMap Content.groupError ∧
      ofContents contents = multi ((multi none []).raised contents).head?
        (contents.flatMap Content.members)) ∧
    ∀ node : Node, (node.Misbuilt → ∃ f, node.KeepsError f) ∧
      ∀ f, node.KeepsError f → (∃ error, f.cause = .structural error) ∧
        ∀ (o : LayoutOptions) (scope : Scope), ∃ e next,
          node.compile o scope = (.error e, next) ∧ node.EndsBy o o.rootDepth f e := by
  refine ⟨fun name contents => ⟨raised_element _ _ contents, _, ofElement_eq name contents, ?_, ?_,
    rfl⟩, fun contents => ⟨raised_multi _ _ contents, ofContents_eq contents⟩,
    fun node => ⟨Misbuilt.keepsError, fun f h => ⟨h.structural, fun o scope => ?_⟩⟩⟩
  · exact Element.foldl_taking_name (.bare name) contents
  · exact Element.foldl_taking_attributes (.bare name) contents
  · obtain ⟨e, after, hrun, hends⟩ := h.pieces_stops o o.rootDepth scope
    exact ⟨e, after.next, by rw [compile, hrun], hends⟩

end Node

end

namespace Node

/-- A division with a group to which a group was added, to which a width was added, and behind it
HTML that is not trusted. -/
def misplacedWidth : Node :=
  ofElement "div" [.attribute (.ofName "class" (.literal "note")),
    .node (ofContents [.node (literal "first"),
      .node (ofContents [.width 40, .node (literal "second")]), .node (literal "third")]),
    .node (.raw (.concrete (.untrusted "<b>")))]

/-- `misplacedWidth` keeps the error at the outer one of the groups, and is refused for it. -/
theorem no_error_lost_misplacedWidth :
    let f : Failure := ⟨.structural (.invalidOption .width .multi), [.child 1 (.element "div")]⟩
    misplacedWidth.Misbuilt ∧ (∃ f, misplacedWidth.KeepsError f) ∧ misplacedWidth.KeepsError f ∧
      ∃ e next, misplacedWidth.compile .tidy (.newRoot 1) = (.error e, next) ∧
        misplacedWidth.EndsBy .tidy LayoutOptions.tidy.rootDepth f e ∧ e = .failure f := by
  intro f
  have hmisbuilt : misplacedWidth.Misbuilt := by
    refine .inElement (List.mem_cons_of_mem _ List.mem_cons_self) ?_
    refine .inGroup (List.mem_cons_of_mem _ List.mem_cons_self) (.group ?_)
    rw [raised_multi]
    exact List.cons_ne_nil _ _
  have hkeeps : misplacedWidth.KeepsError f := .inElement (i := 0) rfl .group
  obtain ⟨hexists, hfails⟩ := no_error_lost.2.2 misplacedWidth
  obtain ⟨e, next, hcompile, hends⟩ := (hfails f hkeeps).2 .tidy (.newRoot 1)
  have hrun : (misplacedWidth.compile .tidy (.newRoot 1)).1.map (fun _ => ()) =
      .error (.failure f) := by
    decide +kernel
  rw [hcompile] at hrun
  exact ⟨hmisbuilt, hexists hmisbuilt, hkeeps, e, next, hcompile, hends, Except.error.inj hrun⟩

end Node

end TrustedHtml
