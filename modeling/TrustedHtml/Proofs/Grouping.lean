import TrustedHtml.Proofs.ParallelRuns
import TrustedHtml.Url.Web

/-!
# Groups

A group has no markup, depth or scope of its own: its pieces are those of its contents, one after
the other. The only trace that it leaves is in the steps that lead to a failure. So what compiling
does is told here up to these steps (`Declaring.bare`), and trees are alike if nothing else tells
them apart. As that is an equation between operations, it can be used everywhere in a tree, and
put together with others.

What the contents of an element or a group yield is the concatenation of what each of them yields
(`Node.body`), and so it does not matter whether some of them are a group. From there the
equation is carried up to the root, through elements, groups, prototypes and alternatives.

## Main definitions

* `Node.Alike`: trees that compile in the same way, at every depth and in every layout.
* `Node.Splices`: a group somewhere in a tree gives way to its contents.
* `Node.CompilesAlike`: templates that are the same up to identities.

## Main results

* `Node.body_append`: **contents compile one after the other.**
* `Node.Splices.alike`: a group can give way to its contents.
* `Node.compile_grouping`: **grouping does not matter.**
-/

namespace TrustedHtml

/-! ### Failures by their reason alone -/

namespace Declaring

variable {α β : Type}

/-- The operation, with failures told by their reason alone. -/
def bare (act : Declaring α) : Declaring α := fun s =>
  match act s with
  | .ok a t => .ok a t
  | .error e t => .error e.bare t

variable {act act' : Declaring α}

/-- An operation succeeds whatever is told of its failures. -/
theorem bare_of_ok {s t : Scope} {a : α} (h : act s = .ok a t) : act.bare s = .ok a t := by
  rw [bare, h]

/-- The reason of a failure is told. -/
theorem bare_of_error {s t : Scope} {e : Abort} (h : act s = .error e t) :
    act.bare s = .error e.bare t := by
  rw [bare, h]

/-- Reasons are told of each of two operations. -/
theorem bare_bind (act : Declaring α) (k : α → Declaring β) :
    (act >>= k).bare = act.bare >>= fun a => (k a).bare := by
  funext s
  cases h : act s with
  | ok a t =>
      rw [bind_of_ok (bare_of_ok h), bare, bare, bind_of_ok h]
  | error e t =>
      rw [bind_of_error (bare_of_error h), bare_of_error (bind_of_error h)]

/-- Two operations one after the other, of which each is replaced. -/
theorem bare_bind_congr {k k' : α → Declaring β} (h : act.bare = act'.bare)
    (hk : ∀ a, (k a).bare = (k' a).bare) : (act >>= k).bare = (act' >>= k').bare := by
  rw [bare_bind, bare_bind, h]
  exact bind_congr hk

/-- Where a failure is said to have arisen is not told. -/
theorem bare_within (step : Step) (act : Declaring α) : (act.within step).bare = act.bare := by
  funext s
  simp only [bare, within]
  cases act s with
  | ok a t => rfl
  | error e t => exact congrArg (EStateM.Result.error · t) (e.bare_within step)

/-- Reasons are told of work on the schema of the rows. -/
theorem bare_inSubsection (name : SlotName) (act : Declaring α) :
    (inSubsection name act).bare = inSubsection name act.bare := by
  funext s
  simp only [bare, inSubsection]
  cases act ⟨_, _⟩ with
  | ok a t => rfl
  | error e t => rfl

end Declaring

/-- An element is checked without regard to its contents if it has a closing tag, and else only
with regard to whether there are any. -/
theorem Element.check_congr {e : Element} {contents contents' : List Node}
    (h : e.isClosed = false ∨ contents.isEmpty = contents'.isEmpty) :
    e.check contents = e.check contents' := by
  have hcondition : (e.isClosed && !contents.isEmpty) = (e.isClosed && !contents'.isEmpty) := by
    obtain h | h := h
    · rw [h, Bool.false_and, Bool.false_and]
    · rw [h]
  rw [check, check, hcondition]

namespace Node

open Declaring

variable [UrlReader] {o : LayoutOptions} {depth : ℕ} {node node' : Node}
  {contents contents' rest rest' : List Node}

/-! ### Contents -/

/-- What contents yield, one after the other. -/
def body (o : LayoutOptions) (depth : ℕ) : List Node → Declaring (List Piece)
  | [] => return []
  | child :: rest => do
    let first ← (child.pieces o depth).bare
    return first ++ (← body o depth rest)

/-- What children yield does not depend on their parent, or on the number of the first. -/
theorem bare_childPieces (o : LayoutOptions) (depth : ℕ) (parent : Parent) (number : ℕ)
    (contents : List Node) :
    (childPieces o depth parent number contents).bare = body o depth contents := by
  induction contents generalizing number with
  | nil =>
      rw [childPieces]
      rfl
  | cons child rest ih =>
      rw [childPieces, body, bare_bind, bare_within]
      refine bind_congr fun first => ?_
      rw [bare_bind, ih]
      rfl

/-- **Contents compile one after the other.** -/
theorem body_append (o : LayoutOptions) (depth : ℕ) (contents rest : List Node) :
    body o depth (contents ++ rest) = (do
      let first ← body o depth contents
      return first ++ (← body o depth rest)) := by
  induction contents with
  | nil => simp [body]
  | cons child later ih =>
      rw [List.cons_append, body, ih, body]
      simp only [bind_assoc, pure_bind, List.append_assoc]

/-- What a single child yields. -/
theorem body_singleton (o : LayoutOptions) (depth : ℕ) (node : Node) :
    body o depth [node] = (node.pieces o depth).bare := by
  simp [body]

/-! ### Trees that compile alike -/

/-- **Trees that compile in the same way**, up to the steps that lead to a failure. -/
def Alike (node node' : Node) : Prop :=
  ∀ o depth, (node.pieces o depth).bare = (node'.pieces o depth).bare

/-- Contents that compile in the same way, up to the steps that lead to a failure. -/
def ContentsAlike (contents contents' : List Node) : Prop :=
  ∀ o depth, body o depth contents = body o depth contents'

/-- Contents one after the other are alike if each of them are. -/
theorem ContentsAlike.append (h : ContentsAlike contents contents')
    (hrest : ContentsAlike rest rest') : ContentsAlike (contents ++ rest) (contents' ++ rest') := by
  intro o depth
  rw [body_append, body_append, h o depth, hrest o depth]

/-- A tree in contents gives way to one that is alike. -/
theorem Alike.inContents (h : node.Alike node') (before after : List Node) :
    ContentsAlike (before ++ node :: after) (before ++ node' :: after) := by
  have hnode : ContentsAlike [node] [node'] := fun o depth => by
    rw [body_singleton, body_singleton, h o depth]
  exact .append (fun _ _ => rfl) (hnode.append fun _ _ => rfl)

/-- What a group yields is what its contents yield. -/
theorem bare_pieces_multi (o : LayoutOptions) (depth : ℕ) (contents : List Node) :
    ((multi none contents).pieces o depth).bare = body o depth contents := by
  rw [pieces]
  exact bare_childPieces o depth .multi 1 contents

/-- **A group in contents gives way to its own contents.** -/
theorem contentsAlike_splice (before inner after : List Node) :
    ContentsAlike (before ++ multi none inner :: after) (before ++ inner ++ after) := by
  have hinner : ContentsAlike [multi none inner] inner := fun o depth => by
    rw [body_singleton, bare_pieces_multi]
  rw [List.append_assoc]
  exact .append (fun _ _ => rfl) (hinner.append fun _ _ => rfl)

/-- Groups of contents that are alike. -/
theorem ContentsAlike.multi (h : ContentsAlike contents contents')
    (error : Option StructureError) : (multi error contents).Alike (.multi error contents') := by
  intro o depth
  cases error with
  | some error =>
      rw [pieces, pieces]
  | none => rw [bare_pieces_multi, bare_pieces_multi, h o depth]

/-- Elements with contents that are alike, if these are checked alike. -/
theorem ContentsAlike.element (h : ContentsAlike contents contents') {e : Element}
    (hcheck : e.check contents = e.check contents') :
    (element e contents).Alike (.element e contents') := by
  intro o depth
  rw [pieces_element, pieces_element, hcheck]
  refine bare_bind_congr rfl fun _ => bare_bind_congr rfl fun opening => ?_
  cases e.isClosed with
  | true => rfl
  | false =>
      refine bare_bind_congr rfl fun inner => bare_bind_congr ?_ fun _ => rfl
      rw [bare_childPieces, bare_childPieces, h o inner]

/-- Subsections with prototypes that are alike. -/
theorem Alike.subsection (h : node.Alike node') (name : String) :
    (subsection name node).Alike (.subsection name node') := by
  intro o depth
  rw [pieces, pieces]
  refine bare_bind_congr rfl fun slot => bare_bind_congr ?_ fun _ => rfl
  rw [bare_inSubsection, bare_inSubsection, bare_within, bare_within, h o depth]

/-- A case gives way to one with an output that is alike. -/
theorem Alike.casePrograms (h : node.Alike node') (o : LayoutOptions) (depth count : ℕ)
    (condition : Condition) (before after : List (Condition × Option Node)) (number : ℕ) :
    (casePrograms o depth number count (before ++ (condition, some node) :: after)).bare =
      (casePrograms o depth number count (before ++ (condition, some node') :: after)).bare := by
  induction before generalizing number with
  | nil =>
      rw [List.nil_append, List.nil_append, Node.casePrograms, Node.casePrograms]
      refine bare_bind_congr ?_ fun _ => rfl
      rw [bare_within, bare_within, h o depth]
  | cons first rest ih =>
      obtain ⟨other, _ | output⟩ := first
      · rw [List.cons_append, List.cons_append, Node.casePrograms, Node.casePrograms]
        exact bare_bind_congr (ih (number + 1)) fun _ => rfl
      · rw [List.cons_append, List.cons_append, Node.casePrograms, Node.casePrograms]
        exact bare_bind_congr rfl fun _ => bare_bind_congr (ih (number + 1)) fun _ => rfl

/-- Switches with a case whose outputs are alike. -/
theorem Alike.switchCase (h : node.Alike node') (condition : Condition)
    (before after : List (Condition × Option Node)) (default : Option Node) :
    (switch (before ++ (condition, some node) :: after) default).Alike
      (.switch (before ++ (condition, some node') :: after) default) := by
  intro o depth
  rw [pieces, pieces]
  refine bare_bind_congr ?_ fun _ => rfl
  have hcount : (before ++ (condition, some node) :: after).length =
      (before ++ (condition, some node') :: after).length := by simp
  rw [hcount]
  exact h.casePrograms o depth _ condition before after 1

/-- Switches with defaults that are alike. -/
theorem Alike.switchDefault (h : node.Alike node') (cases : List (Condition × Option Node)) :
    (switch cases (some node)).Alike (.switch cases (some node')) := by
  intro o depth
  rw [pieces, pieces]
  refine bare_bind_congr rfl fun _ => bare_bind_congr ?_ fun _ => rfl
  rw [defaultProgram, defaultProgram]
  refine bare_bind_congr ?_ fun _ => rfl
  rw [bare_within, bare_within, h o depth]

/-! ### Splicing -/

/-- **A group gives way to its contents**: it is somewhere in the tree, without a stored error,
among the contents of a group or of an element that has a closing tag. -/
inductive Splices : Node → Node → Prop
  | multi {error : Option StructureError} {before inner after : List Node} :
      Splices (.multi error (before ++ .multi none inner :: after))
        (.multi error (before ++ inner ++ after))
  | element {e : Element} {before inner after : List Node} (hclosed : e.isClosed = false) :
      Splices (.element e (before ++ .multi none inner :: after))
        (.element e (before ++ inner ++ after))
  | inMulti {error : Option StructureError} {before after : List Node} {child child' : Node}
      (h : Splices child child') :
      Splices (.multi error (before ++ child :: after)) (.multi error (before ++ child' :: after))
  | inElement {e : Element} {before after : List Node} {child child' : Node}
      (h : Splices child child') :
      Splices (.element e (before ++ child :: after)) (.element e (before ++ child' :: after))
  | inSubsection {name : String} {prototype prototype' : Node}
      (h : Splices prototype prototype') :
      Splices (.subsection name prototype) (.subsection name prototype')
  | inCase {before after : List (Condition × Option Node)} {condition : Condition}
      {output output' : Node} {default : Option Node} (h : Splices output output') :
      Splices (.switch (before ++ (condition, some output) :: after) default)
        (.switch (before ++ (condition, some output') :: after) default)
  | inDefault {cases : List (Condition × Option Node)} {output output' : Node}
      (h : Splices output output') :
      Splices (.switch cases (some output)) (.switch cases (some output'))

/-- **A group can give way to its contents** anywhere in a tree. -/
theorem Splices.alike (h : node.Splices node') : node.Alike node' := by
  induction h with
  | multi => exact (contentsAlike_splice _ _ _).multi _
  | element hclosed =>
      exact (contentsAlike_splice _ _ _).element (Element.check_congr (.inl hclosed))
  | inMulti _ ih => exact (ih.inContents _ _).multi _
  | @inElement e before after child child' _ ih =>
      have hempty : (before ++ child :: after).isEmpty = (before ++ child' :: after).isEmpty := by
        cases before <;> rfl
      exact (ih.inContents before after).element (Element.check_congr (.inr hempty))
  | inSubsection _ ih => exact ih.subsection _
  | inCase _ ih => exact ih.switchCase _ _ _ _
  | inDefault _ ih => exact ih.switchDefault _

end Node

/-! ### Identities -/

namespace Program

/-- A program is renumbered chunk by chunk. -/
theorem renumber_eq_map (f : SchemaId → SchemaId) (program : Program) :
    renumber f program = program.map (renumberChunk f) := by
  induction program with
  | nil => rfl
  | cons chunk rest ih => rw [renumber, ih, List.map_cons]

end Program

namespace Assembly

variable {o : LayoutOptions} {f : SchemaId → SchemaId}

/-- What is being assembled, with other identities. -/
def renumber (f : SchemaId → SchemaId) (a : Assembly) : Assembly :=
  ⟨Program.renumber f a.chunks, a.pending⟩

/-- Making the static text a chunk commutes with renumbering. -/
theorem flush_renumber (f : SchemaId → SchemaId) (a : Assembly) :
    (a.renumber f).flush = a.flush.renumber f := by
  obtain ⟨chunks, _ | texts⟩ := a <;> rfl

/-- Writing commutes with renumbering. -/
theorem write_renumber (o : LayoutOptions) (f : SchemaId → SchemaId) (a : Assembly)
    (text : String) : (a.renumber f).write o text = (a.write o text).renumber f := by
  rw [write, write, flush_renumber]
  cases o.separate <;> rfl

/-- Fresh lines do not depend on identities. -/
theorem onFreshLine_renumber (f : SchemaId → SchemaId) (a : Assembly) :
    (a.renumber f).onFreshLine = a.onFreshLine := by
  obtain ⟨_ | _, _ | texts⟩ := a <;> rfl

/-- Adding a piece commutes with renumbering. -/
theorem add_renumber {piece piece' : Piece}
    (h : piece.Corresponds o f (Program.IsRenumbered f) piece') (a : Assembly) :
    (a.renumber f).add o piece' = (a.add o piece).renumber f := by
  cases h with
  | text => exact a.write_renumber o f _
  | freshLine =>
      rw [add, add, onFreshLine_renumber, write_renumber]
      split <;> rfl
  | step hchunk =>
      rw [add, add, flush_renumber, Program.IsRenumbered.chunk hchunk]
      rfl

end Assembly

/-- **Programs are the same up to identities** if they are assembled from such pieces. -/
theorem Program.assembles_isRenumbered (o : LayoutOptions) (f : SchemaId → SchemaId) :
    Assembles o o.separate f (IsRenumbered f) := by
  intro found found' hfound
  have hrun : ∀ a : Assembly, found'.foldl (Assembly.add o) (a.renumber f) =
      (found.foldl (Assembly.add o) a).renumber f := by
    induction hfound with
    | nil => exact fun _ => rfl
    | cons hpiece _ ih =>
        intro a
        rw [List.foldl_cons, List.foldl_cons, Assembly.add_renumber hpiece, ih]
  have hflush : (found'.foldl (Assembly.add o) .empty).flush.chunks =
      renumber f (found.foldl (Assembly.add o) .empty).flush.chunks := by
    have hempty := hrun .empty
    rw [Assembly.renumber, Assembly.empty, renumber, ← Assembly.empty] at hempty
    rw [hempty, Assembly.flush_renumber]
    rfl
  change (found'.foldl (Assembly.add o) .empty).flush.chunks.reverse = _
  rw [hflush, assemble, renumber_eq_map, renumber_eq_map, List.map_reverse]

/-! ### Templates -/

namespace Node

section

variable [UrlReader] {node node' : Node}

/-- **Templates that are the same up to identities**, in every layout and against all schemas that
are; if there is none, compiling has failed for the same reason. -/
def CompilesAlike (node node' : Node) : Prop :=
  ∀ o f scope scope', Scope.Renumbered f scope scope' →
    (∃ e e' next next', node.compile o scope = (.error e, next) ∧
      node'.compile o scope' = (.error e', next') ∧ e.bare = e'.bare) ∨
    ∃ t next next', node.compile o scope = (.ok t, next) ∧
      node'.compile o scope' = (.ok (t.renumber f), next')

/-- Trees that compile in the same way have templates that are the same up to identities. -/
theorem Alike.compilesAlike (h : node.Alike node') : node.CompilesAlike node' := by
  intro o f scope scope' hscope
  have hassembles := Program.assembles_isRenumbered o f
  have hbare := congrFun (h o o.rootDepth) scope
  have hrenumbered := pieces_parallel hassembles o.rootDepth node' scope scope' hscope
  rw [compile, compile]
  cases hnode : node.pieces o o.rootDepth scope with
  | ok found final =>
      rw [Declaring.bare_of_ok hnode] at hbare
      obtain ⟨found₁, found', final₁, final', hfound, hfound', hfinal, hpieces⟩ |
        ⟨e, final₁, final', he, -, -⟩ := hrenumbered
      · rw [Declaring.bare_of_ok hfound] at hbare
        cases hbare
        have hprogram := hassembles _ _ hpieces
        have ht : (⟨final'.schema, Program.assemble o found'⟩ : Template) =
            (⟨final.schema, Program.assemble o found⟩ : Template).renumber f := by
          rw [Template.renumber, hfinal.schema]
          exact congrArg (Template.mk _) hprogram
        rw [show node'.pieces o o.rootDepth scope' = _ from hfound']
        exact .inr ⟨_, _, _, rfl, by rw [← ht]⟩
      · rw [Declaring.bare_of_error he] at hbare
        cases hbare
  | error e final =>
      rw [Declaring.bare_of_error hnode] at hbare
      obtain ⟨found₁, found', final₁, final', hfound, -, -, -⟩ |
        ⟨e₁, final₁, final', he, he', -⟩ := hrenumbered
      · rw [Declaring.bare_of_ok hfound] at hbare
        cases hbare
      · rw [Declaring.bare_of_error he] at hbare
        rw [show node'.pieces o o.rootDepth scope' = _ from he']
        injection hbare with hreason
        exact .inl ⟨e, e₁, _, _, rfl, rfl, hreason⟩

/-- A group of one tree is like the tree. -/
theorem alike_multi_singleton (node : Node) : (multi none [node]).Alike node := by
  intro o depth
  rw [bare_pieces_multi, body_singleton]

/-- **Grouping does not matter.** Where a group without a stored error is among the contents of
another group or of an element with a closing tag, be it at any depth, in a prototype or in an
alternative, its contents can take its place: the template is the same up to identities, in every
layout and against every schema, or compiling fails for the same reason. So it does not matter how
contents are grouped, and an empty group is neutral. -/
theorem compile_grouping :
    (∀ node node' : Node, node.Splices node' → node.CompilesAlike node') ∧
    (∀ first second third : List Node,
      (multi none (multi none (first ++ second) :: third)).CompilesAlike
        (multi none (first ++ [multi none (second ++ third)]))) ∧
    ∀ node : Node, (multi none [multi none [], node]).CompilesAlike node ∧
      (multi none [node, multi none []]).CompilesAlike node := by
  refine ⟨fun node node' h => h.alike.compilesAlike, fun first second third => ?_, fun node => ?_⟩
  · have hleft : (multi none (multi none (first ++ second) :: third)).Alike
        (multi none (first ++ second ++ third)) :=
      (contentsAlike_splice [] (first ++ second) third).multi none
    have hright : (multi none (first ++ [multi none (second ++ third)])).Alike
        (multi none (first ++ (second ++ third) ++ [])) :=
      (contentsAlike_splice first (second ++ third) []).multi none
    rw [List.append_nil, ← List.append_assoc] at hright
    exact Alike.compilesAlike fun o depth => (hleft o depth).trans (hright o depth).symm
  · have hleft : (multi none [multi none [], node]).Alike (multi none [node]) :=
      (contentsAlike_splice [] [] [node]).multi none
    have hright : (multi none [node, multi none []]).Alike (multi none [node]) :=
      (contentsAlike_splice [node] [] []).multi none
    have hnode := alike_multi_singleton node
    exact ⟨Alike.compilesAlike fun o depth => (hleft o depth).trans (hnode o depth),
      Alike.compilesAlike fun o depth => (hright o depth).trans (hnode o depth)⟩

end

/-- A list with an item of the given contents for every row. -/
def listing (items : List Node) : Node :=
  .element ⟨"ul", [], .block, false, false, none⟩
    [.subsection "skills" (.element ⟨"li", [], .block, false, false, none⟩ items)]

/-- The group in every item of a listing can give way to its contents, here against schemas whose
identities differ by six. -/
theorem compile_grouping_listing :
    let grouped := listing [.literal "Skill: ", .multi none [.ofText profileSkill, .literal "."]]
    let spliced := listing [.literal "Skill: ", .ofText profileSkill, .literal "."]
    grouped.Splices spliced ∧ ∃ t next next',
      grouped.compile .tidy (.newRoot 1) = (.ok t, next) ∧
        spliced.compile .tidy (.newRoot 7) =
          (.ok (t.renumber fun id => ⟨id.number + 6⟩), next') := by
  intro grouped spliced
  have hsplices : grouped.Splices spliced :=
    @Splices.inElement _ [] [] _ _ (.inSubsection
      (@Splices.element _ [.literal "Skill: "] [.ofText profileSkill, .literal "."] [] rfl))
  have hok : (grouped.compile .tidy (.newRoot 1)).1.toBool = true := by
    decide +kernel
  obtain ⟨e, _, _, _, he, -, -⟩ | htemplate :=
    compile_grouping.1 grouped spliced hsplices .tidy _ _ _ (Scope.renumbered_newRoot 1 6)
  · rw [he] at hok
    cases hok
  · exact ⟨hsplices, htemplate⟩

end Node

end TrustedHtml
