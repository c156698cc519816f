import TrustedHtml.Proofs.Rendered
import TrustedHtml.Url.Web

/-!
# Direct Evaluation

What the output of a tree is meant to be in the compact layout, told without a compiler:
`Node.evaluate` goes through the tree with a value set and puts texts together. An element is
its tags around its contents, a text is its value reflowed, a subsection is its prototype once
for every row, and a switch is its first alternative that holds.

Compiling and rendering a tree gives the same text, and overflows in the same place, however
its static text is cut into chunks and whatever schema it was compiled against. There is no
fresh line in the compact layout, so the output is determined by the page of the tree.

## Main results

* `Node.page_evaluates`: a page is written as the tree evaluates.
* `Node.renderToString_eq_evaluate`: **rendering a compiled tree is direct evaluation.**
-/

namespace TrustedHtml

section

variable [UrlReader]

/-! ### Evaluating a tree -/

/-- An attribute with the value it has for a value set. -/
def Attribute.evaluate (vs : ValueSet) (a : Attribute) : String :=
  s!" {a.name}=\"{a.value.content a.place vs}\""

/-- The opening tag of an element, with the last attribute of each name. -/
def Element.evaluate (vs : ValueSet) (e : Element) : String :=
  s!"<{e.name}" ++ String.join ((Attribute.lastOfEachName e.attributes).map (·.evaluate vs))
    ++ (if e.xmlSelfClosing then "/>" else ">")

namespace Node

mutual

/-- **The output of a tree** for a value set, in the compact layout. -/
def evaluate (o : LayoutOptions) : Node → ValueSet → Except Overflow String
  | .element e contents, vs => do
      if e.isClosed then return e.evaluate vs
      return e.evaluate vs ++ (← evaluateChildren o contents vs) ++ s!"</{e.name}>"
  | .text value width, vs => (o.reflow o.rootDepth width).apply (value.content .text vs)
  | .raw value, vs => return value.content .raw vs
  | .multi _ contents, vs => evaluateChildren o contents vs
  | .subsection name prototype, vs =>
      return String.join (← (vs.rowsNamed name).mapM fun row => evaluate o prototype row)
  | .switch cases default, vs =>
      (evaluateCases o cases vs).getD (evaluateOutput o default vs)

/-- The outputs of children, one after the other. -/
def evaluateChildren (o : LayoutOptions) : List Node → ValueSet → Except Overflow String
  | [], _ => return ""
  | child :: rest, vs => return (← evaluate o child vs) ++ (← evaluateChildren o rest vs)

/-- The output of the first case whose condition holds, if there is one. -/
def evaluateCases (o : LayoutOptions) :
    List (Condition × Option Node) → ValueSet → Option (Except Overflow String)
  | [], _ => none
  | (condition, output) :: rest, vs =>
      if condition vs then some (evaluateOutput o output vs) else evaluateCases o rest vs

/-- The output of an alternative; one without an output produces nothing. -/
def evaluateOutput (o : LayoutOptions) : Option Node → ValueSet → Except Overflow String
  | none, _ => return ""
  | some output, vs => evaluate o output vs

end

end Node

end

/-! ### Pages that are determined -/

/-- A page that is written as `result`, in whatever way its bits are shown. -/
inductive Page.Evaluates : Page → Except Overflow String → Prop
  | ok {page : Page} {s : String} (hstopped : page.stopped = none)
      (htext : ∀ t, page.Shows t → t = s) : Evaluates page (.ok s)
  | overflow {page : Page} {e : Overflow} (hstopped : page.stopped = some e) :
      Evaluates page (.error e)

namespace Page

variable {page later : Page} {result result' : Except Overflow String}

/-- Nothing is written for no bits. -/
theorem evaluates_empty : empty.Evaluates (.ok "") := by
  refine .ok rfl ?_
  rintro t ⟨parts, hparts, rfl⟩
  cases hparts
  rfl

/-- A bit that can be shown in one way only is written in that way. -/
theorem evaluates_ofBit {bit : Bit} {s : String} (h : ∀ t, bit.Shows t → t = s) :
    (ofBit bit).Evaluates (.ok s) := by
  refine .ok rfl ?_
  rintro t ⟨parts, hparts, rfl⟩
  obtain ⟨part, rfl, hpart⟩ : ∃ part, parts = [part] ∧ bit.Shows part := by
    cases hparts with
    | cons hbit hrest =>
        cases hrest
        exact ⟨_, rfl, hbit⟩
  simpa using h part hpart

/-- Markup is written as it is. -/
theorem evaluates_markup (s : String) : (markup s).Evaluates (.ok s) :=
  evaluates_ofBit fun t h => by cases h; rfl

/-- A value is written as it is. -/
theorem evaluates_value (place : Place) (source : Option (SafeString × TrustLevel)) (s : String) :
    (ofBit (.value place source s)).Evaluates (.ok s) :=
  evaluates_ofBit fun t h => by cases h; rfl

/-- Pages one after the other are written one after the other, up to the first overflow. -/
theorem Evaluates.append (h : page.Evaluates result) (hlater : later.Evaluates result') :
    (page.append later).Evaluates (do return (← result) ++ (← result')) := by
  cases h with
  | overflow hstopped =>
      rw [Page.append, hstopped]
      exact .overflow hstopped
  | ok hstopped htext =>
      cases hlater with
      | overflow hlater =>
          refine .overflow ?_
          rw [Page.append, hstopped]
          exact hlater
      | ok hlater htext' =>
          refine .ok ?_ fun t ht => ?_
          · rw [Page.append, hstopped]
            exact hlater
          · obtain ⟨s, s', hs, hs', rfl⟩ := ht.of_append hstopped
            rw [htext s hs, htext' s' hs']

/-- A page that does not end early is written as it evaluates. -/
theorem Evaluates.eq_ok {text : String} (h : page.Evaluates result) (hstopped : page.stopped = none)
    (hshows : page.Shows text) : result = .ok text := by
  cases h with
  | ok _ htext => rw [htext text hshows]
  | overflow hsome =>
      rw [hstopped] at hsome
      cases hsome

/-- A page that ends early evaluates to what ended it. -/
theorem Evaluates.eq_error {e : Overflow} (h : page.Evaluates result)
    (hstopped : page.stopped = some e) : result = .error e := by
  cases h with
  | ok hnone _ =>
      rw [hstopped] at hnone
      cases hnone
  | overflow hsome => rw [Option.some.inj (hstopped.symm.trans hsome)]

/-- Results are joined one after the other. -/
theorem join_mapM_cons {α : Type} (evaluate : α → Except Overflow String) (a : α) (rest : List α) :
    (do return String.join (← (a :: rest).mapM evaluate)) =
      (do return (← evaluate a) ++ (← (do return String.join (← rest.mapM evaluate)))) := by
  simp [List.mapM_cons, String.join_cons]

/-- Rows are written one after the other. -/
theorem rows_evaluate {rows : List ValueSet} {given : List (List BindArg)}
    {R : ValueSet → List BindArg → Prop} {page : ValueSet → List BindArg → Page}
    {evaluate : ValueSet → Except Overflow String} (hrows : List.Forall₂ R rows given)
    (h : ∀ row args, R row args → (page row args).Evaluates (evaluate row)) :
    ((rows.zip given).foldr (fun row later => (page row.1 row.2).append later) .empty).Evaluates
      (do return String.join (← rows.mapM evaluate)) := by
  induction hrows with
  | nil => exact evaluates_empty
  | @cons row args rows given hrow hrest ih =>
      have happend := (h row args hrow).append ih
      rwa [← join_mapM_cons] at happend

end Page

/-! ### The page of a tree in the compact layout -/

section

variable [UrlReader] {o : LayoutOptions} {vs : ValueSet} {args : List BindArg}

/-- An attribute is written as it evaluates. -/
theorem Attribute.page_evaluates (vs : ValueSet) (args : List BindArg) (a : Attribute) :
    (a.page vs args).Evaluates (.ok (a.evaluate vs)) := by
  have hvalue := Page.evaluates_value a.place (a.value.source? a.place vs.schema args)
    (a.value.content a.place vs)
  have hpage := (Page.evaluates_markup s!" {a.name}=\"").append
    (hvalue.append (Page.evaluates_markup "\""))
  have hassoc : a.evaluate vs =
      s!" {a.name}=\"" ++ (a.value.content a.place vs ++ "\"") := by
    simp only [evaluate, String.append_assoc]
    rfl
  rw [hassoc]
  exact hpage

/-- Attributes are written one after the other. -/
theorem Attribute.pages_evaluate (vs : ValueSet) (args : List BindArg) :
    ∀ attributes : List Attribute,
      (attributes.foldr (fun a later => (a.page vs args).append later) Page.empty).Evaluates
        (.ok (String.join (attributes.map (·.evaluate vs))))
  | [] => Page.evaluates_empty
  | a :: rest => by
      rw [List.map_cons, String.join_cons]
      exact (a.page_evaluates vs args).append (pages_evaluate vs args rest)

/-- An opening tag is written as it evaluates. -/
theorem Element.openingPage_evaluates (vs : ValueSet) (args : List BindArg) (e : Element) :
    (e.openingPage vs args).Evaluates (.ok (e.evaluate vs)) :=
  ((Page.evaluates_markup _).append (Attribute.pages_evaluate vs args _)).append
    (Page.evaluates_markup _)

namespace Node

mutual

/-- **A page is written as the tree evaluates**, in the compact layout. -/
theorem page_evaluates (hcompact : o.isCompact = true) {vs : ValueSet} {args : List BindArg}
    (hbound : vs.BoundTo args) :
    ∀ node : Node, (node.page o o.rootDepth vs args).Evaluates (node.evaluate o vs)
  | .element e contents => by
      have hblock : e.isBlock o = false := by simp [Element.isBlock, hcompact]
      have hopening := e.openingPage_evaluates vs args
      have hbody := childPages_evaluates hcompact hbound contents
      rw [page, evaluate]
      simp only [Element.startPage, Element.breakPage, Element.innerDepth, hblock,
        Bool.false_eq_true, ↓reduceIte, Page.empty_append, Page.append_empty]
      cases hclosed : e.isClosed with
      | true => exact hopening
      | false =>
          have hwhole := (hopening.append hbody).append (Page.evaluates_markup s!"</{e.name}>")
          simp only [Bool.false_eq_true, ↓reduceIte]
          cases hchildren : evaluateChildren o contents vs with
          | ok body =>
              rw [hchildren] at hwhole
              exact hwhole
          | error overflow =>
              rw [hchildren] at hwhole
              exact hwhole
  | .text value width => by
      rw [page, evaluate, Value.textPage]
      cases (o.reflow o.rootDepth width).apply (value.content .text vs) with
      | ok text => exact Page.evaluates_value ..
      | error e => exact .overflow rfl
  | .raw value => by
      rw [page, evaluate]
      exact Page.evaluates_value ..
  | .multi error contents => by
      rw [page, evaluate]
      exact childPages_evaluates hcompact hbound contents
  | .subsection name prototype => by
      rw [page, evaluate]
      refine Page.rows_evaluate (hbound.rowsNamed name) fun row args hrow => ?_
      exact page_evaluates hcompact hrow prototype
  | .switch cases default => by
      rw [page, evaluate]
      exact getD_of_rel (casePage_evaluates hcompact hbound cases)
        fun _ => outputPage_evaluates hcompact hbound default

/-- Children are written as they evaluate. -/
theorem childPages_evaluates (hcompact : o.isCompact = true) {vs : ValueSet} {args : List BindArg}
    (hbound : vs.BoundTo args) :
    ∀ contents : List Node,
      (childPages o o.rootDepth contents vs args).Evaluates (evaluateChildren o contents vs)
  | [] => Page.evaluates_empty
  | child :: rest => (page_evaluates hcompact hbound child).append
      (childPages_evaluates hcompact hbound rest)

/-- The case that is chosen is written as it evaluates. -/
theorem casePage_evaluates (hcompact : o.isCompact = true) {vs : ValueSet} {args : List BindArg}
    (hbound : vs.BoundTo args) :
    ∀ cases : List (Condition × Option Node),
      Option.Rel Page.Evaluates (casePage o o.rootDepth cases vs args) (evaluateCases o cases vs)
  | [] => .none
  | (condition, output) :: rest => by
      rw [casePage, evaluateCases]
      by_cases hholds : condition vs
      · rw [if_pos hholds, if_pos hholds]
        exact .some (outputPage_evaluates hcompact hbound output)
      · rw [if_neg hholds, if_neg hholds]
        exact casePage_evaluates hcompact hbound rest

/-- An alternative is written as it evaluates. -/
theorem outputPage_evaluates (hcompact : o.isCompact = true) {vs : ValueSet} {args : List BindArg}
    (hbound : vs.BoundTo args) :
    ∀ output : Option Node,
      (outputPage o o.rootDepth output vs args).Evaluates (evaluateOutput o output vs)
  | none => Page.evaluates_empty
  | some output => page_evaluates hcompact hbound output

end

/-- A template whose tree has a page that is written as `result` renders to it. -/
theorem renderToString_of_evaluates {node : Node} {scope : Scope} {t : Template} {next : ℕ}
    {result : Except Overflow String} (hwf : scope.schema.WellFormed)
    (hcompile : node.compile o scope = (.ok t, next)) (hbind : t.bind args = .ok vs)
    (hpage : (node.page o o.rootDepth vs args).Evaluates result) :
    t.renderToString vs = result.mapError .overflow := by
  obtain ⟨text, htext, hstopped, hshows⟩ | ⟨e, herror, hstopped⟩ :=
    renderToString_cases hwf hcompile hbind
  · rw [htext, hpage.eq_ok hstopped hshows]
    rfl
  · rw [herror, hpage.eq_error hstopped]
    rfl

/-- **Rendering a compiled tree is direct evaluation.** In the compact layout the output of a
template that was compiled from a tree, against whatever schema, is the output of the tree for
the values that were bound, and if text cannot be reflowed for an overflow, then in both. -/
theorem renderToString_eq_evaluate {node : Node} {scope : Scope} {t : Template} {next : ℕ}
    (hcompact : o.isCompact = true) (hwf : scope.schema.WellFormed)
    (hcompile : node.compile o scope = (.ok t, next)) (hbind : t.bind args = .ok vs) :
    t.renderToString vs = (node.evaluate o vs).mapError .overflow := by
  obtain ⟨hwf', -⟩ := compiles_of_compile hwf hcompile
  have hpage := page_evaluates hcompact ⟨_, hwf', Schema.bound_of_bind hbind⟩ node
  obtain ⟨text, htext, hstopped, hshows⟩ | ⟨e, herror, hstopped⟩ :=
    renderToString_cases hwf hcompile hbind
  · rw [htext]
    generalize node.evaluate o vs = result at hpage ⊢
    cases hpage with
    | ok _ hresult =>
        rw [hresult text hshows]
        rfl
    | overflow hsome =>
        rw [hstopped] at hsome
        cases hsome
  · rw [herror]
    generalize node.evaluate o vs = result at hpage ⊢
    cases hpage with
    | ok hnone _ =>
        rw [hstopped] at hnone
        cases hnone
    | overflow hsome =>
        rw [Option.some.inj (hstopped.symm.trans hsome)]
        rfl

end Node

end

/-- The compact layout of `Node.profile`, evaluated and rendered. -/
theorem Node.renderToString_eq_evaluate_profile : ∃ t next vs,
    profile.compile .compact (.newRoot 1) = (.ok t, next) ∧
      t.bind (profileArgs "<jd>" "a b") = .ok vs ∧
      t.renderToString vs = (profile.evaluate .compact vs).mapError .overflow ∧
      profile.evaluate .compact vs = .ok "<p data-user=\"&lt;jd&gt;\">&lt;jd&gt;a b</p>" := by
  have hruns : profile.runs .compact (profileArgs "<jd>" "a b") (fun _ vs =>
      decide (profile.evaluate .compact vs =
        .ok "<p data-user=\"&lt;jd&gt;\">&lt;jd&gt;a b</p>")) = true := by
    decide +kernel
  obtain ⟨t, next, vs, hcompile, hbind, houtput⟩ := exists_of_runs hruns
  have hroot : (Scope.newRoot 1).schema.WellFormed := Schema.wellFormed_of_empty rfl rfl
  exact ⟨t, next, vs, hcompile, hbind,
    renderToString_eq_evaluate rfl hroot hcompile hbind, of_decide_eq_true houtput⟩

end TrustedHtml
