import TrustedHtml.Proofs.DirectEvaluation
import TrustedHtml.Proofs.Replacement
import TrustedHtml.Url.Web

/-!
# Constants and Variables are Interchangeable

A string is checked and reflowed when a tree is compiled if it stands in the tree, and when a
template is bound and rendered if it is bound to a variable. In the compact layout the two ways
agree: if strings of a tree are replaced by variables with names of their own, the changed tree
compiles as well, arguments that give the strings back in every row that has the variables are
bound to it, and it renders to what the original tree renders to.

Both templates render to what their trees evaluate to, so that it is enough to compare the trees.
As in a lemma about substitution the changed tree is evaluated for values that hold the replaced
strings, each of them as it has been checked for its place, and it evaluates to the same text.

## Main definitions

* `ValueSet.Supplies`: values with the replaced strings among them.

## Main results

* `Scope.useAll_adds`: the schemas of the two trees differ by additions.
* `Node.Replaces.evaluate_eq`: the two trees evaluate to the same text.
* `Node.compile_replaces`: **constants and variables are interchangeable.**
-/

namespace TrustedHtml

/-- Rows give the same results if they do one by one. -/
theorem mapM_eq_of_forall₂ {α β ε : Type} {R : α → α → Prop} {rows rows' : List α}
    {f g : α → Except ε β} (h : List.Forall₂ R rows rows')
    (heq : ∀ row row', R row row' → g row' = f row) : rows'.mapM g = rows.mapM f := by
  induction h with
  | nil => rfl
  | cons hrow _ ih => rw [List.mapM_cons, List.mapM_cons, heq _ _ hrow, ih]

section

variable [UrlReader]

/-! ### Values with the replaced strings -/

/-- `vs'` holds what `vs` does, and beyond it strings for variables that are among `names`,
with all of `used` among them. -/
def ValueSet.Supplies (names : List SlotName) (used : List Addition) (vs vs' : ValueSet) : Prop :=
  ∃ additions, used ⊆ additions ∧ additions.map (·.name) ⊆ names ∧ vs.Adds additions vs'

namespace ValueSet.Supplies

variable {names : List SlotName} {used first later : List Addition} {vs vs' : ValueSet}

/-- A part of the strings. -/
theorem left (h : vs.Supplies names (first ++ later) vs') : vs.Supplies names first vs' := by
  obtain ⟨additions, hused, hnames, hadds⟩ := h
  exact ⟨additions, (List.append_subset.mp hused).1, hnames, hadds⟩

/-- The other part of the strings. -/
theorem right (h : vs.Supplies names (first ++ later) vs') : vs.Supplies names later vs' := by
  obtain ⟨additions, hused, hnames, hadds⟩ := h
  exact ⟨additions, (List.append_subset.mp hused).2, hnames, hadds⟩

/-- Other variables have the values they had. -/
theorem scalarByName_eq (h : vs.Supplies names used vs') {name : SlotName} (hname : name ∉ names) :
    vs.scalarByName name.text = vs'.scalarByName name.text := by
  obtain ⟨additions, -, hnames, ⟨-, kept, -, -, -⟩⟩ := h
  refine kept fun a ha _ hsame => hname ?_
  exact SlotName.text_inj.mp hsame ▸ hnames (List.mem_map_of_mem ha)

/-- A replaced string is the value of its variable, as its check leaves it. -/
theorem exists_scalarByName (h : vs.Supplies names used vs') {a : Addition} (ha : a ∈ used)
    (hpath : a.path = []) :
    ∃ text, a.value.check a.level = .ok text ∧ vs'.scalarByName a.name.text = some text := by
  obtain ⟨additions, hused, -, ⟨-, -, added, -, -⟩⟩ := h
  exact added a (hused ha) hpath

/-- A condition that ignores the names holds if it did. -/
theorem condition_eq (h : vs.Supplies names used vs') {c : Condition}
    (hc : c.Ignores (names.map (·.text))) : c vs = c vs' := by
  obtain ⟨additions, -, hnames, hadds⟩ := h
  exact hc (fun a ha => List.mem_map_of_mem (hnames (List.mem_map_of_mem ha))) hadds

/-- The rows hold the strings that are replaced in them. -/
theorem rowsNamed {name : String} (h : vs.Supplies names (used.map (·.inside name)) vs') :
    List.Forall₂ (Supplies names used) (vs.rowsNamed name) (vs'.rowsNamed name) := by
  obtain ⟨additions, hused, hnames, hadds⟩ := h
  have hunder : used ⊆ Addition.under name additions := fun a ha =>
    Addition.mem_under.mpr (hused (List.mem_map_of_mem ha))
  have hsub : (Addition.under name additions).map (·.name) ⊆ names := fun n hn =>
    hnames ((Addition.names_under_sublist name additions).subset hn)
  exact (hadds.rowsNamed name).imp fun _ _ hrow => ⟨_, hunder, hsub, hrow⟩

end ValueSet.Supplies

/-! ### Evaluation of the changed tree -/

variable {names : List SlotName} {vs vs' : ValueSet} {additions : List Addition}

/-- **A variable has the content of the string that it stands for.** -/
theorem Value.Replaces.content_eq (place : Place) {value value' : Value}
    (h : value.Replaces place.required value' additions)
    (hfresh : ∀ v, value = .deferred v → v.name ∉ names)
    (hvalues : vs.Supplies names additions vs') :
    value'.content place vs' = value.content place vs := by
  cases h with
  | same =>
      cases value with
      | concrete s => rfl
      | deferred v => rw [content, content, hvalues.scalarByName_eq (hfresh v rfl)]
  | replaced =>
      obtain ⟨text, hcheck, htext⟩ := hvalues.exists_scalarByName (List.mem_singleton.mpr rfl) rfl
      dsimp only at hcheck htext
      rw [content, content, Var.ofName, hcheck, htext]
      rfl

/-- Attributes evaluate as before. -/
theorem Attribute.EachReplaces.evaluate_eq {attributes attributes' : List Attribute}
    (h : EachReplaces attributes attributes' additions)
    (hfresh : ∀ a ∈ attributes, ∀ v, a.value = .deferred v → v.name ∉ names)
    (hvalues : vs.Supplies names additions vs') :
    attributes'.map (·.evaluate vs') = attributes.map (·.evaluate vs) := by
  induction h with
  | nil => rfl
  | @cons a value' rest rest' first later hvalue hrest ih =>
      rw [List.forall_mem_cons] at hfresh
      have hcontent : value'.content a.place vs' = a.value.content a.place vs :=
        Value.Replaces.content_eq a.place hvalue hfresh.1 hvalues.left
      have hfirst : ({ a with value := value' } : Attribute).evaluate vs' = a.evaluate vs := by
        rw [evaluate, evaluate, ← hcontent]
        rfl
      rw [List.map_cons, List.map_cons, hfirst, ih hfresh.2 hvalues.right]

/-- An opening tag evaluates as before. -/
theorem Attribute.AllReplace.evaluate_eq {e : Element} {attributes' : List Attribute}
    (h : AllReplace e.attributes attributes' additions)
    (hfresh : ∀ a ∈ e.attributes, ∀ v, a.value = .deferred v → v.name ∉ names)
    (hvalues : vs.Supplies names additions vs') :
    ({ e with attributes := attributes' } : Element).evaluate vs' = e.evaluate vs := by
  have hattributes := h.lastOfEachName.evaluate_eq
    (fun a ha => hfresh a (mem_of_mem_lastOfEachName ha)) hvalues
  rw [Element.evaluate, Element.evaluate, hattributes]

namespace Node

mutual

/-- **The changed tree evaluates as the original one**, for values that hold the replaced
strings. -/
theorem Replaces.evaluate_eq {o : LayoutOptions} {names : List SlotName} {vs vs' : ValueSet}
    {node node' : Node} {additions : List Addition} :
    node.Replaces node' additions → Avoids names node.leaves →
      (∀ c ∈ node.conditions, c.Ignores (names.map (·.text))) →
        vs.Supplies names additions vs' → node'.evaluate o vs' = node.evaluate o vs
  | .element (e := e) hattributes hcontents, hfresh, hconditions, hvalues => by
      rw [leaves, Avoids, List.forall_mem_append] at hfresh
      have hopening := hattributes.evaluate_eq
        (fun a ha => hfresh.1 _ (List.mem_map_of_mem ha)) hvalues.left
      have hbody := hcontents.evaluate_eq (o := o) hfresh.2 hconditions hvalues.right
      rw [evaluate, evaluate, hopening, hbody]
      rfl
  | .text hvalue, hfresh, _, hvalues => by
      rw [leaves, Avoids, List.forall_mem_singleton] at hfresh
      rw [evaluate, evaluate, Value.Replaces.content_eq .text hvalue hfresh hvalues]
  | .raw hvalue, hfresh, _, hvalues => by
      rw [leaves, Avoids, List.forall_mem_singleton] at hfresh
      rw [evaluate, evaluate, Value.Replaces.content_eq .raw hvalue hfresh hvalues]
  | .multi hcontents, hfresh, hconditions, hvalues => by
      rw [evaluate, evaluate]
      exact hcontents.evaluate_eq hfresh hconditions hvalues
  | .subsection hprototype, hfresh, hconditions, hvalues => by
      rw [evaluate, evaluate, mapM_eq_of_forall₂ hvalues.rowsNamed fun _ _ hrow =>
        hprototype.evaluate_eq hfresh hconditions hrow]
  | .switch hcases hdefault, hfresh, hconditions, hvalues => by
      rw [leaves, Avoids, List.forall_mem_append] at hfresh
      rw [conditions, List.forall_mem_append] at hconditions
      rw [evaluate, evaluate, hcases.evaluate_eq hfresh.1 hconditions.1 hvalues.left,
        hdefault.evaluate_eq hfresh.2 hconditions.2 hvalues.right]

/-- Changed children evaluate as the original ones. -/
theorem ChildrenReplace.evaluate_eq {o : LayoutOptions} {names : List SlotName}
    {vs vs' : ValueSet} {contents contents' : List Node} {additions : List Addition} :
    ChildrenReplace contents contents' additions → Avoids names (childLeaves contents) →
      (∀ c ∈ childConditions contents, c.Ignores (names.map (·.text))) →
        vs.Supplies names additions vs' →
          evaluateChildren o contents' vs' = evaluateChildren o contents vs
  | .nil, _, _, _ => rfl
  | .cons hchild hrest, hfresh, hconditions, hvalues => by
      rw [childLeaves, Avoids, List.forall_mem_append] at hfresh
      rw [childConditions, List.forall_mem_append] at hconditions
      rw [evaluateChildren, evaluateChildren,
        hchild.evaluate_eq hfresh.1 hconditions.1 hvalues.left,
        hrest.evaluate_eq hfresh.2 hconditions.2 hvalues.right]

/-- Changed cases evaluate as the original ones. -/
theorem CasesReplace.evaluate_eq {o : LayoutOptions} {names : List SlotName}
    {vs vs' : ValueSet} {cases cases' : List (Condition × Option Node)}
    {additions : List Addition} :
    CasesReplace cases cases' additions → Avoids names (caseLeaves cases) →
      (∀ c ∈ caseConditions cases, c.Ignores (names.map (·.text))) →
        vs.Supplies names additions vs' → evaluateCases o cases' vs' = evaluateCases o cases vs
  | .nil, _, _, _ => rfl
  | .cons houtput hrest, hfresh, hconditions, hvalues => by
      rw [caseLeaves, Avoids, List.forall_mem_append] at hfresh
      rw [caseConditions, List.forall_mem_cons, List.forall_mem_append] at hconditions
      obtain ⟨hcondition, hfirst, hlater⟩ := hconditions
      rw [evaluateCases, evaluateCases, hvalues.condition_eq hcondition,
        houtput.evaluate_eq hfresh.1 hfirst hvalues.left,
        hrest.evaluate_eq hfresh.2 hlater hvalues.right]

/-- A changed alternative evaluates as the original one. -/
theorem OutputReplaces.evaluate_eq {o : LayoutOptions} {names : List SlotName}
    {vs vs' : ValueSet} {output output' : Option Node} {additions : List Addition} :
    OutputReplaces output output' additions → Avoids names (outputLeaves output) →
      (∀ c ∈ outputConditions output, c.Ignores (names.map (·.text))) →
        vs.Supplies names additions vs' →
          evaluateOutput o output' vs' = evaluateOutput o output vs
  | .none, _, _, _ => rfl
  | .some houtput, hfresh, hconditions, hvalues =>
      houtput.evaluate_eq hfresh hconditions hvalues

end

end Node

/-! ### The two templates -/

omit [UrlReader] in
/-- **The schemas of the two trees differ by the additions**, if those are not in the schema that
both trees are compiled against. -/
theorem Scope.useAll_adds {scope scope' : Scope} {uses uses' : List Use}
    {additions : List Addition} (hs : scope.schema.InOrder) (hs' : scope'.schema.InOrder)
    (hsame : scope.schema.SameUpToIds scope'.schema)
    (hdistinct : (additions.map (·.name)).Nodup)
    (hnew : ∀ a ∈ additions, scope.schema.levelAt a.name.text a.path = ⊥)
    (h : Use.AllAdd (additions.map (·.name)) uses uses' additions) :
    (scope.useAll uses).schema.Adds additions (scope'.useAll uses').schema where
  inOrder := useAll_inOrder hs uses
  inOrder' := useAll_inOrder hs' uses'
  strict path := by
    rw [strictAt?_useAll hs.wellFormed, strictAt?_useAll hs'.wellFormed, hsame.strictAt?_eq,
      h.reachesAny_eq]
  kept := by
    intro name path hother
    rw [levelAt_useAll hs.wellFormed, levelAt_useAll hs'.wellFormed, hsame.levelAt_eq,
      h.levelAtAll_eq, Addition.levelAt_eq_bot hother, sup_bot_eq]
  added := by
    intro a ha
    rw [levelAt_useAll hs'.wellFormed, ← hsame.levelAt_eq, hnew a ha, h.levelAtAll_eq,
      h.levelAtAll_eq_bot (List.mem_map_of_mem ha), Addition.levelAt_of_mem hdistinct ha,
      bot_sup_eq, bot_sup_eq]

/-- **Constants and variables are interchangeable.** If a tree compiles in the compact layout, it
compiles as well with any of its strings replaced by variables with names of their own, which
conditions ignore. Arguments that are addressed by other names and can be bound to its template
can be bound to that of the changed tree with the strings for the new variables added to them, in
every row that has the variables, and what is rendered then is the same. -/
theorem Node.compile_replaces {o : LayoutOptions} {node node' : Node} {additions : List Addition}
    {scope scope' : Scope} {t : Template} {next : ℕ} (hcompact : o.isCompact = true)
    (hreplaces : node.Replaces node' additions) (hdistinct : (additions.map (·.name)).Nodup)
    (hfresh : Avoids (additions.map (·.name)) node.leaves)
    (hconditions : ∀ c ∈ node.conditions, c.Ignores (additions.map (·.name.text)))
    (hnew : ∀ a ∈ additions, scope.schema.levelAt a.name.text a.path = ⊥)
    (hs : scope.schema.InOrder) (hs' : scope'.schema.InOrder)
    (hsame : scope.schema.SameUpToIds scope'.schema)
    (hcompile : node.compile o scope = (.ok t, next)) :
    ∃ t' next', node'.compile o scope' = (.ok t', next') ∧
      ∀ args vs, BindArg.AllEverywhere (BindArg.IsNamed (additions.map (·.name.text))) args →
        t.bind args = .ok vs →
          ∃ vs', t'.bind (BindArg.extendAll additions args) = .ok vs' ∧
            t'.renderToString vs' = t.renderToString vs := by
  obtain ⟨hfits, hverify, hschema⟩ := compile_eq_ok hcompile
  obtain ⟨hverify', hpass, huses⟩ := hreplaces.tells (List.Subset.refl _) hfresh hverify
  obtain ⟨t', next', hcompile'⟩ := exists_compile_eq_ok scope' (hreplaces.fits hfits) hverify'
  obtain ⟨-, -, hschema'⟩ := compile_eq_ok hcompile'
  refine ⟨t', next', hcompile', fun args vs hargs hbind => ?_⟩
  have hadds : t.schema.Adds additions t'.schema := by
    rw [hschema, hschema']
    exact Scope.useAll_adds hs hs' hsame hdistinct hnew huses
  have hready : Addition.Ready (additions.map (·.name.text)) additions :=
    ⟨fun a ha => List.mem_map_of_mem ha, hdistinct, hpass⟩
  have hbinds := Schema.bind_adds hadds hready hargs
  obtain ⟨e, hrefused, -⟩ | ⟨ws, vs', hbind₀, hbind', hvalues⟩ := Except.rel_iff.mp hbinds
  · rw [← Template.bind, hbind] at hrefused
    cases hrefused
  rw [← Template.bind, hbind] at hbind₀
  cases hbind₀
  refine ⟨vs', hbind', ?_⟩
  have hsupplies : vs.Supplies (additions.map (·.name)) additions vs' :=
    ⟨additions, List.Subset.refl _, List.Subset.refl _, hvalues⟩
  have hevaluate : node'.evaluate o vs' = node.evaluate o vs := by
    refine hreplaces.evaluate_eq hfresh ?_ hsupplies
    rwa [List.map_map]
  have hpage := page_evaluates hcompact (o := o)
    ⟨t.schema, hadds.inOrder.wellFormed, Schema.bound_of_bind hbind⟩ node
  have hpage' := page_evaluates hcompact (o := o)
    ⟨t'.schema, hadds.inOrder'.wellFormed, Schema.bound_of_bind hbind'⟩ node'
  rw [renderToString_of_evaluates hs.wellFormed hcompile hbind hpage,
    renderToString_of_evaluates hs'.wellFormed hcompile' hbind' hpage', hevaluate]

end

namespace Node

/-- For one user only, a paragraph with a value in an attribute, and another one in the rows of a
subsection. -/
def card (title skill : Value) : Node :=
  .switch [(.hasValue "user" "jd", some (.element
    ⟨"p", [.ofName "title" title], .block, false, false, none⟩
    [.text profileUser none, .subsection "skills" (.text skill (some 4))]))] none

/-- A `card` with strings in it. -/
def printedCard : Node :=
  card (.concrete (.constant "jd")) (.concrete (.untrusted "a & b"))

/-- A `card` with variables for the strings. -/
def blankCard : Node :=
  card (.named "heading") (.named "item")

/-- The strings of `printedCard`, for the variables of `blankCard`. -/
def cardStrings : List Addition :=
  [⟨[], ⟨"heading", by simp⟩, .constant "jd", .attributeSafe⟩,
    ⟨["skills"], ⟨"item", by simp⟩, .untrusted "a & b", .textSafe⟩]

/-- Arguments for a `card`: a user with two skills. -/
def cardArgs : List BindArg :=
  [.scalar (.name "user") (.untrusted "jd") .untrusted, .rows (.name "skills") [[], []]]

/-- The strings of `printedCard` can be replaced. -/
theorem printedCard_replaces : printedCard.Replaces blankCard cardStrings := by
  have hrequired : (Attribute.ofName "title" (.concrete (.constant "jd"))).required =
      .attributeSafe := by
    decide +kernel
  have hattributes : Attribute.AllReplace [.ofName "title" (.concrete (.constant "jd"))]
      [.ofName "title" (.named "heading")] (cardStrings.take 1 ++ []) := by
    refine .surviving rfl ?_ .nil
    rw [hrequired]
    exact .replaced
  exact .switch (.cons (.some (.element (e := ⟨"p", _, .block, false, false, none⟩) hattributes
    (.cons (.text .same) (.cons (.subsection (.text .replaced)) .nil)))) .nil) .none

/-- A card with two strings in it, one of them in the rows of its subsection, renders to what a
card with two variables renders to. -/
theorem compile_replaces_card : ∃ t t' next next' vs vs',
    printedCard.compile .compact (.newRoot 1) = (.ok t, next) ∧
      blankCard.compile .compact (.newRoot 1) = (.ok t', next') ∧
      t.bind cardArgs = .ok vs ∧ t'.bind (BindArg.extendAll cardStrings cardArgs) = .ok vs' ∧
      t'.renderToString vs' = t.renderToString vs ∧
      t.renderToString vs = .ok "<p title=\"jd\">jda\n&amp;\nba\n&amp;\nb</p>" := by
  have hruns : printedCard.runs .compact cardArgs (fun t vs => decide (t.renderToString vs =
      .ok "<p title=\"jd\">jda\n&amp;\nba\n&amp;\nb</p>")) = true := by
    decide +kernel
  obtain ⟨t, next, vs, hcompile, hbind, houtput⟩ := exists_of_runs hruns
  have hroot : (Scope.newRoot 1).schema.InOrder := Schema.inOrder_of_empty rfl rfl
  have hfresh : Avoids (cardStrings.map (·.name)) printedCard.leaves := by
    simp [Avoids, printedCard, card, profileUser, cardStrings, leaves, childLeaves, caseLeaves,
      outputLeaves, Attribute.ofName, Value.named, Var.ofName, Leaf.value]
  have hconditions : ∀ c ∈ printedCard.conditions, c.Ignores (cardStrings.map (·.name.text)) := by
    intro c hc
    obtain rfl : c = .hasValue "user" "jd" := by
      simpa [printedCard, card, conditions, caseConditions, outputConditions, childConditions]
        using hc
    exact Condition.hasValue_ignores (by decide) "jd"
  have hargs : BindArg.AllEverywhere
      (BindArg.IsNamed (cardStrings.map (·.name.text))) cardArgs := by
    simp [cardArgs, cardStrings, BindArg.AllEverywhere, BindArg.Everywhere,
      BindArg.RowsEverywhere, BindArg.IsNamed]
  obtain ⟨t', next', hcompile', hbinds⟩ := compile_replaces rfl printedCard_replaces (by decide)
    hfresh hconditions (fun _ _ => Schema.levelAt_of_empty rfl rfl _ _) hroot hroot (.refl _)
    hcompile
  obtain ⟨vs', hbind', hsame⟩ := hbinds cardArgs vs hargs hbind
  exact ⟨t, t', next, next', vs, vs', hcompile, hcompile', hbind, hbind', hsame,
    of_decide_eq_true houtput⟩

end Node

end TrustedHtml
