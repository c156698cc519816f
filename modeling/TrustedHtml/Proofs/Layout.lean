import TrustedHtml.Proofs.Additions
import TrustedHtml.Proofs.Delimiters
import TrustedHtml.Proofs.Rendered
import TrustedHtml.Url.Web

/-!
# Layout and White Space

Layout options decide where line breaks and indentation are written, at compile time and when
texts are reflowed in rendering. This module compares a tree under two layouts whose indentation
is blank: as long as no counter overflows it compiles under both or under neither, with the same
failure, its templates are bound alike, and what they render to is the same apart from white
space.

Compiling is compared by what the tree tells, which knows nothing of layouts. Rendering is
compared page by page: a page has the same *ink* under both layouts, that is, the same
characters that are not blank, in the same order.

The two schemas can have different identities. So the values that are compared are not equal but
correspond to each other; that conditions see no difference is then a hypothesis.

## Main definitions

* `Text.ink`: a text without its white space.
* `ValueSet.Correspondence`: values that pages cannot tell apart.

## Main results

* `Node.page_sameInk`: a tree has pages with the same ink under two layouts.
* `Node.compile_layout`: **layout options change nothing but white space.**
-/

namespace TrustedHtml

/-! ### Ink -/

namespace Text

/-- A text without its white space. -/
def ink (text : String) : List Char :=
  text.toList.filter fun c => !isBlank c

/-- The ink of two texts one after the other. -/
theorem ink_append (s t : String) : ink (s ++ t) = ink s ++ ink t := by
  rw [ink, String.toList_append, List.filter_append, ink, ink]

/-- White space is no ink. -/
theorem not_ink_of_isBlank {c : Char} (h : isBlank c = true) : (!isBlank c) = false := by
  rw [h]
  rfl

end Text

/-- The indentation is white space. -/
def LayoutOptions.HasBlankIndent (o : LayoutOptions) : Prop :=
  ∀ c ∈ o.indent.toList, Text.isBlank c = true

instance (o : LayoutOptions) : Decidable o.HasBlankIndent :=
  List.decidableBAll _ _

/-- Reflowing a text keeps its ink if the indentation is blank. -/
theorem Reflow.ink_apply {r : Reflow} {text filled : String}
    (hindent : ∀ c ∈ r.indent.toList, Text.isBlank c = true) (h : r.apply text = .ok filled) :
    Text.ink filled = Text.ink text :=
  filter_apply (fun _ hc => Text.not_ink_of_isBlank hc)
    (fun c hc => Text.not_ink_of_isBlank (hindent c hc)) h

/-- A line break has no ink if the indentation is blank. -/
theorem LayoutOptions.ink_lineBreak {o : LayoutOptions}
    (hindent : o.HasBlankIndent) (depth : ℕ) :
    Text.ink (o.lineBreak depth) = [] :=
  Reflow.filter_lineBreak (r := ⟨0, depth, o.indent⟩)
    (fun _ hc => Text.not_ink_of_isBlank hc)
    fun c hc => Text.not_ink_of_isBlank (hindent c hc)

/-! ### Pages with the same ink -/

namespace Page

/-- A page without ink, that does not end early. -/
def Blank (page : Page) : Prop :=
  page.stopped = none ∧ ∀ t, page.Shows t → Text.ink t = []

/-- Pages that are written with the same ink, unless one of them ends early. -/
def SameInk (a b : Page) : Prop :=
  a.stopped = none → b.stopped = none →
    ∀ s t, a.Shows s → b.Shows t → Text.ink s = Text.ink t

variable {a b c d : Page} {bit bit' : Bit}

/-- Pages one after the other end early if one of them does. -/
theorem stopped_of_append (h : (a.append b).stopped = none) :
    a.stopped = none ∧ b.stopped = none := by
  obtain ⟨bits, _ | o⟩ := a
  · exact ⟨rfl, h⟩
  · cases h

/-- Pages without ink have the same ink. -/
theorem Blank.sameInk (ha : a.Blank) (hb : b.Blank) : a.SameInk b :=
  fun _ _ s t hs ht => by rw [ha.2 s hs, hb.2 t ht]

/-- An empty page has no ink. -/
theorem blank_empty : empty.Blank := by
  refine ⟨rfl, ?_⟩
  rintro _ ⟨parts, hparts, rfl⟩
  cases hparts
  rfl

/-- A part that is shown without ink is a page without ink. -/
theorem blank_ofBit (h : ∀ t, bit.Shows t → Text.ink t = []) : (ofBit bit).Blank := by
  refine ⟨rfl, ?_⟩
  rintro _ ⟨parts, hparts, rfl⟩
  cases hparts with
  | cons hbit hrest =>
      cases hrest
      simpa using h _ hbit

/-- Parts that are shown with the same ink are pages with the same ink. -/
theorem sameInk_ofBit (h : ∀ s t, bit.Shows s → bit'.Shows t → Text.ink s = Text.ink t) :
    (ofBit bit).SameInk (ofBit bit') := by
  rintro - - _ _ ⟨parts, hparts, rfl⟩ ⟨parts', hparts', rfl⟩
  cases hparts with
  | cons hbit hrest =>
      cases hrest
      cases hparts' with
      | cons hbit' hrest' =>
          cases hrest'
          simpa using h _ _ hbit hbit'

/-- Markup has the ink that it has. -/
theorem sameInk_markup (text : String) : (markup text).SameInk (markup text) :=
  sameInk_ofBit fun s t hs ht => by
    cases hs
    cases ht
    rfl

/-- Values with the same ink. -/
theorem sameInk_value {place : Place} {source source' : Option (SafeString × TrustLevel)}
    {text text' : String} (h : Text.ink text = Text.ink text') :
    (ofBit (.value place source text)).SameInk (ofBit (.value place source' text')) :=
  sameInk_ofBit fun s t hs ht => by
    cases hs
    cases ht
    exact h

/-- Pages one after the other have the same ink if each of them has. -/
theorem SameInk.append (h : a.SameInk b) (hrest : c.SameInk d) :
    (a.append c).SameInk (b.append d) := by
  intro hac hbd s t hs ht
  obtain ⟨ha, hc⟩ := stopped_of_append hac
  obtain ⟨hb, hd⟩ := stopped_of_append hbd
  obtain ⟨s₁, s₂, hs₁, hs₂, rfl⟩ := hs.of_append ha
  obtain ⟨t₁, t₂, ht₁, ht₂, rfl⟩ := ht.of_append hb
  rw [Text.ink_append, Text.ink_append, h ha hb s₁ t₁ hs₁ ht₁, hrest hc hd s₂ t₂ hs₂ ht₂]

/-- Rows have the same ink that have it one by one. -/
theorem rows_sameInk {rows rows' : List ValueSet} {given given' : List (List BindArg)}
    {page page' : ValueSet → List BindArg → Page} {R : ValueSet → ValueSet → Prop}
    {B : ValueSet → List BindArg → Prop} (hrel : List.Forall₂ R rows rows')
    (hrows : List.Forall₂ B rows given) (hrows' : List.Forall₂ B rows' given')
    (h : ∀ {row row' args args'}, R row row' → B row args → B row' args' →
      (page row args).SameInk (page' row' args')) :
    ((rows.zip given).foldr (fun row later => (page row.1 row.2).append later) .empty).SameInk
      ((rows'.zip given').foldr (fun row later => (page' row.1 row.2).append later) .empty) := by
  induction hrel generalizing given given' with
  | nil => exact blank_empty.sameInk blank_empty
  | cons hrow _ ih =>
      cases hrows with
      | cons hbound hrows =>
          cases hrows' with
          | cons hbound' hrows' => exact (h hrow hbound hbound').append (ih hrows hrows')

end Page

namespace Element

variable {o : LayoutOptions} (hindent : o.HasBlankIndent)

include hindent

/-- What is in front of an element has no ink, whether it stands on a fresh line or not. -/
theorem startPage_blank (depth : ℕ) (e : Element) : (e.startPage o depth).Blank := by
  rw [startPage]
  split
  · refine Page.blank_ofBit fun t ht => ?_
    cases ht with
    | freshLine => exact LayoutOptions.ink_lineBreak hindent depth
    | onFreshLine => rfl
  · exact Page.blank_empty

/-- What begins a line within an element has no ink. -/
theorem breakPage_blank (depth : ℕ) (e : Element) : (e.breakPage o depth).Blank := by
  rw [breakPage]
  split
  · refine Page.blank_ofBit fun t ht => ?_
    cases ht
    exact LayoutOptions.ink_lineBreak hindent depth
  · exact Page.blank_empty

end Element

/-! ### Values that correspond -/

/-- **Values that correspond to each other** hold the same strings under the same names, and rows
that correspond. -/
structure ValueSet.Correspondence (R : ValueSet → ValueSet → Prop) : Prop where
  scalars : ∀ {vs vs'}, R vs vs' → ∀ name, vs.scalarByName name = vs'.scalarByName name
  rows : ∀ {vs vs'}, R vs vs' → ∀ name, List.Forall₂ R (vs.rowsNamed name) (vs'.rowsNamed name)

/-- Value sets correspond to themselves. -/
theorem ValueSet.correspondence_eq : Correspondence Eq where
  scalars h _ := h ▸ rfl
  rows h _ := h ▸ List.forall₂_same.mpr fun _ _ => rfl

section

variable [UrlReader]

/-- Value sets correspond to each other that differ by nothing. -/
theorem ValueSet.correspondence_adds : Correspondence (Adds []) where
  scalars h _ := by
    obtain ⟨-, kept, -, -, -⟩ := h
    exact kept nofun
  rows h name := h.rowsNamed name

variable {o o' : LayoutOptions} {R : ValueSet → ValueSet → Prop} {vs vs' : ValueSet}
  {args args' : List BindArg}

/-- A value has the same text for values that correspond. -/
theorem Value.content_eq (hR : ValueSet.Correspondence R) (h : R vs vs') (place : Place)
    (value : Value) : value.content place vs = value.content place vs' := by
  cases value with
  | concrete s => rfl
  | deferred v => rw [content, content, hR.scalars h]

/-- An attribute has the same ink for values that correspond. -/
theorem Attribute.page_sameInk (hR : ValueSet.Correspondence R) (h : R vs vs')
    (args args' : List BindArg) (a : Attribute) : (a.page vs args).SameInk (a.page vs' args') := by
  have hvalue : Text.ink (a.value.content a.place vs) = Text.ink (a.value.content a.place vs') := by
    rw [a.value.content_eq hR h]
  exact (Page.sameInk_markup _).append ((Page.sameInk_value hvalue).append (Page.sameInk_markup _))

/-- Attributes have the same ink for values that correspond. -/
theorem Attribute.pages_sameInk (hR : ValueSet.Correspondence R) (h : R vs vs')
    (args args' : List BindArg) : ∀ attributes : List Attribute,
      (attributes.foldr (fun a later => (a.page vs args).append later) Page.empty).SameInk
        (attributes.foldr (fun a later => (a.page vs' args').append later) Page.empty)
  | [] => Page.blank_empty.sameInk Page.blank_empty
  | a :: rest => (a.page_sameInk hR h args args').append (pages_sameInk hR h args args' rest)

/-- An opening tag has the same ink for values that correspond. -/
theorem Element.openingPage_sameInk (hR : ValueSet.Correspondence R) (h : R vs vs')
    (args args' : List BindArg) (e : Element) :
    (e.openingPage vs args).SameInk (e.openingPage vs' args') :=
  ((Page.sameInk_markup _).append (Attribute.pages_sameInk hR h args args' _)).append
    (Page.sameInk_markup _)

/-- A text has the same ink under all layouts. -/
theorem Value.textPage_sameInk (hindent : o.HasBlankIndent)
    (hindent' : o'.HasBlankIndent) (hR : ValueSet.Correspondence R)
    (h : R vs vs') (args args' : List BindArg) (depth depth' : ℕ) (width : Option ℕ)
    (value : Value) :
    (value.textPage (o.reflow depth width) vs args).SameInk
      (value.textPage (o'.reflow depth' width) vs' args') := by
  rw [textPage, textPage, ← value.content_eq hR h]
  cases hfill : (o.reflow depth width).apply (value.content .text vs) with
  | error e => exact nofun
  | ok text =>
      cases hfill' : (o'.reflow depth' width).apply (value.content .text vs) with
      | error e => exact fun _ => nofun
      | ok text' =>
          exact Page.sameInk_value
            ((Reflow.ink_apply (r := o.reflow depth width) hindent hfill).trans
              (Reflow.ink_apply (r := o'.reflow depth' width) hindent' hfill').symm)

namespace Node

mutual

/-- **A tree has the same ink under two layouts.** -/
theorem page_sameInk (hindent : o.HasBlankIndent)
    (hindent' : o'.HasBlankIndent) (hR : ValueSet.Correspondence R)
    {vs vs' : ValueSet} {args args' : List BindArg} (h : R vs vs') (hbound : vs.BoundTo args)
    (hbound' : vs'.BoundTo args') (depth depth' : ℕ) : ∀ node : Node,
      (∀ c ∈ node.conditions, ∀ {vs vs'}, R vs vs' → c vs = c vs') →
        (node.page o depth vs args).SameInk (node.page o' depth' vs' args')
  | .element e contents, hconditions => by
      have hstart := (e.startPage_blank hindent depth).sameInk (e.startPage_blank hindent' depth')
      have hopening := hstart.append (e.openingPage_sameInk hR h args args')
      rw [page, page]
      cases hclosed : e.isClosed with
      | true => exact hopening
      | false =>
          refine (((hopening.append ?_).append ?_).append ?_).append (Page.sameInk_markup _)
          · exact (e.breakPage_blank hindent _).sameInk (e.breakPage_blank hindent' _)
          · exact childPages_sameInk hindent hindent' hR h hbound hbound' _ _ contents hconditions
          · exact (e.breakPage_blank hindent _).sameInk (e.breakPage_blank hindent' _)
  | .text value width, _ => by
      rw [page, page]
      exact value.textPage_sameInk hindent hindent' hR h args args' depth depth' width
  | .raw value, _ => by
      rw [page, page]
      exact Page.sameInk_value (by rw [value.content_eq hR h])
  | .multi error contents, hconditions => by
      rw [page, page]
      exact childPages_sameInk hindent hindent' hR h hbound hbound' depth depth' contents
        hconditions
  | .subsection name prototype, hconditions => by
      rw [page, page]
      refine Page.rows_sameInk (hR.rows h name) (hbound.rowsNamed name) (hbound'.rowsNamed name)
        fun hrow hargs hargs' => ?_
      exact page_sameInk hindent hindent' hR hrow hargs hargs' depth depth' prototype hconditions
  | .switch cases default, hconditions => by
      rw [conditions, List.forall_mem_append] at hconditions
      rw [page, page]
      exact getD_of_rel
        (casePage_sameInk hindent hindent' hR h hbound hbound' depth depth' cases hconditions.1)
        fun _ => outputPage_sameInk hindent hindent' hR h hbound hbound' depth depth' default
          hconditions.2

/-- Children have the same ink under two layouts. -/
theorem childPages_sameInk (hindent : o.HasBlankIndent)
    (hindent' : o'.HasBlankIndent) (hR : ValueSet.Correspondence R)
    {vs vs' : ValueSet} {args args' : List BindArg} (h : R vs vs') (hbound : vs.BoundTo args)
    (hbound' : vs'.BoundTo args') (depth depth' : ℕ) : ∀ contents : List Node,
      (∀ c ∈ childConditions contents, ∀ {vs vs'}, R vs vs' → c vs = c vs') →
        (childPages o depth contents vs args).SameInk (childPages o' depth' contents vs' args')
  | [], _ => Page.blank_empty.sameInk Page.blank_empty
  | child :: rest, hconditions => by
      rw [childConditions, List.forall_mem_append] at hconditions
      exact (page_sameInk hindent hindent' hR h hbound hbound' depth depth' child
        hconditions.1).append (childPages_sameInk hindent hindent' hR h hbound hbound' depth depth'
          rest hconditions.2)

/-- The case that is chosen has the same ink under two layouts. -/
theorem casePage_sameInk (hindent : o.HasBlankIndent)
    (hindent' : o'.HasBlankIndent) (hR : ValueSet.Correspondence R)
    {vs vs' : ValueSet} {args args' : List BindArg} (h : R vs vs') (hbound : vs.BoundTo args)
    (hbound' : vs'.BoundTo args') (depth depth' : ℕ) : ∀ cases : List (Condition × Option Node),
      (∀ c ∈ caseConditions cases, ∀ {vs vs'}, R vs vs' → c vs = c vs') →
        Option.Rel Page.SameInk (casePage o depth cases vs args)
          (casePage o' depth' cases vs' args')
  | [], _ => .none
  | (condition, output) :: rest, hconditions => by
      rw [caseConditions, List.forall_mem_cons, List.forall_mem_append] at hconditions
      obtain ⟨hcondition, houtput, hrest⟩ := hconditions
      rw [casePage, casePage, ← hcondition h]
      by_cases hholds : condition vs
      · rw [if_pos hholds, if_pos hholds]
        exact .some (outputPage_sameInk hindent hindent' hR h hbound hbound' depth depth' output
          houtput)
      · rw [if_neg hholds, if_neg hholds]
        exact casePage_sameInk hindent hindent' hR h hbound hbound' depth depth' rest hrest

/-- An alternative has the same ink under two layouts. -/
theorem outputPage_sameInk (hindent : o.HasBlankIndent)
    (hindent' : o'.HasBlankIndent) (hR : ValueSet.Correspondence R)
    {vs vs' : ValueSet} {args args' : List BindArg} (h : R vs vs') (hbound : vs.BoundTo args)
    (hbound' : vs'.BoundTo args') (depth depth' : ℕ) : ∀ output : Option Node,
      (∀ c ∈ outputConditions output, ∀ {vs vs'}, R vs vs' → c vs = c vs') →
        (outputPage o depth output vs args).SameInk (outputPage o' depth' output vs' args')
  | none, _ => Page.blank_empty.sameInk Page.blank_empty
  | some output, hconditions =>
      page_sameInk hindent hindent' hR h hbound hbound' depth depth' output hconditions

end

/-- **Values that correspond to each other are rendered with the same ink** under two layouts,
unless a counter overflows. -/
theorem renderToString_sameInk {node : Node} {scope scope' : Scope} {t t' : Template}
    {next next' : ℕ} {vs vs' : ValueSet} {args args' : List BindArg}
    (hindent : o.HasBlankIndent) (hindent' : o'.HasBlankIndent)
    (hR : ValueSet.Correspondence R) (h : R vs vs')
    (hconditions : ∀ c ∈ node.conditions, ∀ {vs vs'}, R vs vs' → c vs = c vs')
    (hwf : scope.schema.WellFormed) (hcompile : node.compile o scope = (.ok t, next))
    (hbind : t.bind args = .ok vs) (hwf' : scope'.schema.WellFormed)
    (hcompile' : node.compile o' scope' = (.ok t', next')) (hbind' : t'.bind args' = .ok vs') :
    (∃ x, t.renderToString vs = .error (.overflow x)) ∨
      (∃ x, t'.renderToString vs' = .error (.overflow x)) ∨
      ∃ text text', t.renderToString vs = .ok text ∧ t'.renderToString vs' = .ok text' ∧
        Text.ink text = Text.ink text' := by
  obtain ⟨hwf₁, -⟩ := compiles_of_compile hwf hcompile
  obtain ⟨hwf₂, -⟩ := compiles_of_compile hwf' hcompile'
  have hink := page_sameInk hindent hindent' hR h ⟨_, hwf₁, Schema.bound_of_bind hbind⟩
    ⟨_, hwf₂, Schema.bound_of_bind hbind'⟩ o.rootDepth o'.rootDepth node hconditions
  obtain ⟨text, hrender, hstopped, hshows⟩ | ⟨x, hrender, -⟩ :=
    renderToString_cases hwf hcompile hbind
  · obtain ⟨text', hrender', hstopped', hshows'⟩ | ⟨x, hrender', -⟩ :=
      renderToString_cases hwf' hcompile' hbind'
    · exact .inr (.inr ⟨text, text', hrender, hrender',
        hink hstopped hstopped' text text' hshows hshows'⟩)
    · exact .inr (.inl ⟨x, hrender'⟩)
  · exact .inl ⟨x, hrender⟩

/-- **Layout options change nothing but white space.** Under two layouts whose indentation is
blank, and unless a counter overflows, a tree fails to compile with the same failure, or it
compiles under both, to schemas that are the same up to identities. Arguments that are addressed
by name are refused by both templates for the same reason, or bound to both, and what is rendered
then is the same apart from white space. If the two runs do not start with the same identities,
the conditions must not depend on them. -/
theorem compile_layout {node : Node} {scope scope' : Scope} (hindent : o.HasBlankIndent)
    (hindent' : o'.HasBlankIndent) (hs : scope.schema.InOrder) (hs' : scope'.schema.InOrder)
    (hsame : scope.schema.SameUpToIds scope'.schema)
    (hconditions : scope = scope' ∨ ∀ c ∈ node.conditions, c.Ignores [])
    (hfits : ∀ x, (node.compile o scope).1 ≠ .error (.overflow x))
    (hfits' : ∀ x, (node.compile o' scope').1 ≠ .error (.overflow x)) :
    (∃ e next next', node.compile o scope = (.error e, next) ∧
        node.compile o' scope' = (.error e, next')) ∨
      ∃ t t' next next', node.compile o scope = (.ok t, next) ∧
        node.compile o' scope' = (.ok t', next') ∧ t.schema.SameUpToIds t'.schema ∧
        ∀ args, BindArg.AllEverywhere (BindArg.IsNamed []) args →
          (∃ e, t.bind args = .error e ∧ t'.bind args = .error e) ∨
            ∃ vs vs', t.bind args = .ok vs ∧ t'.bind args = .ok vs' ∧
              ((∃ x, t.renderToString vs = .error (.overflow x)) ∨
                (∃ x, t'.renderToString vs' = .error (.overflow x)) ∨
                ∃ text text', t.renderToString vs = .ok text ∧ t'.renderToString vs' = .ok text' ∧
                  Text.ink text = Text.ink text') := by
  cases hverify : node.verify with
  | error e =>
      obtain ⟨next, hrun⟩ := compile_of_verify_eq_error hfits hverify
      obtain ⟨next', hrun'⟩ := compile_of_verify_eq_error hfits' hverify
      exact .inl ⟨e, next, next', hrun, hrun'⟩
  | ok _ =>
      obtain ⟨t, next, hrun⟩ := compile_of_verify_eq_ok hfits hverify
      obtain ⟨t', next', hrun'⟩ := compile_of_verify_eq_ok hfits' hverify
      obtain ⟨-, -, hschema⟩ := compile_eq_ok hrun
      obtain ⟨-, -, hschema'⟩ := compile_eq_ok hrun'
      have hsame' : t.schema.SameUpToIds t'.schema := by
        rw [hschema, hschema']
        exact Scope.useAll_sameUpToIds hsame node.uses
      refine .inr ⟨t, t', next, next', hrun, hrun', hsame', fun args hargs => ?_⟩
      obtain rfl | hignores := hconditions
      · -- the two schemas are one and the same, and so are the values
        have hbinds : t'.bind args = t.bind args := by
          rw [Template.bind, Template.bind, hschema, hschema']
        cases hbind : t.bind args with
        | error e => exact .inl ⟨e, rfl, hbinds.trans hbind⟩
        | ok vs =>
            have hbind' := hbinds.trans hbind
            refine .inr ⟨vs, vs, rfl, hbind', ?_⟩
            exact renderToString_sameInk hindent hindent' ValueSet.correspondence_eq rfl
              (fun _ _ _ _ h => h ▸ rfl) hs.wellFormed hrun hbind hs'.wellFormed hrun' hbind'
      · have horder : t.schema.InOrder := hschema ▸ Scope.useAll_inOrder hs node.uses
        have horder' : t'.schema.InOrder := hschema' ▸ Scope.useAll_inOrder hs' node.uses
        have hrel := Schema.bind_adds (hsame'.adds horder horder') .nil hargs
        rw [BindArg.extendAll_nil] at hrel
        obtain hrefused | ⟨vs, vs', hbind, hbind', hadds⟩ := Except.rel_iff.mp hrel
        · exact .inl hrefused
        · refine .inr ⟨vs, vs', hbind, hbind', ?_⟩
          exact renderToString_sameInk hindent hindent' ValueSet.correspondence_adds hadds
            (fun c hc _ _ => hignores c hc nofun) hs.wellFormed hrun hbind hs'.wellFormed hrun'
            hbind'

end Node

end

/-- `Node.profile` for a user that is set. -/
def Node.knownProfile : Node :=
  .switch [(.isSet "user", some profile)] (some (.text (.concrete (.constant "nobody")) none))

/-- The compact and the tidy layout of `Node.knownProfile`, compiled against schemas with different
identities, differ in white space only. -/
theorem Node.compile_layout_profile : ∃ t t' next next' vs vs' text text',
    knownProfile.compile .compact (.newRoot 1) = (.ok t, next) ∧
      knownProfile.compile .tidy (.newRoot 7) = (.ok t', next') ∧
      t.bind (profileArgs "<jd>" "a b") = .ok vs ∧ t'.bind (profileArgs "<jd>" "a b") = .ok vs' ∧
      t.renderToString vs = .ok text ∧ t'.renderToString vs' = .ok text' ∧
      Text.ink text = Text.ink text' := by
  have hruns : knownProfile.runs .compact (profileArgs "<jd>" "a b") (fun t vs =>
      (t.renderToString vs).toBool) = true := by
    decide +kernel
  have hruns' : ((knownProfile.compile .tidy (.newRoot 7)).1.toOption.any fun t =>
      (t.bind (profileArgs "<jd>" "a b")).toOption.all fun vs =>
        (t.renderToString vs).toBool) = true := by
    decide +kernel
  obtain ⟨t, next, vs, hcompile, hbind, hrender⟩ := exists_of_runs hruns
  rcases hcompile' : knownProfile.compile .tidy (.newRoot 7) with ⟨_ | t', next'⟩
  · rw [hcompile'] at hruns'
    cases hruns'
  rw [hcompile'] at hruns'
  have hargs : BindArg.AllEverywhere (BindArg.IsNamed []) (profileArgs "<jd>" "a b") := by
    simp [profileArgs, BindArg.AllEverywhere, BindArg.Everywhere, BindArg.RowsEverywhere,
      BindArg.IsNamed]
  have hconditions : ∀ c ∈ knownProfile.conditions, c.Ignores [] := by
    intro c hc
    obtain rfl : c = .isSet "user" := by
      simpa [knownProfile, profile, conditions, caseConditions, outputConditions, childConditions]
        using hc
    exact Condition.isSet_ignores List.not_mem_nil
  have hlayout := @compile_layout _ .compact .tidy knownProfile (.newRoot 1) (.newRoot 7)
    (by decide +kernel) (by decide +kernel) (Schema.inOrder_of_empty rfl rfl)
    (Schema.inOrder_of_empty rfl rfl) rfl
    (.inr hconditions) (by rw [hcompile]; exact nofun) (by rw [hcompile']; exact nofun)
  obtain ⟨e, _, _, he, -⟩ | ⟨t₁, t₂, _, _, ht, ht', -, hbinds⟩ := hlayout
  · rw [hcompile] at he
    cases he
  rw [hcompile] at ht
  rw [hcompile'] at ht'
  cases ht
  cases ht'
  obtain ⟨e, he, -⟩ | ⟨vs₁, vs', hvs, hbind', hrenders⟩ := hbinds _ hargs
  · rw [hbind] at he
    cases he
  rw [hbind] at hvs
  cases hvs
  obtain ⟨x, hx⟩ | ⟨x, hx⟩ | ⟨text, text', htext, htext', hink⟩ := hrenders
  · rw [hx] at hrender
    cases hrender
  · simp [Except.toOption, hbind', hx, Except.toBool] at hruns'
  · exact ⟨t, t', next, next', vs, vs', text, text', hcompile, rfl, hbind, hbind', htext, htext',
      hink⟩

end TrustedHtml
