import TrustedHtml.Proofs.Delimiters
import TrustedHtml.Proofs.Rendered
import TrustedHtml.Url.Web

/-!
# Noninterference of Untrusted Strings

The markup of a page is determined by its delimiters, the characters `<`, `>`, `"` and `'`.
This module compares two renderings of one template whose arguments differ only in the texts
of untrusted strings: as long as the same alternatives are chosen, the delimiters of the two
outputs are the same, so an untrusted string can begin no tag and end no attribute.

What is related is carried along: arguments that are alike are stored as value sets that are
alike, which hold the same delimiters in every variable of every row, and a tree has pages that
are alike for them. It matters that every variable requires something, since a string that has
to meet nothing is stored as it is.

## Main results

* `BindArg.AllAlike.apply`: **binding keeps arguments alike.**
* `Node.page_alike`: a tree has pages alike for value sets that are alike.
* `Node.noninterference`: **untrusted strings do not interfere with markup.**
-/

namespace TrustedHtml

/-! ### Arguments and values that are alike -/

/-- Strings that differ at most in the texts of untrusted ones. -/
def SafeString.Alike (a b : SafeString) : Prop :=
  a = b ∨ (a.level = .untrusted ∧ b.level = .untrusted)

namespace BindArg

mutual

/-- Arguments that differ at most in the texts of untrusted strings. -/
inductive Alike : BindArg → BindArg → Prop
  | scalar {key : Key Var} {a b : SafeString} {level : TrustLevel} (h : a.Alike b) :
      Alike (.scalar key a level) (.scalar key b level)
  | rows {key : Key Tag} {given given' : List (List BindArg)} (h : RowsAlike given given') :
      Alike (.rows key given) (.rows key given')

/-- As many rows, each of them alike. -/
inductive RowsAlike : List (List BindArg) → List (List BindArg) → Prop
  | nil : RowsAlike [] []
  | cons {row row' : List BindArg} {rest rest' : List (List BindArg)} (hrow : AllAlike row row')
      (hrest : RowsAlike rest rest') : RowsAlike (row :: rest) (row' :: rest')

/-- As many arguments, each of them alike. -/
inductive AllAlike : List BindArg → List BindArg → Prop
  | nil : AllAlike [] []
  | cons {arg arg' : BindArg} {rest rest' : List BindArg} (harg : Alike arg arg')
      (hrest : AllAlike rest rest') : AllAlike (arg :: rest) (arg' :: rest')

end

end BindArg

namespace Schema

mutual

/-- Whether every variable requires something, at every level of nesting. -/
def requiresTrust : Schema → Bool
  | ⟨_, _, _, scalars, subsections⟩ =>
      scalars.all (fun slot => slot.level != .untrusted) && rowsRequireTrust subsections

/-- Whether every variable of the rows requires something. -/
def rowsRequireTrust : List (Tag × Schema) → Bool
  | [] => true
  | (_, rows) :: rest => rows.requiresTrust && rowsRequireTrust rest

end

variable {s child : Schema}

/-- What it takes for every variable to require something. -/
theorem requiresTrust_iff : s.requiresTrust = true ↔
    (∀ slot ∈ s.scalars, slot.level ≠ .untrusted) ∧ rowsRequireTrust s.subsections = true := by
  obtain ⟨_, _, _, scalars, subsections⟩ := s
  simp [requiresTrust]

/-- The rows of each subsection are among all rows. -/
theorem requiresTrust_of_mem : ∀ {subsections : List (Tag × Schema)} {sub : Tag × Schema},
    rowsRequireTrust subsections = true → sub ∈ subsections → sub.2.requiresTrust = true
  | (t, rows) :: rest, sub, h, hmem => by
      rw [rowsRequireTrust, Bool.and_eq_true] at h
      obtain rfl | hmem := List.mem_cons.mp hmem
      · exact h.1
      · exact requiresTrust_of_mem h.2 hmem

/-- Every variable of the rows of such a schema requires something too. -/
theorem requiresTrust_child (h : s.requiresTrust = true) {t : Tag}
    (hchild : s.child t = .ok child) : child.requiresTrust = true := by
  obtain ⟨-, hrows⟩ := requiresTrust_iff.mp h
  obtain ⟨_, _, hsub⟩ := Except.bind_eq_ok.mp hchild
  split at hsub
  · rename_i sub hat
    cases hsub
    exact requiresTrust_of_mem hrows (List.mem_of_getElem? hat)
  · cases hsub

end Schema

/-- Value sets for one schema that hold the same delimiters in every variable, and as many
rows, each of them alike, in every subsection. -/
inductive ValueSet.Alike : ValueSet → ValueSet → Prop
  | intro {vs vs' : ValueSet} (schema : vs.schema = vs'.schema)
      (values : ∀ i, Text.delimiters (vs.valueAt i) = Text.delimiters (vs'.valueAt i))
      (rows : ∀ i, List.Forall₂ Alike (vs.streamAt i).rows (vs'.streamAt i).rows) : Alike vs vs'

namespace ValueSet.Alike

variable {vs vs' ws ws' : ValueSet}

/-- New value sets are alike. -/
theorem new (s : Schema) : Alike s.valueSet s.valueSet :=
  .intro rfl (fun _ => rfl) fun _ => .nil

/-- Setting rows that are alike keeps value sets alike. -/
theorem setRows (h : vs.Alike vs') {t : Tag} {bound bound' : List ValueSet}
    (hrows : List.Forall₂ Alike bound bound') (hset : vs.setRows t bound = .ok ws)
    (hset' : vs'.setRows t bound' = .ok ws') : ws.Alike ws' := by
  obtain ⟨hschema, hvalues, hstreams⟩ := setRows_eq_ok hset
  obtain ⟨hschema', hvalues', hstreams'⟩ := setRows_eq_ok hset'
  obtain ⟨schema, values, rows⟩ := h
  refine .intro (by rw [hschema, hschema', schema]) (fun i => ?_) fun i => ?_
  · rw [valueAt, valueAt, hvalues, hvalues']
    exact values i
  · rw [hstreams, hstreams']
    split
    · exact hrows
    · exact rows i

/-- A subsection has rows that are alike for value sets that are alike. -/
theorem rowsNamed (h : vs.Alike vs') (name : String) :
    List.Forall₂ Alike (vs.rowsNamed name) (vs'.rowsNamed name) := by
  obtain ⟨schema, -, rows⟩ := h
  rw [ValueSet.rowsNamed, ValueSet.rowsNamed, schema]
  cases vs'.schema.subsection? name with
  | none => exact .nil
  | some t => exact rows t.index

end ValueSet.Alike

/-! ### Pages that are alike -/

/-- Pages that are written with the same delimiters, unless one of them ends early. -/
def Page.Alike (a b : Page) : Prop :=
  a.stopped = none → b.stopped = none →
    ∀ s t, a.Shows s → b.Shows t → Text.delimiters s = Text.delimiters t

namespace Page

variable {a b c d : Page} {bit bit' : Bit}

/-- An empty page is like itself. -/
theorem alike_empty : empty.Alike empty := by
  rintro - - _ _ ⟨parts, hparts, rfl⟩ ⟨parts', hparts', rfl⟩
  cases hparts
  cases hparts'
  rfl

/-- Parts that are shown with the same delimiters are pages that are alike. -/
theorem alike_ofBit
    (h : ∀ s t, bit.Shows s → bit'.Shows t → Text.delimiters s = Text.delimiters t) :
    (ofBit bit).Alike (ofBit bit') := by
  rintro - - _ _ ⟨parts, hparts, rfl⟩ ⟨parts', hparts', rfl⟩
  cases hparts with
  | cons hbit hrest =>
      cases hrest
      cases hparts' with
      | cons hbit' hrest' =>
          cases hrest'
          simpa using h _ _ hbit hbit'

/-- Markup is like itself. -/
theorem alike_markup (text : String) : (markup text).Alike (markup text) :=
  alike_ofBit fun s t hs ht => by
    cases hs
    cases ht
    rfl

/-- Values with the same delimiters are alike. -/
theorem alike_value {place : Place} {source source' : Option (SafeString × TrustLevel)}
    {text text' : String} (h : Text.delimiters text = Text.delimiters text') :
    (ofBit (.value place source text)).Alike (ofBit (.value place source' text')) :=
  alike_ofBit fun s t hs ht => by
    cases hs
    cases ht
    exact h

/-- Pages one after the other are alike if each of them is. -/
theorem Alike.append (h : a.Alike b) (hrest : c.Alike d) :
    (a.append c).Alike (b.append d) := by
  intro hac hbd s t hs ht
  have stopped_of : ∀ {p q : Page}, (p.append q).stopped = none →
      p.stopped = none ∧ q.stopped = none := by
    rintro ⟨_, _ | _⟩ q hpq
    · exact ⟨rfl, hpq⟩
    · cases hpq
  obtain ⟨ha, hc⟩ := stopped_of hac
  obtain ⟨hb, hd⟩ := stopped_of hbd
  obtain ⟨s₁, s₂, hs₁, hs₂, rfl⟩ := hs.of_append ha
  obtain ⟨t₁, t₂, ht₁, ht₂, rfl⟩ := ht.of_append hb
  rw [Text.delimiters_append, Text.delimiters_append, h ha hb s₁ t₁ hs₁ ht₁,
    hrest hc hd s₂ t₂ hs₂ ht₂]

/-- Rows are alike that are alike one by one. -/
theorem rows_alike {rows rows' : List ValueSet} {given given' : List (List BindArg)}
    {page : ValueSet → List BindArg → Page} {R : ValueSet → List BindArg → Prop}
    {A : ValueSet → ValueSet → Prop} (halike : List.Forall₂ ValueSet.Alike rows rows')
    (hrows : List.Forall₂ R rows given) (hrows' : List.Forall₂ R rows' given')
    (hagree : ∀ pair ∈ rows.zip rows', A pair.1 pair.2)
    (h : ∀ {row row' args args'}, row.Alike row' → A row row' → R row args → R row' args' →
      (page row args).Alike (page row' args')) :
    ((rows.zip given).foldr (fun row later => (page row.1 row.2).append later) .empty).Alike
      ((rows'.zip given').foldr (fun row later => (page row.1 row.2).append later) .empty) := by
  induction halike generalizing given given' with
  | nil => exact alike_empty
  | cons hrow hlater ih =>
      cases hrows with
      | cons hbound hrows =>
          cases hrows' with
          | cons hbound' hrows' =>
              rw [List.zip_cons_cons, List.forall_mem_cons] at hagree
              exact (h hrow hagree.1 hbound hbound').append (ih hrows hrows' hagree.2)

end Page

/-- A line break has no delimiters if the indentation has none. -/
theorem LayoutOptions.delimiters_lineBreak {o : LayoutOptions}
    (hindent : Text.delimiters o.indent = []) (depth : ℕ) :
    Text.delimiters (o.lineBreak depth) = [] :=
  Reflow.filter_lineBreak (r := ⟨0, depth, o.indent⟩)
    (fun _ hc => Text.not_isDelimiter_of_isBlank hc)
    fun _ hc => Text.not_isDelimiter_of_mem hindent hc

/-- What is in front of an element is alike, whether it stands on a fresh line or not. -/
theorem Element.startPage_alike (hindent : Text.delimiters o.indent = []) (depth : ℕ)
    (e : Element) : (e.startPage o depth).Alike (e.startPage o depth) := by
  rw [startPage]
  split
  · have hnone : ∀ s, (Bit.freshLine (o.lineBreak depth)).Shows s → Text.delimiters s = [] := by
      intro s hs
      cases hs with
      | freshLine => exact LayoutOptions.delimiters_lineBreak hindent depth
      | onFreshLine => exact Text.delimiters_empty
    exact Page.alike_ofBit fun s t hs ht => by rw [hnone s hs, hnone t ht]
  · exact Page.alike_empty

/-- What begins a line within an element is like itself. -/
theorem Element.breakPage_alike (depth : ℕ) (e : Element) :
    (e.breakPage o depth).Alike (e.breakPage o depth) := by
  rw [breakPage]
  split
  · exact Page.alike_markup _
  · exact Page.alike_empty

/-! ### Choices that agree -/

namespace Node

mutual

/-- Every switch of a tree that is evaluated chooses the same alternative for two value sets,
and for the rows in them that correspond to each other. -/
def Agree : Node → ValueSet → ValueSet → Prop
  | .element _ contents, vs, vs' => ChildrenAgree contents vs vs'
  | .text _ _, _, _ => True
  | .raw _, _, _ => True
  | .multi _ contents, vs, vs' => ChildrenAgree contents vs vs'
  | .subsection name prototype, vs, vs' =>
      ∀ rows ∈ (vs.rowsNamed name).zip (vs'.rowsNamed name), Agree prototype rows.1 rows.2
  | .switch cases default, vs, vs' =>
      CasesAgree cases vs vs' ∧
        ((∀ case ∈ cases, case.1 vs = false) → OutputAgrees default vs vs')

/-- All children agree. -/
def ChildrenAgree : List Node → ValueSet → ValueSet → Prop
  | [], _, _ => True
  | child :: rest, vs, vs' => Agree child vs vs' ∧ ChildrenAgree rest vs vs'

/-- The same case is the first one that holds, if one does, and its output agrees. -/
def CasesAgree : List (Condition × Option Node) → ValueSet → ValueSet → Prop
  | [], _, _ => True
  | (condition, output) :: rest, vs, vs' =>
      condition vs = condition vs' ∧
        if condition vs then OutputAgrees output vs vs' else CasesAgree rest vs vs'

/-- The output of an alternative agrees, if there is one. -/
def OutputAgrees : Option Node → ValueSet → ValueSet → Prop
  | none, _, _ => True
  | some output, vs, vs' => Agree output vs vs'

end

end Node

/-! ### Binding -/

section

variable [UrlReader]

/-- Strings that are alike are stored with the same delimiters where anything is required. -/
theorem SafeString.Alike.delimiters_eq {a b : SafeString} {required : TrustLevel}
    {text text' : String} (h : a.Alike b) (hne : required ≠ .untrusted)
    (ha : a.check required = .ok text) (hb : b.check required = .ok text') :
    Text.delimiters text = Text.delimiters text' := by
  obtain rfl | ⟨hlevel, hlevel'⟩ := h
  · rw [ha] at hb
    rw [Except.ok.inj hb]
  · rw [delimiters_check hlevel hne ha, delimiters_check hlevel' hne hb]

namespace ValueSet.Alike

variable {vs vs' ws ws' : ValueSet}

/-- Storing strings that are alike keeps value sets alike. -/
theorem setScalar (h : vs.Alike vs') (hs : vs.schema.requiresTrust = true) {v : Var}
    {a b : SafeString} {level : TrustLevel} (hab : a.Alike b)
    (hset : vs.setScalarRequiring v a level = .ok ws)
    (hset' : vs'.setScalarRequiring v b level = .ok ws') : ws.Alike ws' := by
  obtain ⟨slot, text, hslot, hcheck, hstore⟩ := setScalarRequiring_eq_ok hset
  obtain ⟨slot', text', hslot', hcheck', hstore'⟩ := setScalarRequiring_eq_ok hset'
  obtain ⟨hschema, hstreams, hvalues⟩ := store_eq_ok hstore
  obtain ⟨hschema', hstreams', hvalues'⟩ := store_eq_ok hstore'
  obtain ⟨schema, values, rows⟩ := h
  rw [← schema, hslot] at hslot'
  obtain rfl := Option.some.inj hslot'
  have hne : slot.level ⊔ level ≠ .untrusted := fun heq =>
    (Schema.requiresTrust_iff.mp hs).1 slot (List.mem_of_getElem? hslot)
      (TrustLevel.eq_untrusted_of_le (heq ▸ le_sup_left))
  refine .intro (by rw [hschema, hschema', schema]) (fun i => ?_) fun i => ?_
  · rw [hvalues, hvalues']
    split
    · exact hab.delimiters_eq hne hcheck hcheck'
    · exact values i
  · rw [streamAt, streamAt, hstreams, hstreams']
    exact rows i

end ValueSet.Alike

namespace BindArg

open Binding

mutual

/-- Applying one of two arguments that are alike keeps value sets alike. -/
theorem Alike.apply {arg arg' : BindArg} {vs vs' ws ws' : ValueSet} (hvs : vs.Alike vs')
    (hs : vs.schema.requiresTrust = true) (happly : applyArg vs arg = .ok ws)
    (happly' : applyArg vs' arg' = .ok ws') : Alike arg arg' → ws.Alike ws'
  | .scalar hab => by
      obtain ⟨schema, -⟩ := id hvs
      rw [applyArg] at happly happly'
      rw [← schema] at happly'
      split at happly
      · rename_i v hresolve
        rw [hresolve] at happly'
        exact hvs.setScalar hs hab happly happly'
      · rename_i hresolve
        rw [hresolve] at happly'
        obtain rfl := undeclared_eq_ok happly
        obtain rfl := undeclared_eq_ok happly'
        exact hvs
  | .rows hgiven => by
      obtain ⟨schema, -⟩ := id hvs
      rw [applyArg] at happly happly'
      rw [← schema] at happly'
      obtain ⟨resolved, hresolve, happly⟩ := Except.bind_eq_ok.mp happly
      obtain ⟨resolved', hresolve', happly'⟩ := Except.bind_eq_ok.mp happly'
      obtain rfl := Except.ok.inj (hresolve.symm.trans hresolve')
      cases resolved with
      | none =>
          obtain rfl := undeclared_eq_ok happly
          obtain rfl := undeclared_eq_ok happly'
          exact hvs
      | some t =>
          obtain ⟨child, hchild, happly⟩ := Except.bind_eq_ok.mp happly
          obtain ⟨child', hchild', happly'⟩ := Except.bind_eq_ok.mp happly'
          obtain rfl := Except.ok.inj (hchild.symm.trans hchild')
          obtain ⟨bound, hbound, hset⟩ := Except.bind_eq_ok.mp happly
          obtain ⟨bound', hbound', hset'⟩ := Except.bind_eq_ok.mp happly'
          rw [Except.mapError_eq_ok] at hchild hset hset'
          have hrows := hgiven.bind (Schema.requiresTrust_child hs hchild) (applyRows_eq_ok hbound)
            (applyRows_eq_ok hbound')
          exact hvs.setRows hrows hset hset'

/-- Rows that are bound to arguments that are alike are alike. -/
theorem RowsAlike.bind {child : Schema} {given given' : List (List BindArg)}
    {bound bound' : List ValueSet} (hs : child.requiresTrust = true)
    (hbound : List.Forall₂ (fun row args => child.bind args = .ok row) bound given)
    (hbound' : List.Forall₂ (fun row args => child.bind args = .ok row) bound' given') :
    RowsAlike given given' → List.Forall₂ ValueSet.Alike bound bound'
  | .nil => by
      cases hbound
      cases hbound'
      exact .nil
  | .cons hrow hrest => by
      cases hbound with
      | cons hfirst hlater =>
          cases hbound' with
          | cons hfirst' hlater' =>
              rw [Schema.bind_eq_ok_iff] at hfirst hfirst'
              exact .cons (hrow.apply (.new child) hs hfirst hfirst') (hrest.bind hs hlater hlater')

/-- **Binding keeps arguments alike**: applied to value sets that are alike, arguments that are
alike yield value sets that are alike. -/
theorem AllAlike.apply {args args' : List BindArg} {vs vs' ws ws' : ValueSet}
    (hvs : vs.Alike vs') (hs : vs.schema.requiresTrust = true)
    (happly : applyAll vs args = (ws, none)) (happly' : applyAll vs' args' = (ws', none)) :
    AllAlike args args' → ws.Alike ws'
  | .nil => by
      rw [applyAll] at happly happly'
      cases happly
      cases happly'
      exact hvs
  | .cons harg hrest => by
      obtain ⟨mid, hmid, happly⟩ := applyAll_cons_eq happly
      obtain ⟨mid', hmid', happly'⟩ := applyAll_cons_eq happly'
      have hs' : mid.schema.requiresTrust = true := by rwa [applyArg_schema_eq hmid]
      exact hrest.apply (harg.apply hvs hs hmid hmid') hs' happly happly'

end

end BindArg

/-! ### Trees -/

namespace ValueSet.Alike

variable {vs vs' : ValueSet}

/-- A value has the same delimiters for value sets that are alike. -/
theorem delimiters_content (h : vs.Alike vs') (place : Place) (value : Value) :
    Text.delimiters (value.content place vs) = Text.delimiters (value.content place vs') := by
  obtain ⟨schema, values, -⟩ := h
  cases value with
  | concrete s => rfl
  | deferred v =>
      rw [Value.content, Value.content, scalarByName, scalarByName, schema]
      cases vs'.schema.scalar? v.name.text with
      | none => rfl
      | some slot => exact values slot.index

end ValueSet.Alike

namespace Node

/-- No page of a case is chosen if no condition holds. -/
theorem casePage_eq_none {o : LayoutOptions} {depth : ℕ} {vs : ValueSet} {args : List BindArg} :
    ∀ {cases : List (Condition × Option Node)}, casePage o depth cases vs args = none →
      ∀ case ∈ cases, case.1 vs = false
  | [], _, case, hmem => by cases hmem
  | (condition, output) :: rest, h, case, hmem => by
      rw [casePage] at h
      split at h
      · cases h
      · rename_i hholds
        obtain rfl | hmem := List.mem_cons.mp hmem
        · exact Bool.eq_false_iff.mpr hholds
        · exact casePage_eq_none h case hmem

end Node

section

variable {o : LayoutOptions} {vs vs' : ValueSet} {args args' : List BindArg}

/-- An attribute is alike for value sets that are alike. -/
theorem Attribute.page_alike (h : vs.Alike vs') (a : Attribute) :
    (a.page vs args).Alike (a.page vs' args') :=
  (Page.alike_markup _).append
    ((Page.alike_value (h.delimiters_content a.place a.value)).append (Page.alike_markup _))

/-- Attributes are alike for value sets that are alike. -/
theorem Attribute.pages_alike (h : vs.Alike vs') : ∀ attributes : List Attribute,
    (attributes.foldr (fun a later => (a.page vs args).append later) Page.empty).Alike
      (attributes.foldr (fun a later => (a.page vs' args').append later) Page.empty)
  | [] => Page.alike_empty
  | a :: rest => (a.page_alike h).append (pages_alike h rest)

/-- An opening tag is alike for value sets that are alike. -/
theorem Element.openingPage_alike (h : vs.Alike vs') (e : Element) :
    (e.openingPage vs args).Alike (e.openingPage vs' args') :=
  ((Page.alike_markup _).append (Attribute.pages_alike h _)).append (Page.alike_markup _)

/-- A text is alike for value sets that are alike, if the indentation has no delimiters. -/
theorem Value.textPage_alike (h : vs.Alike vs') {r : Reflow}
    (hindent : Text.delimiters r.indent = []) (value : Value) :
    (value.textPage r vs args).Alike (value.textPage r vs' args') := by
  rw [textPage, textPage]
  cases hreflow : r.apply (value.content .text vs) with
  | error e => exact nofun
  | ok text =>
      cases hreflow' : r.apply (value.content .text vs') with
      | error e => exact fun _ => nofun
      | ok text' =>
          refine Page.alike_value ?_
          rw [Reflow.delimiters_apply hindent hreflow, Reflow.delimiters_apply hindent hreflow']
          exact h.delimiters_content .text value

end

namespace Node

variable {o : LayoutOptions}

mutual

/-- **A tree has pages that are alike** for value sets that are alike, if every switch chooses
the same alternative. -/
theorem page_alike (hindent : Text.delimiters o.indent = []) (depth : ℕ)
    {vs vs' : ValueSet} {args args' : List BindArg} (hbound : vs.BoundTo args)
    (hbound' : vs'.BoundTo args') (halike : vs.Alike vs') :
    ∀ node : Node, node.Agree vs vs' →
      (node.page o depth vs args).Alike (node.page o depth vs' args')
  | .element e contents, hagree => by
      rw [Agree] at hagree
      have hstart := e.startPage_alike hindent depth
      have hopening : (e.openingPage vs args).Alike (e.openingPage vs' args') :=
        e.openingPage_alike halike
      have hbody := childPages_alike hindent (e.innerDepth o depth) hbound hbound' halike contents
        hagree
      rw [page, page]
      cases hclosed : e.isClosed with
      | true => exact hstart.append hopening
      | false =>
          exact ((((hstart.append hopening).append (e.breakPage_alike _)).append hbody).append
            (e.breakPage_alike depth)).append (Page.alike_markup _)
  | .text value width, _ => by
      rw [page, page]
      exact value.textPage_alike halike hindent
  | .raw value, _ => by
      rw [page, page]
      exact Page.alike_value (halike.delimiters_content .raw value)
  | .multi error contents, hagree => by
      rw [Agree] at hagree
      rw [page, page]
      exact childPages_alike hindent depth hbound hbound' halike contents hagree
  | .subsection name prototype, hagree => by
      rw [Agree] at hagree
      rw [page, page]
      refine Page.rows_alike (halike.rowsNamed name) (hbound.rowsNamed name)
        (hbound'.rowsNamed name) hagree fun hrow hagree hbound hbound' => ?_
      exact page_alike hindent depth hbound hbound' hrow prototype hagree
  | .switch cases default, hagree => by
      rw [Agree] at hagree
      rw [page, page]
      refine getD_of_rel (casePage_alike hindent depth hbound hbound' halike cases hagree.1)
        fun hnone => ?_
      exact outputPage_alike hindent depth hbound hbound' halike default
        (hagree.2 (casePage_eq_none hnone))

/-- Children have pages that are alike. -/
theorem childPages_alike (hindent : Text.delimiters o.indent = []) (depth : ℕ)
    {vs vs' : ValueSet} {args args' : List BindArg} (hbound : vs.BoundTo args)
    (hbound' : vs'.BoundTo args') (halike : vs.Alike vs') :
    ∀ contents : List Node, ChildrenAgree contents vs vs' →
      (childPages o depth contents vs args).Alike (childPages o depth contents vs' args')
  | [], _ => Page.alike_empty
  | child :: rest, hagree => by
      rw [ChildrenAgree] at hagree
      exact (page_alike hindent depth hbound hbound' halike child hagree.1).append
        (childPages_alike hindent depth hbound hbound' halike rest hagree.2)

/-- The cases that are chosen have pages that are alike, or none is chosen. -/
theorem casePage_alike (hindent : Text.delimiters o.indent = []) (depth : ℕ)
    {vs vs' : ValueSet} {args args' : List BindArg} (hbound : vs.BoundTo args)
    (hbound' : vs'.BoundTo args') (halike : vs.Alike vs') :
    ∀ cases : List (Condition × Option Node), CasesAgree cases vs vs' →
      Option.Rel Page.Alike (casePage o depth cases vs args) (casePage o depth cases vs' args')
  | [], _ => .none
  | (condition, output) :: rest, hagree => by
      rw [CasesAgree] at hagree
      obtain ⟨hsame, hagree⟩ := hagree
      rw [casePage, casePage, ← hsame]
      split at hagree
      · rename_i hholds
        rw [if_pos hholds, if_pos hholds]
        exact .some (outputPage_alike hindent depth hbound hbound' halike output hagree)
      · rename_i hholds
        rw [if_neg hholds, if_neg hholds]
        exact casePage_alike hindent depth hbound hbound' halike rest hagree

/-- Alternatives have pages that are alike. -/
theorem outputPage_alike (hindent : Text.delimiters o.indent = []) (depth : ℕ)
    {vs vs' : ValueSet} {args args' : List BindArg} (hbound : vs.BoundTo args)
    (hbound' : vs'.BoundTo args') (halike : vs.Alike vs') :
    ∀ output : Option Node, OutputAgrees output vs vs' →
      (outputPage o depth output vs args).Alike (outputPage o depth output vs' args')
  | none, _ => Page.alike_empty
  | some output, hagree => by
      rw [OutputAgrees] at hagree
      exact page_alike hindent depth hbound hbound' halike output hagree

end

/-- **Untrusted strings do not interfere with markup.** Let a template be compiled from a tree,
with an indentation without delimiters, so that every variable requires something. If arguments
that differ only in the texts of untrusted strings are bound to it, every switch chooses the
same alternative both times, and no text is too long to be reflowed, then the two outputs have
the same delimiters. -/
theorem noninterference {node : Node} {scope : Scope} {t : Template} {next : ℕ}
    {args args' : List BindArg} {vs vs' : ValueSet} (hwf : scope.schema.WellFormed)
    (hcompile : node.compile o scope = (.ok t, next)) (hindent : Text.delimiters o.indent = [])
    (htrust : t.schema.requiresTrust = true) (halike : BindArg.AllAlike args args')
    (hbind : t.bind args = .ok vs) (hbind' : t.bind args' = .ok vs')
    (hagree : node.Agree vs vs') (hfits : ∀ e, t.renderToString vs ≠ .error (.overflow e))
    (hfits' : ∀ e, t.renderToString vs' ≠ .error (.overflow e)) :
    ∃ output output', t.renderToString vs = .ok output ∧ t.renderToString vs' = .ok output' ∧
      Text.delimiters output = Text.delimiters output' := by
  obtain ⟨output, houtput, hstopped, hshows⟩ | ⟨e, he, -⟩ :=
    renderToString_cases hwf hcompile hbind
  · obtain ⟨output', houtput', hstopped', hshows'⟩ | ⟨e, he, -⟩ :=
      renderToString_cases hwf hcompile hbind'
    · obtain ⟨hwf', -⟩ := compiles_of_compile hwf hcompile
      have hvalues : vs.Alike vs' := halike.apply (.new t.schema) htrust
        (Schema.bind_eq_ok_iff.mp hbind) (Schema.bind_eq_ok_iff.mp hbind')
      have hpages := page_alike hindent o.rootDepth ⟨_, hwf', Schema.bound_of_bind hbind⟩
        ⟨_, hwf', Schema.bound_of_bind hbind'⟩ hvalues node hagree
      exact ⟨output, output', houtput, houtput',
        hpages hstopped hstopped' output output' hshows hshows'⟩
    · exact absurd he (hfits' e)
  · exact absurd he (hfits e)

end Node

end

/-- The strings in the arguments for `Node.profile` are untrusted. -/
theorem Node.profileArgs_alike (user skill user' skill' : String) :
    BindArg.AllAlike (profileArgs user skill) (profileArgs user' skill') := by
  have hscalar : ∀ (key : Key Var) (a b : String), BindArg.Alike
      (.scalar key (.untrusted a) .untrusted) (.scalar key (.untrusted b) .untrusted) :=
    fun key a b => .scalar (.inr ⟨rfl, rfl⟩)
  exact .cons (hscalar ..)
    (.cons (.rows (.cons (.cons (hscalar ..) .nil) (.cons .nil .nil))) .nil)

/-- Strings that try to end the attribute and the text of `Node.profile` do not do so. -/
theorem Node.noninterference_profile : ∃ t next vs vs' output output',
    profile.compile .tidy (.newRoot 1) = (.ok t, next) ∧
      t.bind (profileArgs "jd" "a b") = .ok vs ∧ t.bind (profileArgs "\"></p>" "<!--") = .ok vs' ∧
      t.renderToString vs = .ok output ∧ t.renderToString vs' = .ok output' ∧
      Text.delimiters output = Text.delimiters output' := by
  have hruns : profile.runs .tidy (profileArgs "jd" "a b") (fun t vs =>
      t.schema.requiresTrust && (t.renderToString vs).toBool &&
        (t.bind (profileArgs "\"></p>" "<!--")).toOption.any fun vs' =>
          (t.renderToString vs').toBool) = true := by
    decide +kernel
  obtain ⟨t, next, vs, hcompile, hbind, hchecked⟩ := exists_of_runs hruns
  rw [Bool.and_eq_true, Bool.and_eq_true] at hchecked
  obtain ⟨⟨htrust, hfits⟩, hsecond⟩ := hchecked
  cases hbind' : t.bind (profileArgs "\"></p>" "<!--") with
  | error e =>
      rw [hbind'] at hsecond
      cases hsecond
  | ok vs' =>
      rw [hbind'] at hsecond
      have hfits' : (t.renderToString vs').toBool = true := hsecond
      have hroot : (Scope.newRoot 1).schema.WellFormed := Schema.wellFormed_of_empty rfl rfl
      have hagree : profile.Agree vs vs' := by simp [profile, Agree, ChildrenAgree]
      obtain ⟨output, output', houtput, houtput', hsame⟩ := noninterference hroot hcompile
        (by decide) htrust (profileArgs_alike ..) hbind hbind' hagree
        (fun e he => by rw [he] at hfits; cases hfits)
        (fun e he => by rw [he] at hfits'; cases hfits')
      exact ⟨t, next, vs, vs', output, output', hcompile, hbind, hbind', houtput, houtput', hsame⟩

end TrustedHtml
