import TrustedHtml.Proofs.Delimiters
import TrustedHtml.Proofs.Rendered
import TrustedHtml.Url.Web

/-!
# What Becomes of Untrusted Strings

An untrusted string is escaped before it is written, so that no delimiter of it reaches the
page. There is one exception, which is part of the design: the attributes whose names begin
with `data-` are inert and require nothing, and what has to meet nothing is written as it is.
This module says so of every bit of every page, with the exact condition: a bit is written
verbatim if its place is such an attribute that requires nothing of its own, and, for a
variable, if no other use of it and no argument requires anything either. Every other bit has
no delimiters but those of the indentation that reflowing puts between its lines.

## Main results

* `Place.isInert_of_required_eq_untrusted`: which places require nothing.
* `Node.untrusted_contained`: **what becomes of every untrusted string.**
* `Node.untrusted_verbatim`: the exception does occur.
-/

namespace TrustedHtml

/-! ### Places that require nothing -/

/-- An attribute whose name begins with `data-` and that requires nothing of its own. -/
def Place.IsInert : Place → Prop
  | .attribute name level => name.startsWith "data-" = true ∧ level = .untrusted
  | .text | .raw => False

/-- Every attribute that is known requires something. -/
theorem Attribute.known_ne_untrusted {name : String} {level : TrustLevel}
    (h : Attribute.known name = some level) : level ≠ .untrusted := by
  rw [known] at h
  split at h
  · cases h
    decide
  · split at h
    · cases h
      decide
    · split at h
      · cases h
        decide
      · split at h
        · cases h
          decide
        · cases h

/-- **Only inert attributes require nothing.** -/
theorem Place.isInert_of_required_eq_untrusted {place : Place}
    (h : place.required = .untrusted) : place.IsInert := by
  cases place with
  | text => cases h
  | raw => cases h
  | «attribute» name level =>
      have hname : TrustLevel.ofAttribute name ≤ .untrusted := h ▸ le_sup_left
      have hlevel : level ≤ .untrusted := h ▸ le_sup_right
      refine ⟨?_, TrustLevel.eq_untrusted_of_le hlevel⟩
      have hnone := TrustLevel.eq_untrusted_of_le hname
      rw [TrustLevel.ofAttribute] at hnone
      split at hnone
      · rename_i known hknown
        exact absurd hnone (Attribute.known_ne_untrusted hknown)
      · split at hnone
        · assumption
        · cases hnone

/-! ### Bits -/

/-- `text` is what is written at a place for a string that was checked: the string as it is,
except that a text may be reflowed. -/
def Place.Writes (indent : String) (place : Place) (checked text : String) : Prop :=
  text = checked ∨ (place = .text ∧ ∃ r : Reflow, r.indent = indent ∧ r.apply checked = .ok text)

/-- What is written for a string without delimiters has those of the indentation at most. -/
theorem Place.Writes.mem_indent {indent checked text : String} {place : Place}
    (h : place.Writes indent checked text) (hnone : Text.delimiters checked = []) {c : Char}
    (hc : c ∈ Text.delimiters text) : c ∈ indent.toList := by
  obtain rfl | ⟨-, r, rfl, hreflow⟩ := h
  · rw [hnone] at hc
    cases hc
  · obtain hc | hc := Reflow.mem_delimiters_apply hreflow hc
    · rw [hnone] at hc
      cases hc
    · exact hc

/-- What becomes of an untrusted string. If anything is required of it, it is escaped, which
leaves it without delimiters, so that every delimiter of the bit is one of the indentation. If
nothing is, the bit stands in an inert attribute, and is the string itself. -/
def Bit.Contained [UrlReader] (indent : String) : Bit → Prop
  | .value place (some (s, level)) text => s.level = .untrusted →
      if level = .untrusted then place.IsInert ∧ text = s.text
      else
        (∃ escaped, s.check level = .ok escaped ∧ Text.delimiters escaped = [] ∧
          place.Writes indent escaped text) ∧ ∀ c ∈ Text.delimiters text, c ∈ indent.toList
  | .value _ none _ | .markup _ | .freshLine _ => True

/-- Something that holds of every bit of a page. -/
def Page.All (P : Bit → Prop) (page : Page) : Prop :=
  ∀ bit ∈ page.bits, P bit

namespace Page

variable {P : Bit → Prop} {page later : Page} {bit : Bit}

/-- It holds of every bit of an empty page. -/
theorem all_empty : empty.All P := by
  intro bit hbit
  cases hbit

/-- It holds of a single bit. -/
theorem all_ofBit (h : P bit) : (ofBit bit).All P := by
  intro other hother
  obtain rfl := List.mem_singleton.mp hother
  exact h

/-- It holds of the bits of pages one after the other. -/
theorem All.append (h : page.All P) (hlater : later.All P) : (page.append later).All P := by
  intro bit hbit
  rw [Page.append] at hbit
  split at hbit
  · exact h bit hbit
  · obtain hbit | hbit := List.mem_append.mp hbit
    · exact h bit hbit
    · exact hlater bit hbit

/-- What holds of the pages of all rows holds of the rows. -/
theorem all_rows {R : ValueSet → List BindArg → Prop}
    {rows : List ValueSet} {given : List (List BindArg)} {page : ValueSet → List BindArg → Page}
    (hrows : List.Forall₂ R rows given) (h : ∀ row args, R row args → (page row args).All P) :
    ((rows.zip given).foldr (fun row later => (page row.1 row.2).append later) .empty).All P := by
  induction hrows with
  | nil => exact all_empty
  | cons hrow _ ih => exact (h _ _ hrow).append ih

end Page

section Contained

variable [UrlReader]

/-- There is no value in front of an element. -/
theorem Element.contained_startPage (o : LayoutOptions) (depth : ℕ) (e : Element) :
    (e.startPage o depth).All (·.Contained o.indent) := by
  rw [startPage]
  split
  · exact Page.all_ofBit trivial
  · exact Page.all_empty

/-- There is no value in a line break. -/
theorem Element.contained_breakPage (o : LayoutOptions) (depth : ℕ) (e : Element) :
    (e.breakPage o depth).All (·.Contained o.indent) := by
  rw [breakPage]
  split
  · exact Page.all_ofBit trivial
  · exact Page.all_empty

/-- A string that was checked at a level which covers its place is contained there. -/
theorem SafeString.contained_of_check {s : SafeString} {level : TrustLevel} {place : Place}
    {indent checked text : String} (h : s.check level = .ok checked) (hle : place.required ≤ level)
    (hwrites : place.Writes indent checked text) :
    (Bit.value place (some (s, level)) text).Contained indent := by
  intro hs
  by_cases hlevel : level = .untrusted
  · subst hlevel
    rw [if_pos rfl]
    have hinert := Place.isInert_of_required_eq_untrusted (TrustLevel.eq_untrusted_of_le hle)
    rw [SafeString.check_untrusted] at h
    obtain rfl | ⟨rfl, -⟩ := hwrites
    · exact ⟨hinert, (Except.ok.inj h).symm⟩
    · exact hinert.elim
  · rw [if_neg hlevel]
    have hnone := SafeString.delimiters_check hs hlevel h
    exact ⟨⟨checked, h, hnone, hwrites⟩, fun c hc => hwrites.mem_indent hnone hc⟩

variable {o : LayoutOptions} {f : Schema} {vs : ValueSet} {args : List BindArg}

/-- The string that a variable holds was checked at a level that covers every place that the
variable is offered for. -/
theorem ValueSet.Bound.check_source (h : vs.Bound f args) (hwf : f.WellFormed) {w : Var}
    {name : SlotName} {level checked : TrustLevel} {s : SafeString}
    (hoffer : f.Offers w name level)
    (hsource : Binding.source? vs.schema name.text args = some (s, checked)) :
    level ≤ checked ∧ s.check checked = .ok (vs.valueAt w.index) := by
  obtain ⟨slot, hfind, hindex, hslot, hlevel⟩ := hoffer.scalar?_eq hwf
  rw [Binding.source?, h.schema_eq, hfind, Option.map_eq_some_iff] at hsource
  obtain ⟨⟨last, extra⟩, hlast, heq⟩ := hsource
  cases heq
  obtain ⟨slot', hslot', hcheck⟩ := h.checked hlast
  rw [hindex, hslot] at hslot'
  obtain rfl := Option.some.inj hslot'
  rw [hindex] at hcheck
  exact ⟨hlevel.trans le_sup_left, hcheck⟩

/-- What is written for a value is contained at its place. -/
theorem Value.Compiles.contained (place : Place) {indent text : String} {value : Value}
    {piece : Piece} (hwf : f.WellFormed) (hbound : vs.Bound f args)
    (h : value.Compiles f place.required piece)
    (hwrites : place.Writes indent (value.content place vs) text) :
    (Bit.value place (value.source? place vs.schema args) text).Contained indent := by
  cases h with
  | @concrete s checked hcheck =>
      rw [Value.content, hcheck] at hwrites
      exact SafeString.contained_of_check hcheck le_rfl hwrites
  | @deferred v w hoffer =>
      rw [Value.content, hbound.scalarByName_eq hwf hoffer] at hwrites
      rw [Value.source?]
      cases hsource : Binding.source? vs.schema v.name.text args with
      | none => trivial
      | some source =>
          obtain ⟨hle, hcheck⟩ := hbound.check_source hwf hoffer hsource
          exact SafeString.contained_of_check hcheck (le_sup_right.trans hle) hwrites

/-- A text is contained. -/
theorem Value.TextCompiles.contained {depth : ℕ} {width : Option ℕ} {value : Value}
    {piece : Piece} (hwf : f.WellFormed) (hbound : vs.Bound f args)
    (h : value.TextCompiles o f depth width piece) :
    (value.textPage (o.reflow depth width) vs args).All (·.Contained o.indent) := by
  obtain ⟨unwrapped, hvalue⟩ := h.compiles
  rw [textPage]
  cases hreflow : (o.reflow depth width).apply (value.content .text vs) with
  | ok text =>
      have hwrites : Place.text.Writes o.indent (value.content .text vs) text :=
        .inr ⟨rfl, o.reflow depth width, rfl, hreflow⟩
      exact Page.all_ofBit (hvalue.contained .text hwf hbound hwrites)
  | error e => exact Page.all_empty

/-- An attribute is contained. -/
theorem Attribute.Compiles.contained {a : Attribute} {found : List Piece} (indent : String)
    (hwf : f.WellFormed) (hbound : vs.Bound f args) (h : a.Compiles f found) :
    (a.page vs args).All (·.Contained indent) := by
  obtain ⟨-, hvalue⟩ := h
  have hcontained : (a.value.bit a.place vs args).Contained indent :=
    hvalue.contained a.place hwf hbound (.inl rfl)
  exact (Page.all_ofBit trivial).append
    ((Page.all_ofBit hcontained).append (Page.all_ofBit trivial))

/-- Attributes are contained. -/
theorem Attribute.contained_of_forall₂ {attributes : List Attribute} {each : List (List Piece)}
    (indent : String) (hwf : f.WellFormed) (hbound : vs.Bound f args)
    (h : List.Forall₂ (Attribute.Compiles f) attributes each) :
    (attributes.foldr (fun a later => (a.page vs args).append later) Page.empty).All
      (·.Contained indent) := by
  induction h with
  | nil => exact Page.all_empty
  | cons hattribute _ ih => exact (hattribute.contained indent hwf hbound).append ih

/-- An opening tag is contained. -/
theorem Element.OpeningCompiles.contained {e : Element} {opening : List Piece} (indent : String)
    (hwf : f.WellFormed) (hbound : vs.Bound f args) (h : e.OpeningCompiles f opening) :
    (e.openingPage vs args).All (·.Contained indent) := by
  obtain ⟨hattributes⟩ := h
  have hcontained := Attribute.contained_of_forall₂ indent hwf hbound hattributes
  exact ((Page.all_ofBit trivial).append hcontained).append (Page.all_ofBit trivial)

namespace Node

mutual

/-- **Every bit of the page of a tree is contained.** -/
theorem Compiles.contained {f : Schema} {depth : ℕ} {node : Node} {found : List Piece}
    {vs : ValueSet} {args : List BindArg} (hwf : f.WellFormed) (hbound : vs.Bound f args) :
    node.Compiles o f depth found → (node.page o depth vs args).All (·.Contained o.indent)
  | .closed (e := e) hcheck hclosed hopening => by
      rw [page, if_pos hclosed]
      exact (e.contained_startPage o depth).append (hopening.contained o.indent hwf hbound)
  | .paired (e := e) hcheck hclosed hopening hbody => by
      have hstart := (e.contained_startPage o depth).append (hopening.contained o.indent hwf hbound)
      have hcontents := hbody.contained hwf hbound
      rw [page, if_neg (by simp [hclosed])]
      exact (((hstart.append (e.contained_breakPage o _)).append hcontents).append
        (e.contained_breakPage o depth)).append (Page.all_ofBit trivial)
  | .text hvalue => by
      rw [page]
      exact hvalue.contained hwf hbound
  | .raw hvalue => by
      rw [page]
      exact Page.all_ofBit (hvalue.contained .raw hwf hbound (.inl rfl))
  | .multi hbody => by
      rw [page]
      exact hbody.contained hwf hbound
  | .subsection (t := t) hname htag hfound => by
      subst hname
      obtain ⟨rows, -, hstream, hrows⟩ := hbound.getStream_eq hwf htag
      have hchild := hwf.child (List.mem_of_getElem? htag)
      rw [page, ValueSet.rowsNamed, Binding.rowsNamed, hbound.schema_eq, hwf.subsection?_eq htag]
      dsimp only
      rw [hstream]
      refine Page.all_rows hrows fun row args hrow => ?_
      exact hfound.contained hchild (Schema.bound_of_bind hrow)
  | @Compiles.switch _ _ f depth cases default _ _ hcases hdefault => by
      rw [page]
      cases hchosen : casePage o depth cases vs args with
      | some chosen => exact hcases.contained hwf hbound hchosen
      | none => exact hdefault.contained hwf hbound

/-- Every bit of the pages of children is contained. -/
theorem ChildrenCompile.contained {f : Schema} {depth : ℕ} {contents : List Node}
    {found : List Piece} {vs : ValueSet} {args : List BindArg} (hwf : f.WellFormed)
    (hbound : vs.Bound f args) : ChildrenCompile o f depth contents found →
      (childPages o depth contents vs args).All (·.Contained o.indent)
  | .nil => Page.all_empty
  | .cons hchild hrest => (hchild.contained hwf hbound).append (hrest.contained hwf hbound)

/-- Every bit of the page of the case that is chosen is contained. -/
theorem CasesCompile.contained {f : Schema} {depth : ℕ} {cases : List (Condition × Option Node)}
    {programs : List (Condition × Option Program)} {vs : ValueSet} {args : List BindArg}
    (hwf : f.WellFormed) (hbound : vs.Bound f args) {chosen : Page} :
    CasesCompile o f depth cases programs → casePage o depth cases vs args = some chosen →
      chosen.All (·.Contained o.indent)
  | .cons houtput hrest, hchosen => by
      rw [casePage] at hchosen
      split at hchosen
      · cases hchosen
        exact houtput.contained hwf hbound
      · exact hrest.contained hwf hbound hchosen

/-- Every bit of the page of an alternative is contained. -/
theorem OutputCompiles.contained {f : Schema} {depth : ℕ} {output : Option Node}
    {program : Option Program} {vs : ValueSet} {args : List BindArg} (hwf : f.WellFormed)
    (hbound : vs.Bound f args) : OutputCompiles o f depth output program →
      (outputPage o depth output vs args).All (·.Contained o.indent)
  | .none => Page.all_empty
  | .some hfound => hfound.contained hwf hbound

end

/-- **What becomes of every untrusted string.** If a tree compiles and arguments are bound to
the template, then what is rendered is the page of the tree, and every bit of it that comes
from an untrusted string is that string without delimiters, where reflowing may add those of the
indentation, or else nothing was required of the string, it stands in an inert attribute, and
it is written as it is. -/
theorem untrusted_contained {node : Node} {scope : Scope} {t : Template} {next : ℕ}
    {args : List BindArg} {vs : ValueSet} (hwf : scope.schema.WellFormed)
    (hcompile : node.compile o scope = (.ok t, next)) (hbind : t.bind args = .ok vs) :
    (t.program.render vs).Shows (node.page o o.rootDepth vs args) ∧
      (node.page o o.rootDepth vs args).All (·.Contained o.indent) := by
  obtain ⟨hwf', -, found, hfound, -⟩ := compiles_of_compile hwf hcompile
  exact ⟨render_shows hwf hcompile hbind,
    hfound.contained hwf' (Schema.bound_of_bind hbind)⟩

end Node

end Contained

namespace Node

/-- The bits of `Node.profile` that come from untrusted strings are contained. -/
theorem untrusted_contained_profile : ∃ t next vs,
    profile.compile .tidy (.newRoot 1) = (.ok t, next) ∧
      t.bind (profileArgs "<jd>" "a b") = .ok vs ∧
      (t.program.render vs).Shows (profile.page .tidy 0 vs (profileArgs "<jd>" "a b")) ∧
      (profile.page .tidy 0 vs (profileArgs "<jd>" "a b")).All (·.Contained "  ") := by
  have hruns : profile.runs .tidy (profileArgs "<jd>" "a b") (fun _ _ => true) = true := by
    decide +kernel
  obtain ⟨t, next, vs, hcompile, hbind, -⟩ := exists_of_runs hruns
  have hroot : (Scope.newRoot 1).schema.WellFormed := Schema.wellFormed_of_empty rfl rfl
  exact ⟨t, next, vs, hcompile, hbind, untrusted_contained hroot hcompile hbind⟩

/-- A paragraph with an untrusted string in an inert attribute. -/
def inertAttribute : Node :=
  .element ⟨"p", [.ofName "data-x" (.concrete (.untrusted "<"))], .inline, false, false, none⟩ []

/-- The string in `inertAttribute` is a bit of its page as it is. -/
theorem mem_bits_inertAttribute (vs : ValueSet) :
    Bit.value (.attribute "data-x" .untrusted) (some (.untrusted "<", .untrusted)) "<" ∈
      (inertAttribute.page .compact 0 vs []).bits := by
  have hrequired : (Place.attribute "data-x" .untrusted).required = .untrusted := by
    decide +kernel
  have hbit : (Value.concrete (.untrusted "<")).bit (.attribute "data-x" .untrusted) vs [] =
      .value (.attribute "data-x" .untrusted) (some (.untrusted "<", .untrusted)) "<" := by
    rw [Value.bit, Value.source?, Value.content, hrequired, SafeString.check_untrusted]
    rfl
  rw [← hbit]
  simp [inertAttribute, page, childPages, Element.openingPage, Element.startPage,
    Element.breakPage, Element.isBlock, Element.isClosed, Attribute.lastOfEachName,
    Attribute.unseen, Attribute.page, Attribute.ofName, Attribute.place, LayoutOptions.compact,
    Page.append, Page.ofBit, Page.markup, Page.empty]

/-- The output for `inertAttribute` has the string unescaped. -/
theorem renderToString_inertAttribute : ∃ t next vs,
    inertAttribute.compile .compact (.newRoot 1) = (.ok t, next) ∧ t.bind [] = .ok vs ∧
      t.renderToString vs = .ok "<p data-x=\"<\"></p>" := by
  have hruns : inertAttribute.runs .compact [] (fun t vs =>
      decide (t.renderToString vs = .ok "<p data-x=\"<\"></p>")) = true := by
    decide +kernel
  obtain ⟨t, next, vs, hcompile, hbind, houtput⟩ := exists_of_runs hruns
  exact ⟨t, next, vs, hcompile, hbind, of_decide_eq_true houtput⟩

/-- **The exception does occur**: it is not the case that no delimiter of an untrusted string
reaches a page. One in an inert attribute does, as part of the string that is written. -/
theorem untrusted_verbatim :
    ¬ ∀ (node : Node) (o : LayoutOptions) (scope : Scope) (t : Template) (next : ℕ)
        (args : List BindArg) (vs : ValueSet), scope.schema.WellFormed →
      node.compile o scope = (.ok t, next) → t.bind args = .ok vs →
      ∀ (place : Place) (s : SafeString) (level : TrustLevel) (text : String),
        Bit.value place (some (s, level)) text ∈ (node.page o o.rootDepth vs args).bits →
        s.level = .untrusted → Text.delimiters text = [] := by
  intro hclaim
  obtain ⟨t, next, vs, hcompile, hbind, -⟩ := renderToString_inertAttribute
  have hroot : (Scope.newRoot 1).schema.WellFormed := Schema.wellFormed_of_empty rfl rfl
  have hnone := hclaim inertAttribute .compact (.newRoot 1) t next [] vs hroot hcompile hbind
    _ _ _ _ (mem_bits_inertAttribute vs) rfl
  exact absurd hnone (by decide)

end Node

end TrustedHtml
