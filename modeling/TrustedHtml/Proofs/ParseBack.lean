import TrustedHtml.Proofs.DirectEvaluation
import TrustedHtml.Proofs.Markup
import TrustedHtml.Proofs.Traversal
import TrustedHtml.Proofs.UntrustedText

/-!
# Reading a Page Back

If all strings of a page are untrusted, then its markup is unambiguous: a reader that knows
nothing of the tree finds the elements and attributes of the tree in the output, and the texts
that it finds between the tags are the strings that were given, before they were escaped.

What is to be found is `Node.events`, the tags and texts of a tree for a value set that
arguments have been bound to. The proof has two halves that meet there. Where nothing is inert
and nothing is reflowed, a tree evaluates to the written form of its events, because every
string that stands at a place is the encoding of another one; and `Markup.read` undoes writing.

## Main definitions

* `Node.events`: the tags and texts of a tree.
* `Leaf.IsReadable`: a string that is untrusted, escaped where it stands, and not reflowed.

## Main results

* `Node.Compiles.writes`: a tree evaluates to the written form of its events.
* `Node.read_renderToString`: **reading a page gives back the tree it was made from.**
-/

namespace TrustedHtml

open Markup

/-! ### What is asked of strings -/

/-- A value that is bound later, or an untrusted string. -/
def Value.IsUntrusted : Value → Prop
  | .concrete s => s.level = .untrusted
  | .deferred _ => True

/-- An argument that gives no string but an untrusted one. -/
def BindArg.IsUntrusted : BindArg → Prop
  | .scalar _ value _ => value.level = .untrusted
  | .rows .. => True

/-- A string or variable that can be read back: it holds untrusted strings only, at a place that
requires something, and is not reflowed. -/
def Leaf.IsReadable (o : LayoutOptions) : Leaf → Prop
  | .attribute a => a.value.IsUntrusted ∧ a.required ≠ .untrusted
  | .text value width => value.IsUntrusted ∧ width.getD o.textWidth = 0
  | .raw value => value.IsUntrusted

/-- What is accepted as a name can be told from what stands around it. -/
theorem SlotName.plain_of_checked {kind : NameKind} {name : String} {slot : SlotName}
    (h : checked kind name = .ok slot) : name ≠ "" ∧ name.toList.all isNameChar = true := by
  have htext := text_of_checked h
  refine ⟨htext ▸ slot.text_ne, ?_⟩
  rw [checked] at h
  split at h
  · split at h
    · assumption
    · cases h
  · cases h

/-- The name of an element that is not malformed is accepted. -/
theorem Element.checked_name {e : Element} {contents : List Node}
    (h : e.check contents = .ok ()) : ∃ slot, SlotName.checked .element e.name = .ok slot := by
  rw [check] at h
  split at h
  · cases h
  · obtain ⟨_, hname, -⟩ := Except.bind_eq_ok.mp h
    cases hchecked : SlotName.checked .element e.name with
    | ok slot => exact ⟨slot, rfl⟩
    | error error =>
        rw [hchecked] at hname
        cases hname

/-- The attributes that count are among those that were given. -/
theorem Attribute.mem_of_mem_lastOfEachName {a : Attribute} : ∀ {attributes : List Attribute},
    a ∈ lastOfEachName attributes → a ∈ attributes
  | first :: rest, h => by
      rw [lastOfEachName_cons] at h
      split at h
      · exact List.mem_cons_of_mem _ (mem_of_mem_lastOfEachName h)
      · obtain rfl | h := List.mem_cons.mp h
        · exact List.mem_cons_self
        · exact List.mem_cons_of_mem _ (mem_of_mem_lastOfEachName h)

/-! ### The events of a tree -/

section

variable [UrlReader]

namespace Value

/-- The text of a value as it was given, before any escaping; empty if none was given. -/
def original (place : Place) (s : Schema) (args : List BindArg) (value : Value) : String :=
  match value.source? place s args with
  | some (given, _) => given.text
  | none => ""

end Value

/-- The tag that opens an element, with the last attribute of each name and with values as they
were checked, entities replaced by what they stand for. -/
def Element.openingEvent (vs : ValueSet) (e : Element) : Event :=
  .opening e.name
    ((Attribute.lastOfEachName e.attributes).map fun a =>
      (a.name, Entity.decode (a.value.content a.place vs)))
    e.xmlSelfClosing

namespace Node

mutual

/-- **The tags and texts of a tree** for a value set that arguments have been bound to. -/
def events : Node → ValueSet → List BindArg → List Event
  | .element e contents, vs, args =>
      e.openingEvent vs ::
        if e.isClosed then [] else childEvents contents vs args ++ [.closing e.name]
  | .text value _, vs, args => [.text (value.original .text vs.schema args)]
  | .raw value, vs, args => [.text (value.original .raw vs.schema args)]
  | .multi _ contents, vs, args => childEvents contents vs args
  | .subsection name prototype, vs, args =>
      ((vs.rowsNamed name).zip (Binding.rowsNamed vs.schema name args)).flatMap
        fun row => events prototype row.1 row.2
  | .switch cases default, vs, args =>
      (caseEvents cases vs args).getD (outputEvents default vs args)

/-- The tags and texts of children. -/
def childEvents : List Node → ValueSet → List BindArg → List Event
  | [], _, _ => []
  | child :: rest, vs, args => events child vs args ++ childEvents rest vs args

/-- The tags and texts of the first case that holds, if one does. -/
def caseEvents : List (Condition × Option Node) → ValueSet → List BindArg → Option (List Event)
  | [], _, _ => none
  | (condition, output) :: rest, vs, args =>
      if condition vs then some (outputEvents output vs args) else caseEvents rest vs args

/-- The tags and texts of an alternative. -/
def outputEvents : Option Node → ValueSet → List BindArg → List Event
  | none, _, _ => []
  | some output, vs, args => events output vs args

end

end Node

end

/-! ### Writing events -/

/-- A result that is the written form of events which can be read back. -/
structure Markup.Writes (result : Except Overflow String) (events : List Event) : Prop where
  eq_ok : result = .ok (String.join (events.map Event.write))
  plain : ∀ event ∈ events, event.IsPlain

namespace Markup.Writes

variable {result result' : Except Overflow String} {events later : List Event}

/-- Nothing is written for no events. -/
theorem nil : Writes (.ok "") [] :=
  ⟨rfl, by simp⟩

/-- A single event. -/
theorem single {event : Event} (h : event.IsPlain) : Writes (.ok event.write) [event] := by
  refine ⟨?_, ?_⟩
  · rw [List.map_singleton, String.join_cons, String.join_nil, String.append_empty]
  · intro other hother
    rwa [List.mem_singleton.mp hother]

/-- A text is written as its encoding. -/
theorem text (content : String) : Writes (.ok (Entity.encode content)) [.text content] := by
  have hplain : (Event.text content).IsPlain := trivial
  exact single hplain

/-- Events one after the other are written one after the other. -/
theorem append (h : Writes result events) (hlater : Writes result' later) :
    Writes (do return (← result) ++ (← result')) (events ++ later) := by
  refine ⟨?_, ?_⟩
  · rw [h.eq_ok, hlater.eq_ok, List.map_append, String.join_append]
    rfl
  · intro event hevent
    obtain hevent | hevent := List.mem_append.mp hevent
    · exact h.plain event hevent
    · exact hlater.plain event hevent

/-- The events of rows are written one after the other. -/
theorem rows {rows : List ValueSet} {given : List (List BindArg)}
    {R : ValueSet → List BindArg → Prop} {evaluate : ValueSet → Except Overflow String}
    {events : ValueSet → List BindArg → List Event} (hrows : List.Forall₂ R rows given)
    (h : ∀ row args, R row args → args ∈ given → Writes (evaluate row) (events row args)) :
    Writes (do return String.join (← rows.mapM evaluate))
      ((rows.zip given).flatMap fun row => events row.1 row.2) := by
  induction hrows with
  | nil => exact nil
  | @cons row args rows given hrow hrest ih =>
      have hfirst := h row args hrow List.mem_cons_self
      have hlater := ih fun row args hrow hmem => h row args hrow (List.mem_cons_of_mem _ hmem)
      rw [List.zip_cons_cons, List.flatMap_cons, Page.join_mapM_cons]
      exact hfirst.append hlater

end Markup.Writes

/-- A closing tag evaluates to the written form of its event. -/
theorem Element.writes_closing {e : Element} {contents : List Node}
    (hcheck : e.check contents = .ok ()) : Writes (.ok s!"</{e.name}>") [.closing e.name] := by
  obtain ⟨slot, hname⟩ := e.checked_name hcheck
  have hwrite : s!"</{e.name}>" = (Event.closing e.name).write := by
    rw [← String.toList_inj, Event.write, String.toList_ofList, Event.chars]
    simp [toString]
  rw [hwrite]
  exact .single (SlotName.plain_of_checked hname).2

/-! ### Untrusted strings at their places -/

/-- **An untrusted string that meets a requirement is an encoding**: of the string itself in
a text, and of some form of the URL in an attribute that holds one. Nothing else can be met. -/
theorem SafeString.check_eq_encode [UrlReader] {s : SafeString} {level : TrustLevel}
    {checked : String} (hs : s.level = .untrusted) (hne : level ≠ .untrusted)
    (h : s.check level = .ok checked) :
    (level = .textSafe ∧ checked = Entity.encode s.text) ∨
      (level = .urlSafe ∧ ∃ url, checked = Entity.encode url) := by
  obtain ⟨_, given⟩ := s
  obtain rfl : _ = TrustLevel.untrusted := hs
  have hunmet : ¬(⟨.untrusted, given⟩ : SafeString).satisfies level = true :=
    fun hmet => hne ((satisfies_untrusted_iff given level).mp hmet)
  rw [check, if_neg hunmet, if_pos rfl] at h
  cases level with
  | untrusted => exact absurd rfl hne
  | textSafe =>
      cases h
      exact .inl ⟨rfl, rfl⟩
  | urlSafe =>
      refine .inr ⟨rfl, ?_⟩
      rw [Escape.forLevel, Escape.url] at h
      split at h
      · split at h
        · cases h
          exact ⟨_, rfl⟩
        · cases h
      · split at h
        · cases h
          exact ⟨_, rfl⟩
        · cases h
      · cases h
  | htmlSafe => cases h
  | attributeSafe => cases h
  | fullyTrusted => cases h

section

variable [UrlReader] {o : LayoutOptions} {f : Schema} {vs : ValueSet} {args : List BindArg}

/-- What a variable holds is the encoding of a text, if all strings are untrusted and its slot
requires something; it is the text that was given if a text or a fragment is required. -/
theorem ValueSet.Bound.valueAt_eq_encode (hbound : vs.Bound f args) (hwf : f.WellFormed)
    (hargs : BindArg.AllEverywhere BindArg.IsUntrusted args) {v w : Var} {place : Place}
    {level : TrustLevel} (hoffer : f.Offers w v.name level) (hle : place.required ≤ level)
    (hne : place.required ≠ .untrusted) :
    ∃ text, vs.valueAt w.index = Entity.encode text ∧
      (place.required = .textSafe ∨ place.required = .htmlSafe →
        text = (Value.deferred v).original place vs.schema args) := by
  rw [Value.original, Value.source?]
  cases hsource : Binding.source? vs.schema v.name.text args with
  | none =>
      refine ⟨"", ?_, fun _ => rfl⟩
      obtain ⟨slot, hfind, hindex, -⟩ := hoffer.scalar?_eq hwf
      rw [Binding.source?, hbound.schema_eq, hfind, Option.map_eq_none_iff, hindex] at hsource
      exact hbound.unset hsource
  | some source =>
      obtain ⟨given, checked⟩ := source
      obtain ⟨hlevel, hcheck⟩ := hbound.check_source hwf hoffer hsource
      have hchecked : checked ≠ .untrusted := fun heq =>
        hne (TrustLevel.eq_untrusted_of_le (heq ▸ hle.trans hlevel))
      have hgiven : given.level = .untrusted := by
        rw [Binding.source?, hbound.schema_eq] at hsource
        split at hsource
        · obtain ⟨⟨value, extra⟩, hlast, heq⟩ := Option.map_eq_some_iff.mp hsource
          cases heq
          obtain ⟨key, hmem⟩ := Binding.mem_of_lastScalar?_eq hlast
          exact hargs.of_mem hmem
        · cases hsource
      obtain ⟨rfl, hencode⟩ | ⟨rfl, url, hencode⟩ :=
        SafeString.check_eq_encode hgiven hchecked hcheck
      · exact ⟨given.text, hencode, fun _ => rfl⟩
      · refine ⟨url, hencode, fun hplace => ?_⟩
        obtain heq | heq | heq := TrustLevel.le_iff.mp (hle.trans hlevel)
        · rw [heq] at hplace
          obtain hplace | hplace := hplace <;> cases hplace
        · exact absurd heq hne
        · cases heq

/-- **What stands at a place is an encoding**, if all strings are untrusted and the place
requires something; it is that of the text that was given where a text or a fragment is
required. -/
theorem Value.Compiles.content_eq_encode (place : Place) {value : Value} {piece : Piece}
    (hwf : f.WellFormed) (hbound : vs.Bound f args)
    (hargs : BindArg.AllEverywhere BindArg.IsUntrusted args) (hvalue : value.IsUntrusted)
    (hne : place.required ≠ .untrusted) (h : value.Compiles f place.required piece) :
    ∃ text, value.content place vs = Entity.encode text ∧
      (place.required = .textSafe ∨ place.required = .htmlSafe →
        text = value.original place vs.schema args) := by
  cases h with
  | @concrete s checked hcheck =>
      have hcontent : (Value.concrete s).content place vs = checked := by
        rw [Value.content, hcheck]
        rfl
      rw [hcontent]
      obtain ⟨-, hencode⟩ | ⟨hlevel, url, hencode⟩ :=
        SafeString.check_eq_encode hvalue hne hcheck
      · exact ⟨s.text, hencode, fun _ => rfl⟩
      · refine ⟨url, hencode, fun hplace => ?_⟩
        rw [hlevel] at hplace
        obtain hplace | hplace := hplace <;> cases hplace
  | @deferred v w hoffer =>
      have hcontent : (Value.deferred v).content place vs = vs.valueAt w.index := by
        rw [Value.content, hbound.scalarByName_eq hwf hoffer]
        rfl
      rw [hcontent]
      exact hbound.valueAt_eq_encode hwf hargs hoffer le_sup_right hne

/-- What stands at the place of a text or of a fragment is the encoding of what was given. -/
theorem Value.Compiles.content_eq_encode_original (place : Place) {value : Value} {piece : Piece}
    (hwf : f.WellFormed) (hbound : vs.Bound f args)
    (hargs : BindArg.AllEverywhere BindArg.IsUntrusted args) (hvalue : value.IsUntrusted)
    (hplace : place.required = .textSafe ∨ place.required = .htmlSafe)
    (h : value.Compiles f place.required piece) :
    value.content place vs = Entity.encode (value.original place vs.schema args) := by
  have hne : place.required ≠ .untrusted := by
    intro heq
    rw [heq] at hplace
    obtain hplace | hplace := hplace <;> cases hplace
  obtain ⟨text, hencode, horiginal⟩ := h.content_eq_encode place hwf hbound hargs hvalue hne
  rw [hencode, horiginal hplace]

/-- An attribute evaluates to the written form of its name and of its value without entities. -/
theorem Attribute.Compiles.evaluate_eq {a : Attribute} {found : List Piece} (hwf : f.WellFormed)
    (hbound : vs.Bound f args) (hargs : BindArg.AllEverywhere BindArg.IsUntrusted args)
    (hreadable : (Leaf.attribute a).IsReadable o) (h : a.Compiles f found) :
    (a.evaluate vs).toList = attributeChars (a.name, Entity.decode (a.value.content a.place vs)) ∧
      a.name.toList.all isNameChar = true := by
  obtain ⟨hname, hvalue⟩ := h
  refine ⟨?_, (SlotName.plain_of_checked hname).2⟩
  obtain ⟨text, hencode, -⟩ :=
    Value.Compiles.content_eq_encode a.place hwf hbound hargs hreadable.1 hreadable.2 hvalue
  rw [evaluate, attributeChars, hencode, Entity.decode_encode]
  simp [Entity.encode, toString]

/-- Attributes evaluate to the written form of their names and values. -/
theorem Attribute.evaluate_eq_of_forall₂ {attributes : List Attribute} {each : List (List Piece)}
    (hwf : f.WellFormed) (hbound : vs.Bound f args)
    (hargs : BindArg.AllEverywhere BindArg.IsUntrusted args)
    (hreadable : ∀ a ∈ attributes, (Leaf.attribute a).IsReadable o)
    (h : List.Forall₂ (Attribute.Compiles f) attributes each) :
    (String.join (attributes.map (·.evaluate vs))).toList =
        (attributes.map fun a => (a.name, Entity.decode (a.value.content a.place vs))).flatMap
          attributeChars ∧
      ∀ a ∈ attributes, a.name.toList.all isNameChar = true := by
  induction h with
  | nil => exact ⟨rfl, by simp⟩
  | cons hattribute _ ih =>
      obtain ⟨hfirst, hname⟩ :=
        hattribute.evaluate_eq hwf hbound hargs (hreadable _ List.mem_cons_self)
      obtain ⟨hlater, hnames⟩ := ih fun a ha => hreadable a (List.mem_cons_of_mem _ ha)
      refine ⟨?_, List.forall_mem_cons.mpr ⟨hname, hnames⟩⟩
      rw [List.map_cons, List.map_cons, String.join_cons, String.toList_append, hfirst, hlater,
        List.flatMap_cons]

/-- An opening tag evaluates to the written form of its event. -/
theorem Element.OpeningCompiles.writes {e : Element} {contents : List Node} {opening : List Piece}
    (hwf : f.WellFormed) (hbound : vs.Bound f args)
    (hargs : BindArg.AllEverywhere BindArg.IsUntrusted args)
    (hreadable : ∀ a ∈ e.attributes, (Leaf.attribute a).IsReadable o)
    (hcheck : e.check contents = .ok ()) (h : e.OpeningCompiles f opening) :
    Writes (.ok (e.evaluate vs)) [e.openingEvent vs] := by
  obtain ⟨hattributes⟩ := h
  obtain ⟨slot, hname⟩ := e.checked_name hcheck
  obtain ⟨hne, hplain⟩ := SlotName.plain_of_checked hname
  obtain ⟨hjoin, hnames⟩ := Attribute.evaluate_eq_of_forall₂ hwf hbound hargs
    (fun a ha => hreadable a (Attribute.mem_of_mem_lastOfEachName ha)) hattributes
  have hwrite : e.evaluate vs = (e.openingEvent vs).write := by
    rw [← String.toList_inj, Event.write, String.toList_ofList, openingEvent, Event.chars,
      openingChars, evaluate, String.toList_append, String.toList_append, hjoin]
    cases e.xmlSelfClosing <;> simp [toString]
  rw [hwrite]
  refine .single ⟨hne, hplain, fun a ha => ?_⟩
  obtain ⟨given, hmem, rfl⟩ := List.mem_map.mp ha
  exact hnames given hmem

/-! ### Trees -/

namespace Node

mutual

/-- **A tree evaluates to the written form of its events**, if everything in it can be read
back. -/
theorem Compiles.writes {f : Schema} {depth : ℕ} {node : Node} {found : List Piece}
    {vs : ValueSet} {args : List BindArg} (hwf : f.WellFormed) (hbound : vs.Bound f args)
    (hargs : BindArg.AllEverywhere BindArg.IsUntrusted args)
    (hreadable : ∀ leaf ∈ node.leaves, leaf.IsReadable o) : node.Compiles o f depth found →
      Writes (node.evaluate o vs) (node.events vs args)
  | @Compiles.closed _ _ _ _ e contents _ hcheck hclosed hopening => by
      rw [leaves, List.forall_mem_append, List.forall_mem_map] at hreadable
      rw [evaluate, events, if_pos hclosed, if_pos hclosed]
      exact hopening.writes hwf hbound hargs hreadable.1 hcheck
  | @Compiles.paired _ _ _ _ e contents _ _ hcheck hclosed hopening hbody => by
      rw [leaves, List.forall_mem_append, List.forall_mem_map] at hreadable
      have hwhole := (hopening.writes hwf hbound hargs hreadable.1 hcheck).append
        ((hbody.writes hwf hbound hargs hreadable.2).append (e.writes_closing hcheck))
      have hopen : ¬e.isClosed = true := by simp [hclosed]
      rw [evaluate, events, if_neg hopen, if_neg hopen]
      refine ⟨?_, hwhole.plain⟩
      rw [← List.singleton_append, ← hwhole.eq_ok]
      cases evaluateChildren o contents vs with
      | ok body => exact congrArg Except.ok (String.append_assoc ..)
      | error overflow => rfl
  | .text hvalue => by
      rw [leaves, List.forall_mem_singleton] at hreadable
      obtain ⟨unwrapped, hcompiles⟩ := hvalue.compiles
      rw [evaluate, events, Reflow.apply_of_width_eq_zero hreadable.2,
        hcompiles.content_eq_encode_original .text hwf hbound hargs hreadable.1 (.inl rfl)]
      exact .text _
  | .raw hvalue => by
      rw [leaves, List.forall_mem_singleton] at hreadable
      rw [evaluate, events,
        hvalue.content_eq_encode_original .raw hwf hbound hargs hreadable (.inr rfl)]
      exact .text _
  | .multi hbody => by
      rw [leaves] at hreadable
      rw [evaluate, events]
      exact hbody.writes hwf hbound hargs hreadable
  | .subsection (t := t) hname htag hfound => by
      subst hname
      obtain ⟨rows, -, hstream, hrows⟩ := hbound.getStream_eq hwf htag
      have hchild := hwf.child (List.mem_of_getElem? htag)
      rw [leaves] at hreadable
      rw [evaluate, events, ValueSet.rowsNamed, Binding.rowsNamed, hbound.schema_eq,
        hwf.subsection?_eq htag]
      dsimp only
      rw [hstream]
      refine .rows hrows fun row given hrow hmem => ?_
      exact hfound.writes hchild (Schema.bound_of_bind hrow)
        (Binding.everywhere_lastRows hargs given hmem) hreadable
  | .switch hcases hdefault => by
      rw [leaves, List.forall_mem_append] at hreadable
      rw [evaluate, events]
      exact getD_of_rel (hcases.writes hwf hbound hargs hreadable.1)
        fun _ => hdefault.writes hwf hbound hargs hreadable.2

/-- Children evaluate to the written form of their events. -/
theorem ChildrenCompile.writes {f : Schema} {depth : ℕ} {contents : List Node}
    {found : List Piece} {vs : ValueSet} {args : List BindArg} (hwf : f.WellFormed)
    (hbound : vs.Bound f args) (hargs : BindArg.AllEverywhere BindArg.IsUntrusted args)
    (hreadable : ∀ leaf ∈ childLeaves contents, leaf.IsReadable o) :
    ChildrenCompile o f depth contents found →
      Writes (evaluateChildren o contents vs) (childEvents contents vs args)
  | .nil => .nil
  | .cons hchild hrest => by
      rw [childLeaves, List.forall_mem_append] at hreadable
      exact (hchild.writes hwf hbound hargs hreadable.1).append
        (hrest.writes hwf hbound hargs hreadable.2)

/-- The case that is chosen evaluates to the written form of its events. -/
theorem CasesCompile.writes {f : Schema} {depth : ℕ} {cases : List (Condition × Option Node)}
    {programs : List (Condition × Option Program)} {vs : ValueSet} {args : List BindArg}
    (hwf : f.WellFormed) (hbound : vs.Bound f args)
    (hargs : BindArg.AllEverywhere BindArg.IsUntrusted args)
    (hreadable : ∀ leaf ∈ caseLeaves cases, leaf.IsReadable o) :
    CasesCompile o f depth cases programs →
      Option.Rel Writes (evaluateCases o cases vs) (caseEvents cases vs args)
  | .nil => .none
  | @CasesCompile.cons _ _ _ _ condition _ _ _ _ houtput hrest => by
      rw [caseLeaves, List.forall_mem_append] at hreadable
      rw [evaluateCases, caseEvents]
      by_cases hholds : condition vs
      · rw [if_pos hholds, if_pos hholds]
        exact .some (houtput.writes hwf hbound hargs hreadable.1)
      · rw [if_neg hholds, if_neg hholds]
        exact hrest.writes hwf hbound hargs hreadable.2

/-- An alternative evaluates to the written form of its events. -/
theorem OutputCompiles.writes {f : Schema} {depth : ℕ} {output : Option Node}
    {program : Option Program} {vs : ValueSet} {args : List BindArg} (hwf : f.WellFormed)
    (hbound : vs.Bound f args) (hargs : BindArg.AllEverywhere BindArg.IsUntrusted args)
    (hreadable : ∀ leaf ∈ outputLeaves output, leaf.IsReadable o) :
    OutputCompiles o f depth output program →
      Writes (evaluateOutput o output vs) (outputEvents output vs args)
  | .none => .nil
  | .some hfound => hfound.writes hwf hbound hargs hreadable

end

/-- **Reading a page gives back the tree it was made from.** In the compact layout, if no text
is reflowed, all strings of the tree and all strings that are bound are untrusted, and no
attribute is without a requirement, then binding is followed by a rendering that succeeds, and
a plain reader finds in it the tags and texts of the tree, in order: each element with the
attributes that count and their values, and between the tags the strings as they were given,
where texts that follow each other run together and empty ones cannot be seen. -/
theorem read_renderToString {node : Node} {scope : Scope} {t : Template} {next : ℕ}
    (hcompact : o.isCompact = true) (hwf : scope.schema.WellFormed)
    (hreadable : ∀ leaf ∈ node.leaves, leaf.IsReadable o)
    (hargs : BindArg.AllEverywhere BindArg.IsUntrusted args)
    (hcompile : node.compile o scope = (.ok t, next)) (hbind : t.bind args = .ok vs) :
    ∃ output, t.renderToString vs = .ok output ∧
      Markup.read output = some (Markup.merge (node.events vs args)) := by
  obtain ⟨hwf', -, found, hfound, -⟩ := compiles_of_compile hwf hcompile
  have hbound := Schema.bound_of_bind hbind
  have hwrites := hfound.writes hwf' hbound hargs hreadable
  have hevaluates := page_evaluates hcompact ⟨_, hwf', hbound⟩ node
  refine ⟨_, ?_, read_write hwrites.plain⟩
  rw [renderToString_of_evaluates hwf hcompile hbind hevaluates, hwrites.eq_ok]
  rfl

end Node

end

/-- A paragraph with an attribute that quotes, texts next to each other, a line break written
with a slash, and a text that is repeated for rows. -/
def Node.quotation : Node :=
  .element ⟨"p", [.data "note" (.concrete (.untrusted "\">")) .textSafe], .block, false, false,
      none⟩
    [.text profileUser none, .text (.concrete (.untrusted " & ")) none,
      .element ⟨"br", [], .inline, true, true, none⟩ [],
      .subsection "skills" (.text profileSkill none)]

/-- Everything in `Node.quotation` can be read back. -/
theorem Node.quotation_isReadable :
    ∀ leaf ∈ quotation.leaves, leaf.IsReadable .compact := by
  have hrequired : (Attribute.data "note" (.concrete (.untrusted "\">")) .textSafe).required =
      .textSafe := by
    decide +kernel
  have hleaves : quotation.leaves =
      [.attribute (.data "note" (.concrete (.untrusted "\">")) .textSafe),
        .text profileUser none, .text (.concrete (.untrusted " & ")) none,
        .text profileSkill none] := rfl
  rw [hleaves]
  simp only [List.forall_mem_cons, Leaf.IsReadable, hrequired]
  exact ⟨⟨rfl, nofun⟩, ⟨trivial, rfl⟩, ⟨rfl, rfl⟩, ⟨trivial, rfl⟩, by simp⟩

/-- The output for `Node.quotation`, read back. -/
theorem Node.read_renderToString_quotation : ∃ t next vs output,
    quotation.compile .compact (.newRoot 1) = (.ok t, next) ∧
      t.bind (profileArgs "<jd>" "'a'") = .ok vs ∧ t.renderToString vs = .ok output ∧
      Markup.read output = some [.opening "p" [("data-note", "\">")] false, .text "<jd> & ",
        .opening "br" [] true, .text "'a'", .closing "p"] := by
  have hruns : quotation.runs .compact (profileArgs "<jd>" "'a'") (fun _ vs =>
      decide (Markup.merge (quotation.events vs (profileArgs "<jd>" "'a'")) =
        [.opening "p" [("data-note", "\">")] false, .text "<jd> & ", .opening "br" [] true,
          .text "'a'", .closing "p"])) = true := by
    decide +kernel
  obtain ⟨t, next, vs, hcompile, hbind, hevents⟩ := exists_of_runs hruns
  have hroot : (Scope.newRoot 1).schema.WellFormed := Schema.wellFormed_of_empty rfl rfl
  have hargs : BindArg.AllEverywhere BindArg.IsUntrusted (profileArgs "<jd>" "'a'") :=
    ⟨rfl, ⟨trivial, ⟨⟨rfl, trivial⟩, trivial, trivial⟩⟩, trivial⟩
  obtain ⟨output, houtput, hread⟩ :=
    read_renderToString rfl hroot quotation_isReadable hargs hcompile hbind
  rw [of_decide_eq_true hevents] at hread
  exact ⟨t, next, vs, output, hcompile, hbind, houtput, hread⟩

end TrustedHtml
