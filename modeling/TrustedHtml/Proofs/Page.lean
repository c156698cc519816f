import TrustedHtml.Proofs.Assembly
import TrustedHtml.Proofs.Bound
import TrustedHtml.Proofs.Compiled
import TrustedHtml.Template.Render

/-!
# Pages

What a tree stands for, without compiling it: `Node.page` goes through a tree with a value set
and lists the bits of text that make up the page, in order. Where a bit comes from is kept, as
markup or as a value at a place with the string that was bound, so that one can ask what has
become of a string. Names are looked up in the value set, and rows by the name of their
subsection; neither handles nor chunks occur.

`Rendering.Shows r page` says that the writes of a rendering are the bits of a page, put
together in whatever way, and that it ended early exactly where the page does. Assembling
preserves it: a piece that is shown as a page is shown behind the page so far.

## Main definitions

* `Bit`, `Page` — texts with their origin.
* `Node.page` — the page of a tree.
* `Rendering.Shows` — a rendering is a page.

## Main results

* `Piece.AllShow.assemble`: **an assembled program shows the pages of its pieces**, one after
  the other.
-/

namespace TrustedHtml

/-! ### Pages -/

/-- A part of a page. -/
inductive Bit where
  | markup (text : String)
  /-- A line break and indentation, unless the output stands on a fresh line. -/
  | freshLine (text : String)
  /-- A value at a place, with the string it comes from and the level that was checked at, if
  there is a string. -/
  | value (place : Place) (source : Option (SafeString × TrustLevel)) (text : String)

/-- What is written for a part of a page. -/
inductive Bit.Shows : Bit → String → Prop
  | markup {text : String} : (markup text).Shows text
  | freshLine {text : String} : (freshLine text).Shows text
  | onFreshLine {text : String} : (freshLine text).Shows ""
  | value {place : Place} {source : Option (SafeString × TrustLevel)} {text : String} :
      (value place source text).Shows text

/-- Parts in order, and the overflow that ended them, if there was one. -/
structure Page where
  bits : List Bit
  stopped : Option Overflow

namespace Page

/-- Nothing. -/
def empty : Page := ⟨[], none⟩

/-- A single part. -/
def ofBit (bit : Bit) : Page := ⟨[bit], none⟩

/-- Markup. -/
def markup (text : String) : Page := ofBit (.markup text)

/-- One page after the other; nothing comes after one that ended early. -/
def append (a b : Page) : Page :=
  match a.stopped with
  | some _ => a
  | none => ⟨a.bits ++ b.bits, b.stopped⟩

/-- What is written for a page. -/
def Shows (page : Page) (text : String) : Prop :=
  ∃ parts, List.Forall₂ Bit.Shows page.bits parts ∧ text = String.join parts

variable {a b c : Page} {bit : Bit} {s t : String}

@[simp] theorem empty_append (a : Page) : empty.append a = a := rfl

@[simp] theorem append_empty (a : Page) : a.append empty = a := by
  obtain ⟨bits, _ | o⟩ := a
  · simp [append, empty]
  · rfl

/-- Appending is associative. -/
theorem append_assoc (a b c : Page) : (a.append b).append c = a.append (b.append c) := by
  obtain ⟨bits, _ | o⟩ := a
  · obtain ⟨bits', _ | o'⟩ := b
    · simp [append]
    · rfl
  · rfl

/-- Pages one after the other are written one after the other. -/
theorem Shows.append (ha : a.Shows s) (hstopped : a.stopped = none) (hb : b.Shows t) :
    (a.append b).Shows (s ++ t) := by
  obtain ⟨parts, hparts, rfl⟩ := ha
  obtain ⟨later, hlater, rfl⟩ := hb
  refine ⟨parts ++ later, ?_, String.join_append.symm⟩
  rw [Page.append, hstopped]
  exact List.rel_append hparts hlater

/-- What is written for two pages is written for the first and then for the second. -/
theorem Shows.of_append (h : (a.append b).Shows t)
    (hstopped : a.stopped = none) : ∃ s s', a.Shows s ∧ b.Shows s' ∧ t = s ++ s' := by
  obtain ⟨bits, stopped⟩ := a
  obtain rfl : stopped = none := hstopped
  obtain ⟨parts, hparts, rfl⟩ := h
  induction bits generalizing parts with
  | nil => exact ⟨"", String.join parts, ⟨[], .nil, rfl⟩, ⟨parts, hparts, rfl⟩, by simp⟩
  | cons bit bits ih =>
      cases hparts with
      | @cons _ part _ rest hbit hrest =>
          obtain ⟨s, s', ⟨shown, hshown, rfl⟩, hb, hjoin⟩ := ih rest hrest
          refine ⟨part ++ String.join shown, s', ⟨part :: shown, .cons hbit hshown, ?_⟩, hb, ?_⟩
          · rw [String.join_cons]
          · rw [String.join_cons, hjoin, String.append_assoc]

/-- A single part is written as such. -/
theorem shows_ofBit (h : bit.Shows t) : (ofBit bit).Shows t :=
  ⟨[t], .cons h .nil, by simp⟩

end Page

/-! ### The page of a tree -/

/-- The last string that arguments give for a name, and the level that it is checked at. -/
def Binding.source? (s : Schema) (name : String) (args : List BindArg) :
    Option (SafeString × TrustLevel) :=
  match s.scalar? name with
  | some slot =>
      (lastScalar? s slot.index args).map fun (value, extra) => (value, slot.level ⊔ extra)
  | none => none

/-- The last rows that arguments give for the subsection of a name. -/
def Binding.rowsNamed (s : Schema) (name : String) (args : List BindArg) :
    List (List BindArg) :=
  match s.subsection? name with
  | some t => lastRows s t.index args
  | none => []

/-- The rows of the subsection of a name. -/
def ValueSet.rowsNamed (vs : ValueSet) (name : String) : List ValueSet :=
  match vs.schema.subsection? name with
  | some t => (vs.streamAt t.index).rows
  | none => []

/-- The string that a value comes from, and the level that it is checked at. -/
def Value.source? (place : Place) (s : Schema) (args : List BindArg) :
    Value → Option (SafeString × TrustLevel)
  | .concrete value => some (value, place.required)
  | .deferred v => Binding.source? s v.name.text args

/-- The page in front of an element. -/
def Element.startPage (o : LayoutOptions) (depth : ℕ) (e : Element) : Page :=
  if e.isBlock o then .ofBit (.freshLine (o.lineBreak depth)) else .empty

/-- The page that begins a line within an element. -/
def Element.breakPage (o : LayoutOptions) (depth : ℕ) (e : Element) : Page :=
  if e.isBlock o then .markup (o.lineBreak depth) else .empty

section Trees

variable [UrlReader]

/-- A value set that arguments have been bound to, for some well-formed schema. -/
def ValueSet.BoundTo (args : List BindArg) (vs : ValueSet) : Prop :=
  ∃ f : Schema, f.WellFormed ∧ vs.Bound f args

/-- The rows of a subsection are bound to the rows of arguments for it. -/
theorem ValueSet.BoundTo.rowsNamed {vs : ValueSet} {args : List BindArg} (h : vs.BoundTo args)
    (name : String) :
    List.Forall₂ (fun row args => row.BoundTo args) (vs.rowsNamed name)
      (Binding.rowsNamed vs.schema name args) := by
  obtain ⟨f, hwf, hbound⟩ := h
  rw [ValueSet.rowsNamed, Binding.rowsNamed, hbound.schema_eq]
  cases hfind : f.subsection? name with
  | none => exact .nil
  | some t =>
      obtain ⟨d, hsub, -⟩ := hwf.of_subsection?_eq hfind
      obtain ⟨rows, -, hstream, hrows⟩ := hbound.getStream_eq hwf hsub
      dsimp only
      rw [hstream]
      have hchild := hwf.child (List.mem_of_getElem? hsub)
      exact hrows.imp fun row args hrow => ⟨d, hchild, Schema.bound_of_bind hrow⟩

namespace Value

/-- The text of a value at a place, before it is reflowed. -/
def content (place : Place) (vs : ValueSet) : Value → String
  | .concrete s => (s.check place.required).toOption.getD ""
  | .deferred v => (vs.scalarByName v.name.text).getD ""

/-- A value as a part of a page. -/
def bit (place : Place) (vs : ValueSet) (args : List BindArg) (value : Value) : Bit :=
  .value place (value.source? place vs.schema args) (value.content place vs)

/-- A text as a page of its own, reflowed. -/
def textPage (r : Reflow) (vs : ValueSet) (args : List BindArg) (value : Value) : Page :=
  match r.apply (value.content .text vs) with
  | .ok text => .ofBit (.value .text (value.source? .text vs.schema args) text)
  | .error e => ⟨[], some e⟩

end Value

/-- The page of an attribute. -/
def Attribute.page (vs : ValueSet) (args : List BindArg) (a : Attribute) : Page :=
  (Page.markup s!" {a.name}=\"").append
    ((Page.ofBit (a.value.bit a.place vs args)).append (.markup "\""))

/-- The page of an opening tag. -/
def Element.openingPage (vs : ValueSet) (args : List BindArg) (e : Element) : Page :=
  ((Page.markup s!"<{e.name}").append
    ((Attribute.lastOfEachName e.attributes).foldr (fun a later => (a.page vs args).append later)
      .empty)).append (.markup (if e.xmlSelfClosing then "/>" else ">"))

namespace Node

mutual

/-- **The page of a tree** for a value set that arguments have been bound to. -/
def page (o : LayoutOptions) (depth : ℕ) : Node → ValueSet → List BindArg → Page
  | .element e contents, vs, args =>
      let inner := e.innerDepth o depth
      let opening := (e.startPage o depth).append (e.openingPage vs args)
      if e.isClosed then opening
      else
        ((((opening.append (e.breakPage o inner)).append
          (childPages o inner contents vs args)).append (e.breakPage o depth)).append
            (.markup s!"</{e.name}>"))
  | .text value width, vs, args => value.textPage (o.reflow depth width) vs args
  | .raw value, vs, args => .ofBit (value.bit .raw vs args)
  | .multi _ contents, vs, args => childPages o depth contents vs args
  | .subsection name prototype, vs, args =>
      ((vs.rowsNamed name).zip (Binding.rowsNamed vs.schema name args)).foldr
        (fun row later => (page o depth prototype row.1 row.2).append later) .empty
  | .switch cases default, vs, args =>
      (casePage o depth cases vs args).getD (outputPage o depth default vs args)

/-- The pages of children, one after the other. -/
def childPages (o : LayoutOptions) (depth : ℕ) : List Node → ValueSet → List BindArg → Page
  | [], _, _ => .empty
  | child :: rest, vs, args =>
      (page o depth child vs args).append (childPages o depth rest vs args)

/-- The page of the first case that holds, if one does. -/
def casePage (o : LayoutOptions) (depth : ℕ) :
    List (Condition × Option Node) → ValueSet → List BindArg → Option Page
  | [], _, _ => none
  | (condition, output) :: rest, vs, args =>
      if condition vs then some (outputPage o depth output vs args)
      else casePage o depth rest vs args

/-- The page of an alternative. -/
def outputPage (o : LayoutOptions) (depth : ℕ) : Option Node → ValueSet → List BindArg → Page
  | none, _, _ => .empty
  | some output, vs, args => page o depth output vs args

end

end Node

end Trees

/-- What holds of alternatives, and of the defaults if there are none, holds of what is chosen. -/
theorem getD_of_rel {α β : Type} {R : α → β → Prop} {a : Option α} {b : Option β} {x : α}
    {y : β} (h : Option.Rel R a b) (hdefault : a = none → R x y) : R (a.getD x) (b.getD y) := by
  cases h with
  | some hchosen => exact hchosen
  | none => exact hdefault rfl

/-! ### Renderings of pages -/

namespace Rendering

/-- What a rendering writes. -/
def text (r : Rendering) : String :=
  String.join (r.writes.map (·.text))

/-- Nothing is lost or moved when renderings are put together in another order. -/
theorem append_assoc (a b c : Rendering) : (a.append b).append c = a.append (b.append c) := by
  obtain ⟨writes, _ | e⟩ := a
  · obtain ⟨writes', _ | e'⟩ := b
    · simp [append]
    · rfl
  · rfl

/-- A rendering that writes a page and ends where it does. -/
structure Shows (r : Rendering) (page : Page) : Prop where
  stopped : r.stopped = page.stopped.map .overflow
  text : page.Shows r.text

variable {r r' : Rendering} {page later : Page} {bit : Bit} {w : Write} {s t : String}

/-- No writes are an empty page. -/
theorem shows_empty : empty.Shows .empty :=
  ⟨rfl, [], .nil, rfl⟩

/-- No writes are a bit that needs none. -/
theorem shows_silence (h : bit.Shows "") : empty.Shows (.ofBit bit) :=
  ⟨rfl, [""], .cons h .nil, rfl⟩

/-- A write is the bit that is written so. -/
theorem shows_write (h : bit.Shows t) : (write t).Shows (.ofBit bit) :=
  ⟨rfl, [t], .cons h .nil, rfl⟩

/-- An overflow ends a page. -/
theorem shows_stop (o : Overflow) : (stop (.overflow o)).Shows ⟨[], some o⟩ :=
  ⟨rfl, [], .nil, rfl⟩

/-- Where writes come from makes no difference to what is written. -/
theorem text_within (step : Step) (r : Rendering) : (r.within step).text = r.text := by
  rw [Rendering.text, Rendering.within, List.map_map]
  rfl

/-- Writes are written one after the other. -/
theorem text_append_writes (writes later : List Write) (e e' : Option Abort) :
    (⟨writes ++ later, e⟩ : Rendering).text =
      (⟨writes, e'⟩ : Rendering).text ++ String.join (later.map (·.text)) := by
  rw [Rendering.text, List.map_append, String.join_append]
  rfl

/-- Where a rendering comes from makes no difference. -/
theorem Shows.within (h : r.Shows page) (step : Step) : (r.within step).Shows page := by
  refine ⟨?_, ?_⟩
  · rw [Rendering.within, h.stopped]
    cases page.stopped <;> rfl
  · rw [text_within]
    exact h.text

/-- Renderings one after the other are pages one after the other. -/
theorem Shows.append (h : r.Shows page) (hlater : r'.Shows later) :
    (r.append r').Shows (page.append later) := by
  obtain ⟨writes, stopped⟩ := r
  obtain ⟨bits, _ | o⟩ := page
  · obtain rfl : stopped = none := h.stopped
    refine ⟨hlater.stopped, ?_⟩
    rw [Rendering.append, text_append_writes _ _ _ none]
    exact h.text.append rfl hlater.text
  · obtain rfl : stopped = some (.overflow o) := h.stopped
    exact h

/-- Text that is added to the last write is a further bit. -/
theorem Shows.extend (h : (r.append ⟨[w], none⟩).Shows page) (hbit : bit.Shows t) {w' : Write}
    (hw : w'.text = w.text ++ t) : (r.append ⟨[w'], none⟩).Shows (page.append (.ofBit bit)) := by
  obtain ⟨writes, _ | e⟩ := r
  · obtain ⟨bits, _ | o⟩ := page
    · have htext : (⟨writes ++ [w'], none⟩ : Rendering).text =
          (⟨writes ++ [w], none⟩ : Rendering).text ++ t := by
        simp [text_append_writes _ _ none none, hw, String.append_assoc]
      refine ⟨rfl, ?_⟩
      rw [Rendering.append, htext]
      exact h.text.append rfl (Page.shows_ofBit hbit)
    · cases h.stopped
  · obtain ⟨bits, _ | o⟩ := page
    · cases h.stopped
    · exact h

end Rendering

/-! ### Programs that show pages -/

namespace Program

variable {vs : ValueSet} {program : Program} {page later : Page}

/-- Chunks one after the other are carried out one after the other. -/
theorem renderFrom_append (count : ℕ) (program rest : Program) (vs : ValueSet) (number : ℕ) :
    renderFrom number count (program ++ rest) vs =
      (renderFrom number count program vs).append
        (renderFrom (number + program.length) count rest vs) := by
  induction program generalizing number with
  | nil => rfl
  | cons chunk chunks ih =>
      rw [List.cons_append, renderFrom, renderFrom, ih, Rendering.append_assoc,
        List.length_cons, Nat.add_right_comm, Nat.add_assoc]

/-- A program shows a page, whatever its chunks are numbered. -/
def Shows (vs : ValueSet) (program : Program) (page : Page) : Prop :=
  ∀ number count, (renderFrom number count program vs).Shows page

/-- Programs one after the other show pages one after the other. -/
theorem Shows.append {rest : Program} (h : Shows vs program page) (hrest : Shows vs rest later) :
    Shows vs (program ++ rest) (page.append later) := by
  intro number count
  rw [renderFrom_append]
  exact (h number count).append (hrest _ count)

/-- A program of one chunk shows what the chunk shows. -/
theorem shows_singleton {chunk : Chunk} (h : (renderChunk chunk vs).Shows page) :
    Shows vs [chunk] page := by
  intro number count
  rw [← page.append_empty]
  exact (h.within (.chunk number count)).append Rendering.shows_empty

/-- Static text that is added to the last chunk is a further bit. -/
theorem Shows.extend {last text : String} {bit : Bit}
    (h : Shows vs (program ++ [.static last]) page) (hbit : bit.Shows text) :
    Shows vs (program ++ [.static (last ++ text)]) (page.append (.ofBit bit)) := by
  intro number count
  have hlast := h number count
  rw [renderFrom_append] at hlast ⊢
  exact hlast.extend hbit rfl

end Program

/-! ### Pieces that show pages -/

/-- The page of a piece. -/
inductive Piece.Shows (o : LayoutOptions) (vs : ValueSet) : Piece → Page → Prop
  | text {bit : Bit} {text : String} (h : bit.Shows text) : Shows o vs (.text text) (.ofBit bit)
  | freshLine {depth : ℕ} :
      Shows o vs (.freshLine depth) (.ofBit (.freshLine (o.lineBreak depth)))
  | step {chunk : Chunk} {page : Page} (h : (Program.renderChunk chunk vs).Shows page) :
      Shows o vs (.step chunk) page

/-- The pages of pieces, one after the other. -/
inductive Piece.AllShow (o : LayoutOptions) (vs : ValueSet) : List Piece → Page → Prop
  | nil : AllShow o vs [] .empty
  | cons {piece : Piece} {rest : List Piece} {page later : Page} (h : piece.Shows o vs page)
      (hrest : AllShow o vs rest later) : AllShow o vs (piece :: rest) (page.append later)

variable {o : LayoutOptions} {vs : ValueSet} {page later : Page}

/-- A single piece. -/
theorem Piece.Shows.single {piece : Piece} (h : piece.Shows o vs page) :
    Piece.AllShow o vs [piece] page := by
  rw [← page.append_empty]
  exact .cons h .nil

/-- Pieces behind other pieces. -/
theorem Piece.AllShow.append {pieces rest : List Piece} (h : Piece.AllShow o vs pieces page)
    (hrest : Piece.AllShow o vs rest later) :
    Piece.AllShow o vs (pieces ++ rest) (page.append later) := by
  induction h with
  | nil => exact hrest
  | cons hpiece _ ih =>
      rw [Page.append_assoc]
      exact .cons hpiece ih

/-- Text that is written is shown behind the page so far. -/
theorem Assembly.shows_write {a : Assembly} {bit : Bit} {text : String}
    (h : a.program.Shows vs page) (hbit : bit.Shows text) :
    (a.write o text).program.Shows vs (page.append (.ofBit bit)) := by
  obtain happend | ⟨init, last, hbefore, hafter⟩ := a.program_write o text
  · rw [happend]
    exact h.append (Program.shows_singleton (Rendering.shows_write hbit))
  · rw [hbefore] at h
    rw [hafter]
    exact h.extend hbit

/-- A piece is shown behind the page so far. -/
theorem Assembly.shows_add {a : Assembly} {piece : Piece} (h : a.program.Shows vs page)
    (hpiece : piece.Shows o vs later) : (a.add o piece).program.Shows vs (page.append later) := by
  cases hpiece with
  | text hbit => exact shows_write h hbit
  | freshLine =>
      obtain hadd | hadd := a.add_freshLine o _
      · rw [hadd, ← a.program.append_nil]
        exact h.append fun _ _ => Rendering.shows_silence .onFreshLine
      · rw [hadd]
        exact shows_write h .freshLine
  | step hchunk =>
      rw [program_step]
      exact h.append (Program.shows_singleton hchunk)

/-- **An assembled program shows the pages of its pieces**, one after the other. -/
theorem Piece.AllShow.assemble {pieces : List Piece} (h : Piece.AllShow o vs pieces page) :
    (Program.assemble o pieces).Shows vs page := by
  have hrun : ∀ (a : Assembly) (before : Page), a.program.Shows vs before →
      (pieces.foldl (Assembly.add o) a).program.Shows vs (before.append page) := by
    induction h with
    | nil =>
        intro a before ha
        rwa [Page.append_empty]
    | cons hpiece _ ih =>
        intro a before ha
        rw [List.foldl_cons, ← Page.append_assoc]
        exact ih _ _ (Assembly.shows_add ha hpiece)
  exact hrun .empty .empty fun _ _ => Rendering.shows_empty

end TrustedHtml
