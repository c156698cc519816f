import Mathlib.Data.List.Sort
import TrustedHtml.Proofs.BlockLines
import TrustedHtml.Proofs.ParseBack

/-!
# Names of Attributes

An attribute of an element is replaced by a later one of the same name. The list is gone through
from its end, and what has a name that has been seen is dropped. What is left can be told by the
places of the attributes in the list: those behind which the name does not occur again.
They are the only places in order whose names differ and among which the last occurrence of every
name is.

## Main definitions

* `Attribute.LastPlaces`: the places of the attributes that count.
* `Text.Holds`: texts that stand in a text one after the other.
* `Node.openings`: the elements that a tree writes, with the values for each of them.

## Main results

* `Attribute.LastPlaces.eq_lastPlaces`: **there is one choice of last places.**
* `Attribute.lastOfEachName_append`: attributes behind other attributes.
* `Node.Compiles.gives`: pieces write the opening tags of their tree.
* `Attribute.once_of_each_name`: **every name is left once**, in the list and in the output.
-/

namespace TrustedHtml

namespace Attribute

variable {attributes rest later : List Attribute} {places : List ℕ} {a : Attribute} {i : ℕ}

/-! ### Places -/

/-- The last attribute of its name stands at a place. -/
def IsLast (attributes : List Attribute) (i : ℕ) : Prop :=
  ∃ a, attributes[i]? = some a ∧ ∀ b ∈ attributes.drop (i + 1), b.name ≠ a.name

/-- **Places of the attributes that count**: in order, of different names, all names among them,
and for every name the last place where it occurs. -/
structure LastPlaces (attributes : List Attribute) (places : List ℕ) : Prop where
  ordered : places.Pairwise (· < ·)
  inRange : ∀ i ∈ places, i < attributes.length
  distinct : (places.map fun i => attributes[i]?.map (·.name)).Nodup
  complete : ∀ a ∈ attributes, ∃ i ∈ places, attributes[i]?.map (·.name) = some a.name
  last : ∀ i, IsLast attributes i → i ∈ places

/-- The places of the attributes that no later one of the same name replaces. -/
def lastPlaces : List Attribute → List ℕ
  | [] => []
  | a :: rest =>
      if rest.any (·.name == a.name) then (lastPlaces rest).map (· + 1)
      else 0 :: (lastPlaces rest).map (· + 1)

/-- Whether a name occurs in a list. -/
theorem any_name_iff {name : String} :
    attributes.any (·.name == name) = true ↔ ∃ b ∈ attributes, b.name = name := by
  simp

/-- The first attribute is the last of its name if no later one has it. -/
theorem isLast_cons_zero : IsLast (a :: rest) 0 ↔ ¬rest.any (·.name == a.name) = true := by
  rw [any_name_iff, not_exists]
  constructor
  · rintro ⟨b, hb, hlater⟩
    cases hb
    exact fun c ⟨hc, hname⟩ => hlater c hc hname
  · exact fun h => ⟨a, rfl, fun b hb hname => h b ⟨hb, hname⟩⟩

/-- What stands in front does not matter. -/
theorem isLast_cons_succ : IsLast (a :: rest) (i + 1) ↔ IsLast rest i := Iff.rfl

/-- The places are those of the last attributes of their names. -/
theorem mem_lastPlaces_iff : i ∈ lastPlaces attributes ↔ IsLast attributes i := by
  induction attributes generalizing i with
  | nil => exact ⟨nofun, fun ⟨_, h, _⟩ => nomatch h⟩
  | cons a rest ih =>
      rw [lastPlaces]
      cases i with
      | zero =>
          rw [isLast_cons_zero]
          split <;> simp_all
      | succ i =>
          rw [isLast_cons_succ, ← ih]
          split <;> simp

/-- The places are in order. -/
theorem pairwise_lastPlaces (attributes : List Attribute) :
    (lastPlaces attributes).Pairwise (· < ·) := by
  induction attributes with
  | nil => exact .nil
  | cons a rest ih =>
      have hshifted : ((lastPlaces rest).map (· + 1)).Pairwise (· < ·) :=
        List.pairwise_map.mpr (ih.imp Nat.succ_lt_succ)
      rw [lastPlaces]
      split
      · exact hshifted
      · refine .cons (fun i hi => ?_) hshifted
        obtain ⟨j, -, rfl⟩ := List.mem_map.mp hi
        exact Nat.succ_pos j

/-- The attributes that count are those at these places. -/
theorem lastOfEachName_eq (attributes : List Attribute) :
    lastOfEachName attributes = (lastPlaces attributes).filterMap (attributes[·]?) := by
  induction attributes with
  | nil => rfl
  | cons a rest ih =>
      have hshifted : ((lastPlaces rest).map (· + 1)).filterMap ((a :: rest)[·]?) =
          lastOfEachName rest := by
        rw [List.filterMap_map, ih]
        rfl
      rw [lastOfEachName_cons, lastPlaces]
      split
      · exact hshifted.symm
      · rw [List.filterMap_cons, hshifted]
        rfl

/-- Every name occurs for the last time somewhere. -/
theorem exists_isLast {name : String} (h : attributes.any (·.name == name) = true) :
    ∃ i, attributes[i]?.map (·.name) = some name ∧ IsLast attributes i := by
  induction attributes with
  | nil => cases h
  | cons a rest ih =>
      by_cases hlater : rest.any (·.name == name) = true
      · obtain ⟨i, hname, hlast⟩ := ih hlater
        exact ⟨i + 1, hname, hlast⟩
      · rw [List.any_cons, Bool.or_eq_true, beq_iff_eq] at h
        obtain rfl := h.resolve_right hlater
        exact ⟨0, rfl, isLast_cons_zero.mpr hlater⟩

/-- A name occurs for the last time at one place only. -/
theorem IsLast.eq {j : ℕ} (hi : IsLast attributes i) (hj : IsLast attributes j)
    (hname : attributes[i]?.map (·.name) = attributes[j]?.map (·.name)) : i = j := by
  obtain ⟨a, ha, hafter⟩ := hi
  obtain ⟨b, hb, hafter'⟩ := hj
  have hmem : ∀ {i j : ℕ} {c : Attribute}, i < j → attributes[j]? = some c →
      c ∈ attributes.drop (i + 1) := by
    intro i j c hlt hc
    refine List.mem_of_getElem? (i := j - (i + 1)) ?_
    rw [List.getElem?_drop, Nat.add_sub_cancel' hlt, hc]
  rw [ha, hb, Option.map_some, Option.map_some, Option.some_inj] at hname
  obtain hlt | heq | hlt := Nat.lt_trichotomy i j
  · exact absurd hname.symm (hafter b (hmem hlt hb))
  · exact heq
  · exact absurd hname (hafter' a (hmem hlt ha))

/-- What is dropped in front does not matter. -/
theorem IsLast.of_drop {n : ℕ} (h : IsLast (attributes.drop n) i) : IsLast attributes (n + i) := by
  obtain ⟨a, ha, hafter⟩ := h
  rw [List.getElem?_drop] at ha
  rw [List.drop_drop] at hafter
  exact ⟨a, ha, hafter⟩

/-- **Last places exist.** -/
theorem lastPlaces_spec (attributes : List Attribute) :
    LastPlaces attributes (lastPlaces attributes) where
  ordered := pairwise_lastPlaces attributes
  inRange i hi := by
    obtain ⟨a, ha, -⟩ := mem_lastPlaces_iff.mp hi
    exact (List.getElem?_eq_some_iff.mp ha).1
  distinct := by
    refine List.Nodup.map_on (fun i hi j hj hname => ?_) (pairwise_lastPlaces attributes).nodup
    exact (mem_lastPlaces_iff.mp hi).eq (mem_lastPlaces_iff.mp hj) hname
  complete a ha := by
    obtain ⟨i, hname, hlast⟩ := exists_isLast (any_name_iff.mpr ⟨a, ha, rfl⟩)
    exact ⟨i, mem_lastPlaces_iff.mpr hlast, hname⟩
  last i := mem_lastPlaces_iff.mpr

/-- Last places are those of the last attributes of their names. -/
theorem LastPlaces.mem_iff (h : LastPlaces attributes places) :
    i ∈ places ↔ IsLast attributes i := by
  refine ⟨fun hi => ?_, h.last i⟩
  have ha := List.getElem?_eq_getElem (h.inRange i hi)
  refine ⟨_, ha, fun b hb hname => ?_⟩
  obtain ⟨j, hj, hlast⟩ := exists_isLast (any_name_iff.mpr ⟨b, hb, hname⟩)
  rw [List.getElem?_drop] at hj
  have heq : i = i + 1 + j := List.inj_on_of_nodup_map h.distinct hi
    (h.last _ hlast.of_drop) (by rw [hj, ha]; rfl)
  omega

/-- **There is one choice of last places.** -/
theorem LastPlaces.eq_lastPlaces (h : LastPlaces attributes places) :
    places = lastPlaces attributes := by
  refine h.ordered.eq_of_mem_iff (pairwise_lastPlaces attributes) fun i => ?_
  rw [h.mem_iff, mem_lastPlaces_iff]

/-! ### Lists of attributes -/

/-- A name is left if it was given. -/
theorem any_lastOfEachName (name : String) (attributes : List Attribute) :
    (lastOfEachName attributes).any (·.name == name) = attributes.any (·.name == name) := by
  induction attributes with
  | nil => rfl
  | cons a rest ih =>
      rw [lastOfEachName_cons, List.any_cons]
      split
      · rename_i hlater
        rw [ih]
        cases hname : a.name == name with
        | false => rfl
        | true =>
            rw [beq_iff_eq.mp hname] at hlater
            rw [hlater]
            rfl
      · rw [List.any_cons, ih]

/-- The names of the attributes that are left differ. -/
theorem nodup_names_lastOfEachName (attributes : List Attribute) :
    ((lastOfEachName attributes).map (·.name)).Nodup := by
  induction attributes with
  | nil => exact List.nodup_nil
  | cons a rest ih =>
      rw [lastOfEachName_cons]
      split
      · exact ih
      · rename_i hlast
        rw [List.map_cons, List.nodup_cons]
        refine ⟨fun hmem => hlast ?_, ih⟩
        rw [← any_lastOfEachName, any_name_iff]
        exact List.mem_map.mp hmem

/-- Attributes whose names differ are all left. -/
theorem lastOfEachName_of_nodup (h : (attributes.map (·.name)).Nodup) :
    lastOfEachName attributes = attributes := by
  induction attributes with
  | nil => rfl
  | cons a rest ih =>
      obtain ⟨hnew, hrest⟩ := List.nodup_cons.mp h
      rw [lastOfEachName_cons, if_neg, ih hrest]
      rw [any_name_iff]
      exact fun hmem => hnew (List.mem_map.mpr hmem)

/-- **Attributes behind other attributes** replace those of the same names. -/
theorem lastOfEachName_append (attributes later : List Attribute) :
    lastOfEachName (attributes ++ later) =
      (lastOfEachName attributes).filter (fun a => !later.any (·.name == a.name)) ++
        lastOfEachName later := by
  induction attributes with
  | nil => rfl
  | cons a rest ih =>
      rw [List.cons_append, lastOfEachName_cons, lastOfEachName_cons, List.any_append, ih]
      cases hrest : rest.any (·.name == a.name) <;>
        cases hlater : later.any (·.name == a.name) <;> simp [hlater]

end Attribute

/-! ### Opening tags in a text -/

/-- **Texts that stand in a text** one after the other, with anything around them. -/
inductive Text.Holds : String → List String → Prop
  | nil (text : String) : Holds text []
  | cons {rest : String} {tags : List String} (before tag : String) (h : Holds rest tags) :
      Holds (before ++ tag ++ rest) (tag :: tags)

namespace Text.Holds

variable {s t : String} {tags later : List String}

/-- What stands in front does not matter. -/
theorem prepend (h : Holds t tags) (s : String) : Holds (s ++ t) tags := by
  cases h with
  | nil => exact .nil _
  | cons before tag h =>
      rw [String.append_assoc, ← String.append_assoc, ← String.append_assoc]
      exact .cons (s ++ before) tag h

/-- Texts in a text, and others in a text behind it. -/
theorem append (h : Holds s tags) (hlater : Holds t later) : Holds (s ++ t) (tags ++ later) := by
  induction h with
  | nil => exact hlater.prepend _
  | cons before tag _ ih =>
      rw [String.append_assoc, List.cons_append]
      exact .cons before tag ih

/-- A text stands in itself. -/
theorem singleton (text : String) : Holds text [text] := by
  have h := cons "" text (nil "")
  rwa [String.empty_append, String.append_empty] at h

end Text.Holds

section

variable [UrlReader]

namespace Node

mutual

/-- **The elements that a tree writes**, with the values for each of them, in the order of their
opening tags. -/
def openings : Node → ValueSet → List (Element × ValueSet)
  | .element e contents, vs => (e, vs) :: if e.isClosed then [] else childOpenings contents vs
  | .text _ _, _ => []
  | .raw _, _ => []
  | .multi _ contents, vs => childOpenings contents vs
  | .subsection name prototype, vs =>
      (vs.rowsNamed name).flatMap fun row => openings prototype row
  | .switch cases default, vs => (caseOpenings cases vs).getD (outputOpenings default vs)

/-- The elements that children write. -/
def childOpenings : List Node → ValueSet → List (Element × ValueSet)
  | [], _ => []
  | child :: rest, vs => openings child vs ++ childOpenings rest vs

/-- The elements that the first case whose condition holds writes, if there is one. -/
def caseOpenings : List (Condition × Option Node) → ValueSet → Option (List (Element × ValueSet))
  | [], _ => none
  | (condition, output) :: rest, vs =>
      if condition vs then some (outputOpenings output vs) else caseOpenings rest vs

/-- The elements that an alternative writes. -/
def outputOpenings : Option Node → ValueSet → List (Element × ValueSet)
  | none, _ => []
  | some output, vs => openings output vs

end

end Node

end

/-! ### Programs that write opening tags -/

namespace Delivery

/-- An output in which texts stand, unless it ends early. -/
def Gives (d : Delivery) (tags : List String) : Prop :=
  d.stopped = none → Text.Holds d.accepted tags

variable {d later : Delivery} {tags tags' : List String}

/-- Outputs one after the other. -/
theorem Gives.append (h : d.Gives tags) (hlater : later.Gives tags') :
    (d.append later).Gives (tags ++ tags') := by
  obtain ⟨accepted, _ | e⟩ := d
  · exact fun hstopped => (h rfl).append (hlater hstopped)
  · exact nofun

/-- Rows one after the other. -/
theorem gives_rows {rows : List ValueSet} {output : ValueSet → Delivery}
    {tags : ValueSet → List String} (h : ∀ row ∈ rows, (output row).Gives (tags row)) :
    (rows.foldr (fun row later => (output row).append later) nothing).Gives
      (rows.flatMap tags) := by
  induction rows with
  | nil => exact fun _ => .nil ""
  | cons row rest ih =>
      obtain ⟨hrow, hrest⟩ := List.forall_mem_cons.mp h
      exact hrow.append (ih hrest)

end Delivery

namespace Piece

variable {o : LayoutOptions} {vs : ValueSet} {found later : List Piece} {tags tags' : List String}
  {s : String}

/-- Pieces in whose output texts stand, wherever the program stands that they are added to, unless
it ends early. -/
structure Gives (o : LayoutOptions) (vs : ValueSet) (found : List Piece) (tags : List String) :
    Prop where
  stands : ∀ {base : Option String} {a : Assembly} {pen : Pen}, a.Stands vs base pen →
    ((found.foldl (Assembly.add o) a).program.outcome vs).stopped = none →
      ∃ own leads, (found.foldl (Assembly.add o) a).Stands vs base ⟨pen.written ++ own, leads⟩ ∧
        Text.Holds own tags

/-- No pieces. -/
theorem Gives.nil : Gives o vs [] [] := by
  refine ⟨fun {base a pen} ha _ => ⟨"", pen.leads, ?_, .nil ""⟩⟩
  rwa [String.append_empty]

/-- Pieces behind other pieces. -/
theorem Gives.append (h : Gives o vs found tags) (hlater : Gives o vs later tags') :
    Gives o vs (found ++ later) (tags ++ tags') := by
  refine ⟨fun {base a pen} ha hstopped => ?_⟩
  rw [List.foldl_append] at hstopped ⊢
  cases hend : ((found.foldl (Assembly.add o) a).program.outcome vs).stopped with
  | some e =>
      rw [stopped_foldl later hend] at hstopped
      cases hstopped
  | none =>
      obtain ⟨own, leads, hnext, hown⟩ := h.stands ha hend
      obtain ⟨own', leads', hfinal, hown'⟩ := hlater.stands hnext hstopped
      rw [String.append_assoc] at hfinal
      exact ⟨own ++ own', leads', hfinal, hown.append hown'⟩

/-- Pieces that write a text. -/
theorem Print.gives (h : Print o vs found s) (hholds : Text.Holds s tags) :
    Gives o vs found tags :=
  ⟨fun ha _ => ⟨s, false, h.stands ha, hholds⟩⟩

/-- Pieces that write marks, if nothing is asked for. -/
theorem Follow.gives {result : Except Overflow (List Mark)} (h : Follow o vs found result) :
    Gives o vs found [] := by
  refine ⟨fun {base a pen} ha hstopped => ?_⟩
  cases h with
  | overflow hoverflow =>
      rw [hoverflow ha] at hstopped
      cases hstopped
  | ok hfound =>
      obtain ⟨⟨written, leads⟩, hfinal, openings, hrun, -⟩ := hfound ha
      obtain ⟨⟨own, rfl⟩, -⟩ := hrun.extends
      exact ⟨own, leads, hfinal, .nil own⟩

/-- A fresh line has no opening tag. -/
theorem gives_freshLine (o : LayoutOptions) (vs : ValueSet) (depth : ℕ) :
    Gives o vs [.freshLine depth] [] := by
  refine ⟨fun {base a pen} ha _ => ?_⟩
  rw [List.foldl_cons, List.foldl_nil]
  obtain hadd | hadd := a.add_freshLine o depth
  · rw [hadd]
    refine ⟨"", pen.leads, ?_, .nil ""⟩
    rwa [String.append_empty]
  · rw [hadd]
    exact ⟨_, false, ha.write o _, .nil _⟩

/-- A step that puts out a text. -/
theorem gives_step {chunk : Chunk} (h : (Program.renderChunk chunk vs).outcome.Gives tags) :
    Gives o vs [.step chunk] tags := by
  refine ⟨fun {base a pen} ha hstopped => ?_⟩
  obtain ⟨own, hown, -⟩ := ha.output
  generalize houtcome : (Program.renderChunk chunk vs).outcome = d at h
  obtain ⟨text, _ | e⟩ := d
  · exact ⟨text, false, ha.step o houtcome, h rfl⟩
  · rw [List.foldl_cons, List.foldl_nil, Assembly.program_step, Program.outcome_append,
      Program.outcome_singleton, hown, houtcome] at hstopped
    cases hstopped

/-- The program of a template, a row or an alternative. -/
theorem Gives.assemble (h : Gives o vs found tags) :
    ((Program.assemble o found).outcome vs).Gives tags := by
  intro hstopped
  obtain ⟨own, leads, hfinal, hown⟩ := h.stands (Assembly.stands_empty vs none) hstopped
  obtain ⟨text, htext, hwritten⟩ := hfinal.output
  have houtcome : (Program.assemble o found).outcome vs = .ofText text := htext
  obtain rfl : own = text := by simpa using hwritten
  rw [houtcome]
  exact hown

end Piece

section Trees

variable [UrlReader] {o : LayoutOptions} {f : Schema} {vs : ValueSet}

/-- An opening tag is one. -/
theorem Element.OpeningCompiles.gives {e : Element} {opening : List Piece} (hwf : f.WellFormed)
    (hschema : vs.schema = f) (h : e.OpeningCompiles f opening) (depth : ℕ) :
    Piece.Gives o vs (e.startPieces o depth ++ opening) [e.evaluate vs] := by
  have hopening := (h.prints (o := o) hwf hschema).gives (.singleton _)
  rw [startPieces]
  split
  · exact (Piece.gives_freshLine o vs depth).append hopening
  · exact hopening

namespace Node

/-- The opening tags of elements. -/
def tags (openings : List (Element × ValueSet)) : List String :=
  openings.map fun (e, vs) => e.evaluate vs

mutual

/-- **Pieces write the opening tags of their tree.** -/
theorem Compiles.gives {f : Schema} {depth : ℕ} {node : Node} {found : List Piece} {vs : ValueSet}
    (hwf : f.WellFormed) (hschema : vs.schema = f) (hfitted : vs.Fitted) :
    node.Compiles o f depth found → Piece.Gives o vs found (tags (node.openings vs))
  | .closed _ hclosed hopening => by
      rw [openings, if_pos hclosed]
      exact hopening.gives hwf hschema depth
  | @Compiles.paired _ _ _ depth e contents _ _ _ hclosed hopening hbody => by
      have hstart := (hopening.gives hwf hschema depth).append
        (e.follow_breakPieces o vs (e.innerDepth o depth)).gives
      have hwhole := ((hstart.append (hbody.gives hwf hschema hfitted)).append
        (e.follow_breakPieces o vs depth).gives).append
          ((Piece.print_text s!"</{e.name}>").gives (.nil _))
      rw [openings, if_neg (by simp [hclosed])]
      simpa [tags] using hwhole
  | .text hvalue => (hvalue.follows hwf hschema).gives
  | .raw hvalue => (hvalue.prints .raw hwf hschema).gives (.nil _)
  | .multi hbody => hbody.gives hwf hschema hfitted
  | @Compiles.subsection _ _ _ _ _ _ prototype t found hname htag hfound => by
      subst hname
      obtain ⟨failure, schemas, rows⟩ := hfitted
      have hchild := hwf.child (List.mem_of_getElem? htag)
      have hparent : t.parent = vs.schema.id := by rw [hschema, (hwf.coherent.tag_at htag).2]
      rw [openings, ValueSet.rowsNamed, hschema, hwf.subsection?_eq htag, tags, List.map_flatMap]
      refine Piece.gives_step ?_
      rw [Program.outcome_rows hparent (failure t.index)]
      refine Delivery.gives_rows fun row hrow => ?_
      obtain ⟨sub, hsub, hrowSchema⟩ := schemas t.index row hrow
      rw [hschema, htag] at hsub
      cases hsub
      exact (hfound.gives hchild hrowSchema (rows t.index row hrow)).assemble
  | .switch hcases hdefault => by
      rw [openings]
      refine Piece.gives_step ?_
      rw [Program.renderChunk_switch]
      exact getD_of_rel (hcases.gives hwf hschema hfitted)
        fun _ => hdefault.gives hwf hschema hfitted

/-- Pieces for children write their opening tags. -/
theorem ChildrenCompile.gives {f : Schema} {depth : ℕ} {contents : List Node}
    {found : List Piece} {vs : ValueSet} (hwf : f.WellFormed) (hschema : vs.schema = f)
    (hfitted : vs.Fitted) : ChildrenCompile o f depth contents found →
      Piece.Gives o vs found (tags (childOpenings contents vs))
  | .nil => .nil
  | .cons hchild hrest => by
      rw [childOpenings, tags, List.map_append]
      exact (hchild.gives hwf hschema hfitted).append (hrest.gives hwf hschema hfitted)

/-- The case that is chosen writes its opening tags, if one is. -/
theorem CasesCompile.gives {f : Schema} {depth : ℕ} {cases : List (Condition × Option Node)}
    {programs : List (Condition × Option Program)} {vs : ValueSet} (hwf : f.WellFormed)
    (hschema : vs.schema = f) (hfitted : vs.Fitted) : CasesCompile o f depth cases programs →
      Option.Rel (fun (r : Rendering) openings => r.outcome.Gives (tags openings))
        (Program.renderCases programs vs) (caseOpenings cases vs)
  | .nil => .none
  | @CasesCompile.cons _ _ _ _ condition _ _ _ _ houtput hrest => by
      rw [Program.renderCases, caseOpenings]
      by_cases hholds : condition vs
      · rw [if_pos hholds, if_pos hholds]
        exact .some (houtput.gives hwf hschema hfitted)
      · rw [if_neg hholds, if_neg hholds]
        exact hrest.gives hwf hschema hfitted

/-- An alternative writes its opening tags. -/
theorem OutputCompiles.gives {f : Schema} {depth : ℕ} {output : Option Node}
    {program : Option Program} {vs : ValueSet} (hwf : f.WellFormed) (hschema : vs.schema = f)
    (hfitted : vs.Fitted) : OutputCompiles o f depth output program →
      (Program.renderOutput program vs).outcome.Gives (tags (outputOpenings output vs))
  | .none => fun _ => .nil ""
  | .some hfound => by
      rw [Program.renderOutput, Program.outcome_renderFrom, outputOpenings]
      exact (hfound.gives hwf hschema hfitted).assemble

end

/-- Whatever a template renders to, the opening tags of its tree stand in it. -/
theorem holds_of_renderToString {node : Node} {scope : Scope} {t : Template} {next : ℕ}
    {text : String} (hwf : scope.schema.WellFormed)
    (hcompile : node.compile o scope = (.ok t, next)) (hschema : vs.schema = t.schema)
    (hfitted : vs.Fitted) (hrender : t.renderToString vs = .ok text) :
    Text.Holds text (tags (node.openings vs)) := by
  obtain ⟨hwf', -, found, hfound, hprogram⟩ := compiles_of_compile hwf hcompile
  have houtcome := Template.outcome_of_renderToString hschema hrender
  have hgives := (hfound.gives hwf' hschema hfitted).assemble
  rw [← hprogram, houtcome] at hgives
  exact hgives rfl

end Node

/-- An opening tag in which every attribute that was given stands once. -/
def Element.HasEachOnce (e : Element) (tag : String) : Prop :=
  ∃ values : List (String × String), (values.map (·.1)).Nodup ∧
    (∀ name, name ∈ values.map (·.1) ↔ name ∈ e.attributes.map (·.name)) ∧
    tag = s!"<{e.name}" ++ String.join (values.map fun (name, value) => s!" {name}=\"{value}\"")
      ++ (if e.xmlSelfClosing then "/>" else ">")

/-- An opening tag has the last attribute of each name. -/
theorem Element.hasEachOnce_evaluate (e : Element) (vs : ValueSet) :
    e.HasEachOnce (e.evaluate vs) := by
  refine ⟨(Attribute.lastOfEachName e.attributes).map fun a => (a.name, a.value.content a.place vs),
    ?_, fun name => ?_, ?_⟩
  · rw [List.map_map]
    exact Attribute.nodup_names_lastOfEachName e.attributes
  · have hany := Attribute.any_lastOfEachName name e.attributes
    rw [Bool.eq_iff_iff, Attribute.any_name_iff, Attribute.any_name_iff] at hany
    rw [List.map_map, List.mem_map, List.mem_map]
    exact hany
  · rw [List.map_map]
    rfl

/-- **Every name is left once.** The attributes that count are those at the last places of their
names, for which there is one choice. So choosing again changes nothing, attributes that come
behind replace those of the same names and no others, and every opening tag that a template
writes has each name once. -/
theorem Attribute.once_of_each_name :
    (∀ attributes, (∃! places, LastPlaces attributes places) ∧
      ∀ places, LastPlaces attributes places →
        lastOfEachName attributes = places.filterMap (attributes[·]?)) ∧
    (∀ attributes, lastOfEachName (lastOfEachName attributes) = lastOfEachName attributes) ∧
    (∀ attributes later, lastOfEachName (attributes ++ later) =
      (lastOfEachName attributes).filter (fun a => !later.any (·.name == a.name)) ++
        lastOfEachName later) ∧
    ∀ (o : LayoutOptions) (node : Node) (scope : Scope) (t : Template) (next : ℕ) (vs : ValueSet)
      (text : String), scope.schema.WellFormed → node.compile o scope = (.ok t, next) →
      vs.schema = t.schema → vs.Fitted → t.renderToString vs = .ok text →
        Text.Holds text ((node.openings vs).map fun (e, row) => e.evaluate row) ∧
          ∀ e row, (e, row) ∈ node.openings vs → e.HasEachOnce (e.evaluate row) := by
  refine ⟨fun attributes => ⟨⟨lastPlaces attributes, lastPlaces_spec attributes, ?_⟩, ?_⟩, ?_, ?_,
    ?_⟩
  · exact fun places h => h.eq_lastPlaces
  · intro places h
    rw [h.eq_lastPlaces, lastOfEachName_eq]
  · exact fun attributes => lastOfEachName_of_nodup (nodup_names_lastOfEachName attributes)
  · exact lastOfEachName_append
  · intro o node scope t next vs text hwf hcompile hschema hfitted hrender
    refine ⟨Node.holds_of_renderToString hwf hcompile hschema hfitted hrender, ?_⟩
    exact fun e row _ => e.hasEachOnce_evaluate row

end Trees

/-- A paragraph with two attributes, one of which is given twice. -/
def Node.twiceNamed : Node :=
  .ofElement "p" [.attribute (.ofName "id" (.literal "1")),
    .attribute (.ofName "lang" (.literal "2")), .attribute (.ofName "id" (.literal "3"))]

/-- Of two attributes of the same name the second one is left, behind the one between them. -/
theorem Attribute.once_of_each_name_paragraph : ∃ t next vs,
    Node.twiceNamed.compile .tidy (.newRoot 1) = (.ok t, next) ∧ t.bind [] = .ok vs ∧
      t.renderToString vs = .ok "<p lang=\"2\" id=\"3\">\n  \n</p>" ∧
      Text.Holds "<p lang=\"2\" id=\"3\">\n  \n</p>"
        ((Node.twiceNamed.openings vs).map fun (e, row) => e.evaluate row) ∧
      ∀ e row, (e, row) ∈ Node.twiceNamed.openings vs → e.HasEachOnce (e.evaluate row) := by
  have hruns : Node.twiceNamed.runs .tidy [] (fun t vs => decide (t.renderToString vs =
      .ok "<p lang=\"2\" id=\"3\">\n  \n</p>")) = true := by
    decide +kernel
  obtain ⟨t, next, vs, hcompile, hbind, hrenders⟩ := Node.exists_of_runs hruns
  have hrender := of_decide_eq_true hrenders
  have hroot : (Scope.newRoot 1).schema.WellFormed := Schema.wellFormed_of_empty rfl rfl
  have hboth := once_of_each_name.2.2.2 .tidy Node.twiceNamed (.newRoot 1) t next vs _ hroot
    hcompile (Schema.bound_of_bind hbind).schema_eq (Binding.fitted_of_bind hbind) hrender
  exact ⟨t, next, vs, hcompile, hbind, hrender, hboth⟩

end TrustedHtml
