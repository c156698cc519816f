import TrustedHtml.Proofs.DirectEvaluation
import TrustedHtml.Proofs.FreshLine
import TrustedHtml.Proofs.RowSources

/-!
# The Lines of Block Elements

Where the opening tags of block elements end up in the output. `Node.marks` goes through a tree
with a value set, as direct evaluation does, and lists what is written, with the opening tags of
block elements told apart, and with marks where a row or an alternative begins and where the
output goes on behind it. `Mark.Run` writes marks one after the other and records, for every
opening tag, what has been written before it: a line break goes in front of it or is left out,
except at the beginning of a row or an alternative, where it is always left out.

A template writes the marks of its tree in this way, and leaves the line break out only where the
output ends in one already. So every block element stands on a line of its own, but for those that
come first in a row or an alternative. These are compiled with nothing in front of them, which
passes for a fresh line, and so they follow whatever is there: the second of two paragraphs that
are rows stands on the line of the first.

## Main definitions

* `LayoutOptions.HasLines`: layouts with line breaks and indentation.
* `EndsFresh`: texts that end in a line break and indentation.
* `Node.marks`: what a tree writes.
* `Mark.Run`: writing marks, with a record of the openings of block elements.

## Main results

* `Node.Compiles.follows`: pieces write the marks of their tree.
* `Node.openings_fresh`: **block elements begin a line**, unless they come first in their part.
-/

namespace TrustedHtml

/-! ### Lines -/

/-- **A layout with lines**: it has line breaks, and indents with spaces and tabs. -/
structure LayoutOptions.HasLines (o : LayoutOptions) : Prop where
  breaks : o.isCompact = false
  indents : ∀ c ∈ o.indent.toList, Assembly.isIndentation c = true

/-- Texts that end in a line break with no more than indentation behind it. -/
def EndsFresh (text : String) : Prop :=
  ∃ line indentation, text = line ++ "\n" ++ indentation ∧
    ∀ c ∈ indentation.toList, Assembly.isIndentation c = true

namespace EndsFresh

variable {s t : String}

/-- What stands in front does not matter. -/
theorem of_append (h : EndsFresh t) (s : String) : EndsFresh (s ++ t) := by
  obtain ⟨line, indentation, rfl, hindentation⟩ := h
  exact ⟨s ++ line, indentation, by simp only [String.append_assoc], hindentation⟩

/-- More indentation does not matter. -/
theorem indent (h : EndsFresh s) (ht : ∀ c ∈ t.toList, Assembly.isIndentation c = true) :
    EndsFresh (s ++ t) := by
  obtain ⟨line, indentation, rfl, hindentation⟩ := h
  refine ⟨line, indentation ++ t, by simp only [String.append_assoc], fun c hc => ?_⟩
  rw [String.toList_append, List.mem_append] at hc
  exact hc.elim (hindentation c) (ht c)

/-- A line break ends in one, in a layout with lines. -/
theorem lineBreak {o : LayoutOptions} (hlayout : o.HasLines) (depth : ℕ) :
    EndsFresh (o.lineBreak depth) := by
  refine ⟨"", Text.copies depth o.indent, ?_, fun c hc => ?_⟩
  · rw [String.empty_append]
    rfl
  · have hnone := Text.filter_copies (p := fun c => !Assembly.isIndentation c)
      (fun c hc => by rw [hlayout.indents c hc]; rfl) depth
    simpa using List.filter_eq_nil_iff.mp hnone c hc

end EndsFresh

/-- The judgement about texts that are not yet a chunk, one text at a time. -/
theorem Assembly.endsFresh_cons {text : String} {older : List String}
    (h : endsFresh (text :: older) = true) :
    EndsFresh text ∨
      (∀ c ∈ text.toList, isIndentation c = true) ∧ endsFresh older = true := by
  rw [endsFresh] at h
  split at h
  · rename_i hdrop
    refine .inr ⟨fun c hc => ?_, h⟩
    exact List.dropWhile_eq_nil_iff.mp hdrop c (List.mem_reverse.mpr hc)
  · rename_i c line hdrop
    obtain rfl : c = '\n' := beq_iff_eq.mp h
    obtain ⟨indentation, hsplit, hindentation⟩ : ∃ indentation,
        text.toList.reverse = indentation ++ '\n' :: line ∧
          ∀ c ∈ indentation, isIndentation c = true := by
      refine ⟨text.toList.reverse.takeWhile isIndentation, ?_, fun c => List.mem_takeWhile_imp⟩
      rw [← hdrop, List.takeWhile_append_dropWhile]
    refine .inl ⟨.ofList line.reverse, .ofList indentation.reverse, ?_, fun c hc => ?_⟩
    · rw [← String.toList_inj, ← List.reverse_inj, hsplit]
      simp
    · rw [String.toList_ofList, List.mem_reverse] at hc
      exact hindentation c hc

/-- What is asked about a single text is whether it ends in a line break and indentation. -/
theorem Assembly.endsFresh_singleton_iff {text : String} :
    endsFresh [text] = true ↔ EndsFresh text := by
  constructor
  · intro h
    obtain hends | ⟨-, hnone⟩ := endsFresh_cons h
    · exact hends
    · cases hnone
  · rintro ⟨line, indentation, rfl, hindentation⟩
    have hdrop : (line ++ "\n" ++ indentation).toList.reverse.dropWhile isIndentation =
        '\n' :: line.toList.reverse := by
      rw [String.toList_append, String.toList_append, List.reverse_append,
        List.dropWhile_append_of_pos fun c hc => hindentation c (List.mem_reverse.mp hc),
        List.reverse_append]
      rfl
    rw [endsFresh, hdrop]
    rfl

/-- Whether a text ends in a line break and indentation can be seen from it. -/
instance : DecidablePred EndsFresh := fun _ =>
  decidable_of_iff _ Assembly.endsFresh_singleton_iff

/-! ### Marks -/

/-- What a tree writes, and where its parts begin and end. -/
inductive Mark where
  | text (text : String)
  /-- The opening tag of a block element, and the line break that would begin its line. -/
  | block (lineBreak tag : String)
  /-- A row or an alternative begins. -/
  | enter
  /-- There is no further row, or the alternative is over. -/
  | leave
deriving DecidableEq

/-- Where writing stands: what has been written so far, and whether that is all in front of a row
or an alternative that has just begun. -/
structure Pen where
  written : String
  leads : Bool

/-- The opening tag of a block element in an output. -/
structure Opening where
  before : String
  tag : String
  /-- Whether it is the first that a row or an alternative writes. -/
  leads : Bool

/-- An opening tag at the beginning of the output, or of a line. -/
def Opening.Fresh (opening : Opening) : Prop :=
  opening.before = "" ∨ EndsFresh opening.before

instance (opening : Opening) : Decidable opening.Fresh :=
  inferInstanceAs (Decidable (_ ∨ _))

namespace Mark

/-- **Writing a mark**, with the openings that are written for it. -/
inductive Writes : Mark → Pen → Pen → List Opening → Prop
  | text {pen : Pen} {text : String} : Writes (.text text) pen ⟨pen.written ++ text, false⟩ []
  /-- The first that a row or an alternative writes begins no line. -/
  | leading {written lineBreak tag : String} :
      Writes (.block lineBreak tag) ⟨written, true⟩ ⟨written ++ tag, false⟩ [⟨written, tag, true⟩]
  | following {written lineBreak tag gap : String} (hgap : gap = "" ∨ gap = lineBreak) :
      Writes (.block lineBreak tag) ⟨written, false⟩ ⟨written ++ gap ++ tag, false⟩
        [⟨written ++ gap, tag, false⟩]
  | enter {pen : Pen} : Writes .enter pen ⟨pen.written, true⟩ []
  | leave {pen : Pen} : Writes .leave pen ⟨pen.written, false⟩ []

/-- **Writing marks** one after the other. -/
inductive Run : List Mark → Pen → Pen → List Opening → Prop
  | nil {pen : Pen} : Run [] pen pen []
  | cons {mark : Mark} {rest : List Mark} {pen next final : Pen} {first later : List Opening}
      (h : mark.Writes pen next first) (hrest : Run rest next final later) :
      Run (mark :: rest) pen final (first ++ later)

variable {mark : Mark} {marks rest : List Mark} {pen next final : Pen}
  {openings later : List Opening}

/-- A single mark. -/
theorem Writes.run (h : mark.Writes pen next openings) : Run [mark] pen next openings := by
  rw [← List.append_nil openings]
  exact .cons h .nil

/-- Marks behind other marks. -/
theorem Run.append (h : Run marks pen next openings) (hrest : Run rest next final later) :
    Run (marks ++ rest) pen final (openings ++ later) := by
  induction h with
  | nil => exact hrest
  | cons hmark _ ih =>
      rw [List.append_assoc]
      exact .cons hmark (ih hrest)

/-- What a mark writes comes behind what has been written, and its openings are in it. -/
theorem Writes.extends (h : mark.Writes pen next openings) :
    (∃ text, next.written = pen.written ++ text) ∧
      ∀ opening ∈ openings, ∃ after, next.written = opening.before ++ opening.tag ++ after := by
  cases h with
  | @text _ text => exact ⟨⟨text, rfl⟩, nofun⟩
  | @leading _ _ tag =>
      exact ⟨⟨tag, rfl⟩, List.forall_mem_singleton.mpr ⟨"", String.append_empty.symm⟩⟩
  | @following _ _ tag gap _ =>
      exact ⟨⟨gap ++ tag, String.append_assoc ..⟩,
        List.forall_mem_singleton.mpr ⟨"", String.append_empty.symm⟩⟩
  | enter => exact ⟨⟨"", String.append_empty.symm⟩, nofun⟩
  | leave => exact ⟨⟨"", String.append_empty.symm⟩, nofun⟩

/-- **The openings that are recorded are in the output**, where the record says. -/
theorem Run.extends (h : Run marks pen final openings) :
    (∃ text, final.written = pen.written ++ text) ∧
      ∀ opening ∈ openings, ∃ after, final.written = opening.before ++ opening.tag ++ after := by
  induction h with
  | nil => exact ⟨⟨"", String.append_empty.symm⟩, nofun⟩
  | cons hmark _ ih =>
      obtain ⟨⟨text, hnext⟩, hopenings⟩ := hmark.extends
      obtain ⟨⟨text', hfinal⟩, hlater⟩ := ih
      refine ⟨⟨text ++ text', by rw [hfinal, hnext, String.append_assoc]⟩, fun opening hmem => ?_⟩
      obtain hmem | hmem := List.mem_append.mp hmem
      · obtain ⟨after, hafter⟩ := hopenings opening hmem
        exact ⟨after ++ text', by rw [hfinal, hafter, String.append_assoc]⟩
      · exact hlater opening hmem

/-- Writing marks so that every block element begins a line, or leads its part. -/
def Aligned (marks : List Mark) (pen final : Pen) : Prop :=
  ∃ openings, Run marks pen final openings ∧
    ∀ opening ∈ openings, opening.Fresh ∨ opening.leads = true

/-- A mark without an opening. -/
theorem Writes.aligned (h : mark.Writes pen next []) : Aligned [mark] pen next :=
  ⟨[], h.run, nofun⟩

/-- Marks behind other marks. -/
theorem Aligned.append (h : Aligned marks pen next) (hrest : Aligned rest next final) :
    Aligned (marks ++ rest) pen final := by
  obtain ⟨openings, hrun, hopenings⟩ := h
  obtain ⟨later, hlater, hall⟩ := hrest
  refine ⟨openings ++ later, hrun.append hlater, fun opening hmem => ?_⟩
  exact (List.mem_append.mp hmem).elim (hopenings opening) (hall opening)

end Mark

section

variable [UrlReader]

/-- The mark for the opening tag of an element. -/
def Element.openingMark (o : LayoutOptions) (depth : ℕ) (vs : ValueSet) (e : Element) : Mark :=
  if e.style = .block then .block (o.lineBreak depth) (e.evaluate vs) else .text (e.evaluate vs)

/-- The marks that begin a line within an element. -/
def Element.breakMarks (o : LayoutOptions) (depth : ℕ) (e : Element) : List Mark :=
  if e.isBlock o then [.text (o.lineBreak depth)] else []

namespace Node

mutual

/-- **What a tree writes** for a value set. -/
def marks (o : LayoutOptions) (depth : ℕ) : Node → ValueSet → Except Overflow (List Mark)
  | .element e contents, vs => do
      if e.isClosed then return [e.openingMark o depth vs]
      let inner := e.innerDepth o depth
      return [e.openingMark o depth vs] ++ e.breakMarks o inner
        ++ (← childMarks o inner contents vs) ++ e.breakMarks o depth ++ [.text s!"</{e.name}>"]
  | .text value width, vs => do
      return [.text (← (o.reflow depth width).apply (value.content .text vs))]
  | .raw value, vs => return [.text (value.content .raw vs)]
  | .multi _ contents, vs => childMarks o depth contents vs
  | .subsection name prototype, vs => do
      let rows ← (vs.rowsNamed name).mapM fun row => do
        return .enter :: (← marks o depth prototype row)
      return rows.flatten ++ [.leave]
  | .switch cases default, vs => do
      return (← (caseMarks o depth cases vs).getD (outputMarks o depth default vs)) ++ [.leave]

/-- What children write, one after the other. -/
def childMarks (o : LayoutOptions) (depth : ℕ) :
    List Node → ValueSet → Except Overflow (List Mark)
  | [], _ => return []
  | child :: rest, vs => return (← marks o depth child vs) ++ (← childMarks o depth rest vs)

/-- What the first case whose condition holds writes, if there is one. -/
def caseMarks (o : LayoutOptions) (depth : ℕ) :
    List (Condition × Option Node) → ValueSet → Option (Except Overflow (List Mark))
  | [], _ => none
  | (condition, output) :: rest, vs =>
      if condition vs then some (outputMarks o depth output vs) else caseMarks o depth rest vs

/-- What an alternative writes; one without an output writes nothing. -/
def outputMarks (o : LayoutOptions) (depth : ℕ) :
    Option Node → ValueSet → Except Overflow (List Mark)
  | none, _ => return []
  | some output, vs => return .enter :: (← marks o depth output vs)

end

end Node

end

/-! ### Where a program being assembled stands -/

namespace Assembly

/-- Whether nothing has been added yet. -/
def isEmpty (a : Assembly) : Bool :=
  a.chunks.isEmpty && a.pending.isNone

variable {o : LayoutOptions} {a : Assembly} {text : String}

/-- The beginning passes for a fresh line. -/
theorem onFreshLine_of_isEmpty (h : a.isEmpty = true) : a.onFreshLine = true := by
  rw [isEmpty, Bool.and_eq_true, Option.isNone_iff_eq_none] at h
  rw [onFreshLine, h.2]
  exact h.1

/-- A line that is fresh behind a text begins in it, or was fresh in front of it. -/
theorem onFreshLine_write_cases (h : (a.write o text).onFreshLine = true) :
    EndsFresh text ∨ (∀ c ∈ text.toList, isIndentation c = true) ∧ a.onFreshLine = true ∧
      a.isEmpty = false := by
  obtain htext | ⟨hindentation, holder⟩ := endsFresh_cons h
  · exact .inl htext
  · obtain ⟨chunks, _ | older⟩ := a
    · cases hseparate : o.separate <;> simp [hseparate, flush, endsFresh] at holder
    · cases hseparate : o.separate with
      | true => simp [hseparate, flush, endsFresh] at holder
      | false =>
          rw [hseparate] at holder
          exact .inr ⟨hindentation, holder, Bool.and_false _⟩

/-- A program being assembled has written what the pen says: behind `base` if it is the program of
a row or an alternative, and from the beginning if it is that of a template. -/
structure Stands (vs : ValueSet) (base : Option String) (a : Assembly) (pen : Pen) : Prop where
  output : ∃ own, a.program.outcome vs = .ofText own ∧ pen.written = base.getD "" ++ own
  leads : pen.leads = (base.isSome && a.isEmpty)
  fresh : a.onFreshLine = true → a.isEmpty = true ∨ EndsFresh pen.written

variable {vs : ValueSet} {base : Option String} {pen : Pen}

/-- At the beginning. -/
theorem stands_empty (vs : ValueSet) (base : Option String) :
    empty.Stands vs base ⟨base.getD "", base.isSome⟩ where
  output := ⟨"", rfl, String.append_empty.symm⟩
  leads := (Bool.and_true _).symm
  fresh _ := .inl rfl

/-- What is empty has written nothing. -/
theorem Stands.written_eq (h : a.Stands vs base pen) (hempty : a.isEmpty = true) :
    pen.written = base.getD "" := by
  obtain ⟨own, houtcome, hwritten⟩ := h.output
  rw [isEmpty, Bool.and_eq_true, List.isEmpty_iff, Option.isNone_iff_eq_none] at hempty
  obtain ⟨chunks, pending⟩ := a
  obtain ⟨rfl, rfl⟩ : chunks = [] ∧ pending = none := hempty
  obtain rfl : own = "" := congrArg Delivery.accepted houtcome.symm
  rw [hwritten, String.append_empty]

/-- A static text is written. -/
theorem Stands.write (h : a.Stands vs base pen) (o : LayoutOptions) (text : String) :
    (a.write o text).Stands vs base ⟨pen.written ++ text, false⟩ where
  output := by
    obtain ⟨own, houtcome, hwritten⟩ := h.output
    refine ⟨own ++ text, ?_, by rw [hwritten, String.append_assoc]⟩
    rw [outcome_write, houtcome, Delivery.ofText_append]
  leads := by
    rw [isEmpty, Assembly.write, Option.isNone_some, Bool.and_false, Bool.and_false]
  fresh hfresh := by
    right
    obtain htext | ⟨hindentation, hbefore, hempty⟩ := onFreshLine_write_cases hfresh
    · exact htext.of_append _
    · have hwritten := (h.fresh hbefore).resolve_left (by simp [hempty])
      exact hwritten.indent hindentation

/-- What a step puts out is written. -/
theorem Stands.step (h : a.Stands vs base pen) (o : LayoutOptions) {chunk : Chunk} {text : String}
    (hchunk : (Program.renderChunk chunk vs).outcome = .ofText text) :
    (a.add o (.step chunk)).Stands vs base ⟨pen.written ++ text, false⟩ where
  output := by
    obtain ⟨own, houtcome, hwritten⟩ := h.output
    refine ⟨own ++ text, ?_, by rw [hwritten, String.append_assoc]⟩
    rw [program_step, Program.outcome_append, Program.outcome_singleton, houtcome, hchunk,
      Delivery.ofText_append]
  leads := by
    rw [isEmpty, add, List.isEmpty_cons, Bool.false_and, Bool.and_false]
  fresh hfresh := by
    rw [onFreshLine_step] at hfresh
    cases hfresh

/-- **A fresh line is found or begun**, or nothing has been written in a row or an alternative:
however it comes about, the opening tag behind it is written as a block element can be. -/
theorem Stands.freshLine (h : a.Stands vs base pen) (hlayout : o.HasLines) (depth : ℕ) :
    ∃ mid, (a.add o (.freshLine depth)).Stands vs base mid ∧ ∀ tag,
      Mark.Aligned [.block (o.lineBreak depth) tag] pen ⟨mid.written ++ tag, false⟩ := by
  obtain ⟨written, leads⟩ := pen
  rw [add]
  cases hfresh : a.onFreshLine with
  | false =>
      refine ⟨_, h.write o (o.lineBreak depth), fun tag => ?_⟩
      obtain rfl : leads = false := by
        have hleads := h.leads
        cases hempty : a.isEmpty with
        | true => simp [onFreshLine_of_isEmpty hempty] at hfresh
        | false => rwa [hempty, Bool.and_false] at hleads
      refine ⟨_, (Mark.Writes.following (.inr rfl)).run, List.forall_mem_singleton.mpr (.inl ?_)⟩
      exact .inr ((EndsFresh.lineBreak hlayout depth).of_append written)
  | true =>
      refine ⟨_, h, fun tag => ?_⟩
      cases leads with
      | true => exact ⟨_, Mark.Writes.leading.run, List.forall_mem_singleton.mpr (.inr rfl)⟩
      | false =>
          have hrun := (@Mark.Writes.following written (o.lineBreak depth) tag "" (.inl rfl)).run
          rw [String.append_empty] at hrun
          refine ⟨_, hrun, List.forall_mem_singleton.mpr (.inl ?_)⟩
          obtain hempty | hends := h.fresh hfresh
          · -- Nothing has been written and no part has begun, so this is the template's beginning.
            have hleads := h.leads
            rw [hempty, Bool.and_true] at hleads
            obtain rfl : base = none := by simpa using hleads.symm
            exact .inl (h.written_eq hempty)
          · exact .inr hends

end Assembly

/-! ### Programs that write marks -/

namespace Delivery

/-- An output that is written for marks, wherever the pen stands, or that ends in the overflow in
place of them. -/
inductive Follows : Delivery → Except Overflow (List Mark) → Prop
  | ok {text : String} {marks : List Mark} (h : ∀ pen : Pen, ∃ final : Pen,
      Mark.Aligned marks pen final ∧ final.written = pen.written ++ text) :
      Follows (.ofText text) (.ok marks)
  | overflow {d : Delivery} {e : Overflow} (h : d.stopped = some (.overflow e)) :
      Follows d (.error e)

variable {d later : Delivery} {result result' : Except Overflow (List Mark)}

/-- Nothing comes after an output that ended early. -/
theorem append_of_stopped {e : Abort} (h : d.stopped = some e) (later : Delivery) :
    d.append later = d := by
  rw [append, h]

/-- Nothing is written for no marks. -/
theorem follows_nothing : nothing.Follows (.ok []) :=
  .ok fun pen => ⟨pen, ⟨[], .nil, nofun⟩, String.append_empty.symm⟩

/-- Outputs one after the other are written for marks one after the other. -/
theorem Follows.append (h : d.Follows result) (hlater : later.Follows result') :
    (d.append later).Follows (do return (← result) ++ (← result')) := by
  cases h with
  | overflow hstopped =>
      rw [append_of_stopped hstopped]
      exact .overflow hstopped
  | ok htext =>
      cases hlater with
      | overflow hstopped => exact .overflow hstopped
      | ok htext' =>
          refine .ok fun pen => ?_
          obtain ⟨next, haligned, hnext⟩ := htext pen
          obtain ⟨final, haligned', hfinal⟩ := htext' next
          refine ⟨final, haligned.append haligned', ?_⟩
          rw [hfinal, hnext, String.append_assoc]
          rfl

/-- Rows one after the other. -/
theorem follows_rows {rows : List ValueSet} {output : ValueSet → Delivery}
    {marks : ValueSet → Except Overflow (List Mark)}
    (h : ∀ row ∈ rows, (output row).Follows (marks row)) :
    (rows.foldr (fun row later => (output row).append later) nothing).Follows
      (do return (← rows.mapM marks).flatten) := by
  induction rows with
  | nil => exact follows_nothing
  | cons row rest ih =>
      obtain ⟨hrow, hrest⟩ := List.forall_mem_cons.mp h
      have happend := hrow.append (ih hrest)
      simpa [List.mapM_cons] using happend

end Delivery

namespace Piece

variable {o : LayoutOptions} {vs : ValueSet} {base : Option String} {a : Assembly} {pen : Pen}
  {found later : List Piece} {result result' : Except Overflow (List Mark)}

/-- Pieces that are written for marks, wherever the program stands that they are added to, or that
end it in the overflow in place of them. -/
inductive Follow (o : LayoutOptions) (vs : ValueSet) (found : List Piece) :
    Except Overflow (List Mark) → Prop
  | ok {marks : List Mark} (h : ∀ {base : Option String} {a : Assembly} {pen : Pen},
      a.Stands vs base pen → ∃ final, (found.foldl (Assembly.add o) a).Stands vs base final ∧
        Mark.Aligned marks pen final) : Follow o vs found (.ok marks)
  | overflow {e : Overflow} (h : ∀ {base : Option String} {a : Assembly} {pen : Pen},
      a.Stands vs base pen →
        ((found.foldl (Assembly.add o) a).program.outcome vs).stopped = some (.overflow e)) :
      Follow o vs found (.error e)

/-- What ended early has ended, whatever is added. -/
theorem stopped_foldl {e : Abort} (found : List Piece)
    (h : (a.program.outcome vs).stopped = some e) :
    ((found.foldl (Assembly.add o) a).program.outcome vs).stopped = some e := by
  induction found generalizing a with
  | nil => exact h
  | cons piece rest ih =>
      refine ih ?_
      cases piece with
      | text text => rwa [Assembly.add, Assembly.outcome_write, Delivery.append_of_stopped h]
      | freshLine depth =>
          obtain hadd | hadd := a.add_freshLine o depth
          · rwa [hadd]
          · rwa [hadd, Assembly.outcome_write, Delivery.append_of_stopped h]
      | step chunk =>
          rwa [Assembly.program_step, Program.outcome_append, Delivery.append_of_stopped h]

/-- No pieces. -/
theorem Follow.nil : Follow o vs [] (.ok []) :=
  .ok fun ha => ⟨_, ha, [], .nil, nofun⟩

/-- Pieces behind other pieces. -/
theorem Follow.append (h : Follow o vs found result) (hlater : Follow o vs later result') :
    Follow o vs (found ++ later) (do return (← result) ++ (← result')) := by
  cases h with
  | overflow hstopped =>
      refine .overflow fun ha => ?_
      rw [List.foldl_append]
      exact stopped_foldl later (hstopped ha)
  | ok hfound =>
      cases hlater with
      | overflow hstopped =>
          refine .overflow fun ha => ?_
          obtain ⟨next, hnext, -⟩ := hfound ha
          rw [List.foldl_append]
          exact hstopped hnext
      | ok hlater =>
          refine .ok fun ha => ?_
          obtain ⟨next, hnext, haligned⟩ := hfound ha
          obtain ⟨final, hfinal, haligned'⟩ := hlater hnext
          rw [List.foldl_append]
          exact ⟨final, hfinal, haligned.append haligned'⟩

/-- The program of a row or an alternative is written from its beginning on. -/
theorem Follow.part (h : Follow o vs found result) :
    ((Program.assemble o found).outcome vs).Follows (do return .enter :: (← result)) := by
  cases h with
  | overflow hstopped => exact .overflow (hstopped (Assembly.stands_empty vs none))
  | @ok marks hfound =>
      obtain ⟨-, ⟨⟨text, htext, -⟩, -, -⟩, -⟩ := hfound (Assembly.stands_empty vs none)
      have houtcome : (Program.assemble o found).outcome vs = .ofText text := htext
      rw [houtcome]
      refine .ok fun pen => ?_
      obtain ⟨final, hfinal, haligned⟩ := hfound (Assembly.stands_empty vs (some pen.written))
      obtain ⟨own, hown, hwritten⟩ := hfinal.output
      obtain rfl : own = text := congrArg Delivery.accepted (hown.symm.trans htext)
      exact ⟨final, Mark.Writes.enter.aligned.append haligned, hwritten⟩

/-- A step that puts out rows or an alternative. -/
theorem follow_step {chunk : Chunk}
    (h : (Program.renderChunk chunk vs).outcome.Follows result) :
    Follow o vs [.step chunk] (do return (← result) ++ [.leave]) := by
  generalize houtcome : (Program.renderChunk chunk vs).outcome = d at h
  cases h with
  | overflow hstopped =>
      refine .overflow fun {base a pen} ha => ?_
      obtain ⟨own, hown, -⟩ := ha.output
      rw [List.foldl_cons, List.foldl_nil, Assembly.program_step, Program.outcome_append,
        Program.outcome_singleton, hown, houtcome]
      exact hstopped
  | ok htext =>
      refine .ok fun {base a pen} ha => ⟨_, ha.step o houtcome, ?_⟩
      obtain ⟨final, haligned, hwritten⟩ := htext pen
      rw [← hwritten]
      exact haligned.append Mark.Writes.leave.aligned

/-! ### Texts -/

/-- Pieces that are written as a text. -/
structure Print (o : LayoutOptions) (vs : ValueSet) (found : List Piece) (text : String) :
    Prop where
  stands : ∀ {base : Option String} {a : Assembly} {pen : Pen}, a.Stands vs base pen →
    (found.foldl (Assembly.add o) a).Stands vs base ⟨pen.written ++ text, false⟩

variable {s t : String}

/-- Static text. -/
theorem print_text (text : String) : Print o vs [.text text] text :=
  ⟨fun ha => ha.write o text⟩

/-- A step that puts out a text. -/
theorem print_step {chunk : Chunk} {text : String}
    (h : (Program.renderChunk chunk vs).outcome = .ofText text) : Print o vs [.step chunk] text :=
  ⟨fun ha => ha.step o h⟩

/-- Texts one after the other. -/
theorem Print.append (h : Print o vs found s) (hlater : Print o vs later t) :
    Print o vs (found ++ later) (s ++ t) := by
  refine ⟨fun ha => ?_⟩
  have hboth := hlater.stands (h.stands ha)
  rwa [← List.foldl_append, String.append_assoc] at hboth

/-- A text is a mark. -/
theorem Print.follow (h : Print o vs found s) : Follow o vs found (.ok [.text s]) :=
  .ok fun ha => ⟨_, h.stands ha, Mark.Writes.text.aligned⟩

/-- The opening tag of a block element behind a fresh line is a mark. -/
theorem Print.follow_block (h : Print o vs found s) (hlayout : o.HasLines) (depth : ℕ) :
    Follow o vs (.freshLine depth :: found) (.ok [.block (o.lineBreak depth) s]) := by
  refine .ok fun ha => ?_
  obtain ⟨mid, hmid, haligned⟩ := ha.freshLine hlayout depth
  exact ⟨_, h.stands hmid, haligned s⟩

end Piece

/-! ### Trees -/

section Trees

variable {o : LayoutOptions} {f : Schema} {vs : ValueSet}

/-- What is offered is read by its handle and by its name. -/
theorem Schema.Offers.reads {w : Var} {name : SlotName} {level : TrustLevel}
    (h : f.Offers w name level) (hwf : f.WellFormed) (hschema : vs.schema = f) :
    vs.getScalar w = .ok (vs.valueAt w.index) ∧
      vs.scalarByName name.text = some (vs.valueAt w.index) := by
  obtain ⟨slot, hfind, hindex, -⟩ := h.scalar?_eq hwf
  refine ⟨ValueSet.getScalar_of_attached (by rw [hschema, h.attached]), ?_⟩
  rw [ValueSet.scalarByName, hschema, hfind, Option.map_some, hindex]

/-- A subsection puts out its program once for every row. -/
theorem Program.outcome_rows {t : Tag} {program : Program} (hparent : t.parent = vs.schema.id)
    (hfailure : (vs.streamAt t.index).failure = none) :
    (renderChunk (.subsection t program) vs).outcome =
      (vs.streamAt t.index).rows.foldr (fun row later => (program.outcome row).append later)
        .nothing := by
  rw [renderChunk, ValueSet.getStream_of_parent hparent]
  dsimp only
  rw [hfailure]
  induction (vs.streamAt t.index).rows with
  | nil => rfl
  | cons row rest ih =>
      rw [List.foldr_cons, List.foldr_cons, Rendering.outcome_append, outcome_renderFrom, ih]

/-- What begins a line within an element is a mark. -/
theorem Element.follow_breakPieces (o : LayoutOptions) (vs : ValueSet) (depth : ℕ) (e : Element) :
    Piece.Follow o vs (e.breakPieces o depth) (.ok (e.breakMarks o depth)) := by
  rw [breakPieces, breakMarks]
  split
  · exact (Piece.print_text _).follow
  · exact .nil

/-- A template that renders to a text puts it out. -/
theorem Template.outcome_of_renderToString {t : Template} {text : String}
    (hschema : vs.schema = t.schema) (h : t.renderToString vs = .ok text) :
    t.program.outcome vs = .ofText text := by
  rw [renderToString, render, if_pos (by rw [hschema]), Rendering.deliver, Delivery.run_none,
    String.empty_append] at h
  rw [← Program.outcome_render, Rendering.outcome]
  dsimp only at h
  split at h
  · rename_i hstopped
    cases h
    rw [hstopped]
    rfl
  · cases h

variable [UrlReader]

/-- A value is written as its content. -/
theorem Value.Compiles.prints (place : Place) {value : Value} {piece : Piece} (hwf : f.WellFormed)
    (hschema : vs.schema = f) (h : value.Compiles f place.required piece) :
    Piece.Print o vs [piece] (value.content place vs) := by
  cases h with
  | concrete hcheck =>
      rw [content, hcheck]
      exact Piece.print_text _
  | deferred hoffer =>
      obtain ⟨hget, hname⟩ := hoffer.reads hwf hschema
      rw [content, hname]
      refine Piece.print_step ?_
      rw [Program.renderChunk, hget]
      exact Rendering.outcome_write _

/-- A text is written as its content, reflowed. -/
theorem Value.TextCompiles.follows {depth : ℕ} {width : Option ℕ} {value : Value} {piece : Piece}
    (hwf : f.WellFormed) (hschema : vs.schema = f)
    (h : value.TextCompiles o f depth width piece) :
    Piece.Follow o vs [piece] (do
      return [.text (← (o.reflow depth width).apply (value.content .text vs))]) := by
  cases h with
  | @concrete s checked text hcheck hreflow =>
      have hcontent : (Value.concrete s).content .text vs = checked := by
        rw [content, Place.required, hcheck]
        rfl
      rw [hcontent, hreflow]
      exact (Piece.print_text text).follow
  | @deferred v w hoffer =>
      obtain ⟨hget, hname⟩ := hoffer.reads hwf hschema
      have hcontent : (Value.deferred v).content .text vs = vs.valueAt w.index := by
        rw [content, hname]
        rfl
      rw [hcontent]
      by_cases hwidth : 0 < width.getD o.textWidth
      · rw [if_pos hwidth]
        cases hreflow : (o.reflow depth width).apply (vs.valueAt w.index) with
        | ok filled =>
            refine (Piece.print_step ?_).follow
            simp only [Program.renderChunk, hget, hreflow]
            exact Rendering.outcome_write filled
        | error e =>
            refine .overflow fun ha => ?_
            obtain ⟨own, hown, -⟩ := ha.output
            rw [List.foldl_cons, List.foldl_nil, Assembly.program_step, Program.outcome_append,
              Program.outcome_singleton, hown]
            simp only [Program.renderChunk, hget, hreflow]
            rfl
      · have hzero : (o.reflow depth width).width = 0 := Nat.eq_zero_of_not_pos hwidth
        rw [if_neg hwidth, Reflow.apply_of_width_eq_zero hzero]
        refine (Piece.print_step ?_).follow
        rw [Program.renderChunk, hget]
        exact Rendering.outcome_write _

/-- An attribute is written as it evaluates. -/
theorem Attribute.Compiles.prints {a : Attribute} {found : List Piece} (hwf : f.WellFormed)
    (hschema : vs.schema = f) (h : a.Compiles f found) :
    Piece.Print o vs found (a.evaluate vs) := by
  obtain ⟨-, hvalue⟩ := h
  have hpiece := hvalue.prints (o := o) a.place hwf hschema
  exact ((Piece.print_text s!" {a.name}=\"").append hpiece).append (Piece.print_text "\"")

/-- Attributes are written one after the other. -/
theorem Attribute.prints_of_forall₂ {attributes : List Attribute} {each : List (List Piece)}
    (hwf : f.WellFormed) (hschema : vs.schema = f)
    (h : List.Forall₂ (Attribute.Compiles f) attributes each) {found : List Piece} {s : String}
    (hfound : Piece.Print o vs found s) :
    Piece.Print o vs (found ++ each.flatten)
      (s ++ String.join (attributes.map (·.evaluate vs))) := by
  induction h generalizing found s with
  | nil => simpa using hfound
  | cons hattribute _ ih =>
      have hnext := ih (hfound.append (hattribute.prints hwf hschema))
      rwa [List.append_assoc, String.append_assoc, ← List.flatten_cons, ← String.join_cons,
        ← List.map_cons] at hnext

/-- An opening tag is written as it evaluates. -/
theorem Element.OpeningCompiles.prints {e : Element} {opening : List Piece} (hwf : f.WellFormed)
    (hschema : vs.schema = f) (h : e.OpeningCompiles f opening) :
    Piece.Print o vs opening (e.evaluate vs) := by
  obtain ⟨hattributes⟩ := h
  have hname : Piece.Print o vs [.text s!"<{e.name}"] s!"<{e.name}" := Piece.print_text _
  exact (Attribute.prints_of_forall₂ hwf hschema hattributes hname).append (Piece.print_text _)

/-- An opening tag is a mark, behind a fresh line if the element is a block. -/
theorem Element.OpeningCompiles.follows {e : Element} {opening : List Piece}
    (hlayout : o.HasLines) (hwf : f.WellFormed) (hschema : vs.schema = f)
    (h : e.OpeningCompiles f opening) (depth : ℕ) :
    Piece.Follow o vs (e.startPieces o depth ++ opening) (.ok [e.openingMark o depth vs]) := by
  have hopening := h.prints (o := o) hwf hschema
  rw [startPieces, openingMark]
  by_cases hstyle : e.style = .block
  · have hblock : e.isBlock o = true := by simp [isBlock, hstyle, hlayout.breaks]
    rw [if_pos hblock, if_pos hstyle]
    exact hopening.follow_block hlayout depth
  · have hinline : e.isBlock o = false := by simp [isBlock, hstyle]
    rw [if_neg (by simp [hinline]), if_neg hstyle]
    exact hopening.follow

namespace Node

mutual

/-- **Pieces write the marks of their tree.** -/
theorem Compiles.follows (hlayout : o.HasLines) {f : Schema} {depth : ℕ} {node : Node}
    {found : List Piece} {vs : ValueSet} (hwf : f.WellFormed) (hschema : vs.schema = f)
    (hfitted : vs.Fitted) :
    node.Compiles o f depth found → Piece.Follow o vs found (node.marks o depth vs)
  | .closed _ hclosed hopening => by
      rw [marks, if_pos hclosed]
      exact hopening.follows hlayout hwf hschema depth
  | @Compiles.paired _ _ _ depth e contents _ _ _ hclosed hopening hbody => by
      have hstart := (hopening.follows hlayout hwf hschema depth).append
        (e.follow_breakPieces o vs (e.innerDepth o depth))
      have hwhole := ((hstart.append (hbody.follows hlayout hwf hschema hfitted)).append
        (e.follow_breakPieces o vs depth)).append (Piece.print_text s!"</{e.name}>").follow
      rw [marks, if_neg (by simp [hclosed])]
      dsimp only
      cases hmarks : childMarks o (e.innerDepth o depth) contents vs with
      | ok body =>
          rw [hmarks] at hwhole
          exact hwhole
      | error overflow =>
          rw [hmarks] at hwhole
          exact hwhole
  | .text hvalue => by
      rw [marks]
      exact hvalue.follows hwf hschema
  | .raw hvalue => by
      rw [marks]
      exact (hvalue.prints .raw hwf hschema).follow
  | .multi hbody => by
      rw [marks]
      exact hbody.follows hlayout hwf hschema hfitted
  | @Compiles.subsection _ _ _ _ _ _ prototype t found hname htag hfound => by
      subst hname
      obtain ⟨failure, schemas, rows⟩ := hfitted
      have hchild := hwf.child (List.mem_of_getElem? htag)
      have hparent : t.parent = vs.schema.id := by rw [hschema, (hwf.coherent.tag_at htag).2]
      rw [marks, ValueSet.rowsNamed, hschema, hwf.subsection?_eq htag]
      have hrows : Delivery.Follows
          (Program.renderChunk (.subsection t (Program.assemble o found)) vs).outcome
          (do return (← (vs.streamAt t.index).rows.mapM fun row => do
            return .enter :: (← marks o depth prototype row)).flatten) := by
        rw [Program.outcome_rows hparent (failure t.index)]
        refine Delivery.follows_rows fun row hrow => ?_
        obtain ⟨sub, hsub, hrowSchema⟩ := schemas t.index row hrow
        rw [hschema, htag] at hsub
        cases hsub
        exact (hfound.follows hlayout hchild hrowSchema (rows t.index row hrow)).part
      simpa only [bind_assoc, pure_bind] using Piece.follow_step hrows
  | .switch hcases hdefault => by
      rw [marks]
      refine Piece.follow_step ?_
      rw [Program.renderChunk_switch]
      exact getD_of_rel (hcases.follows hlayout hwf hschema hfitted)
        fun _ => hdefault.follows hlayout hwf hschema hfitted

/-- Pieces for children write their marks. -/
theorem ChildrenCompile.follows (hlayout : o.HasLines) {f : Schema} {depth : ℕ}
    {contents : List Node} {found : List Piece} {vs : ValueSet} (hwf : f.WellFormed)
    (hschema : vs.schema = f) (hfitted : vs.Fitted) : ChildrenCompile o f depth contents found →
      Piece.Follow o vs found (childMarks o depth contents vs)
  | .nil => .nil
  | .cons hchild hrest => (hchild.follows hlayout hwf hschema hfitted).append
      (hrest.follows hlayout hwf hschema hfitted)

/-- The case that is chosen writes its marks, if one is. -/
theorem CasesCompile.follows (hlayout : o.HasLines) {f : Schema} {depth : ℕ}
    {cases : List (Condition × Option Node)} {programs : List (Condition × Option Program)}
    {vs : ValueSet} (hwf : f.WellFormed) (hschema : vs.schema = f) (hfitted : vs.Fitted) :
    CasesCompile o f depth cases programs →
      Option.Rel (fun (r : Rendering) marks => r.outcome.Follows marks)
        (Program.renderCases programs vs) (caseMarks o depth cases vs)
  | .nil => .none
  | @CasesCompile.cons _ _ _ _ condition _ _ _ _ houtput hrest => by
      rw [Program.renderCases, caseMarks]
      by_cases hholds : condition vs
      · rw [if_pos hholds, if_pos hholds]
        exact .some (houtput.follows hlayout hwf hschema hfitted)
      · rw [if_neg hholds, if_neg hholds]
        exact hrest.follows hlayout hwf hschema hfitted

/-- An alternative writes its marks. -/
theorem OutputCompiles.follows (hlayout : o.HasLines) {f : Schema} {depth : ℕ}
    {output : Option Node} {program : Option Program} {vs : ValueSet} (hwf : f.WellFormed)
    (hschema : vs.schema = f) (hfitted : vs.Fitted) : OutputCompiles o f depth output program →
      (Program.renderOutput program vs).outcome.Follows (outputMarks o depth output vs)
  | .none => Delivery.follows_nothing
  | .some hfound => by
      rw [Program.renderOutput, Program.outcome_renderFrom, outputMarks]
      exact (hfound.follows hlayout hwf hschema hfitted).part

end

/-- **Block elements begin a line.** In every rendering of a tree that is compiled with line
breaks and an indentation of spaces and tabs, the opening tag of a block element stands at the
beginning of the output or of a line, unless it is the first that a row or an alternative
writes. -/
theorem openings_fresh {node : Node} {scope : Scope} {t : Template} {next : ℕ} {text : String}
    (hlayout : o.HasLines) (hwf : scope.schema.WellFormed)
    (hcompile : node.compile o scope = (.ok t, next)) (hschema : vs.schema = t.schema)
    (hfitted : vs.Fitted) (hrender : t.renderToString vs = .ok text) :
    ∃ marks openings leads, node.marks o o.rootDepth vs = .ok marks ∧
      Mark.Run marks ⟨"", false⟩ ⟨text, leads⟩ openings ∧
      ∀ opening ∈ openings, (∃ after, text = opening.before ++ opening.tag ++ after) ∧
        (opening.Fresh ∨ opening.leads = true) := by
  obtain ⟨hwf', -, found, hfound, hprogram⟩ := compiles_of_compile hwf hcompile
  have houtcome := Template.outcome_of_renderToString hschema hrender
  rw [hprogram] at houtcome
  have hfollow := hfound.follows hlayout hwf' hschema hfitted
  generalize node.marks o o.rootDepth vs = result at hfollow ⊢
  have hbegin := Assembly.stands_empty vs none
  cases hfollow with
  | overflow hstopped =>
      have hsome : ((Program.assemble o found).outcome vs).stopped = _ := hstopped hbegin
      rw [houtcome] at hsome
      cases hsome
  | @ok marks hmarks =>
      obtain ⟨⟨written, leads⟩, hfinal, openings, hrun, hopenings⟩ := hmarks hbegin
      obtain ⟨own, hown, hwritten⟩ := hfinal.output
      obtain rfl : own = text := congrArg Delivery.accepted (hown.symm.trans houtcome)
      obtain rfl : written = own := hwritten.trans String.empty_append
      exact ⟨marks, openings, leads, rfl, hrun, fun opening hmem =>
        ⟨hrun.extends.2 opening hmem, hopenings opening hmem⟩⟩

end Node

end Trees

/-! ### Paragraphs in rows -/

namespace Node

/-- A paragraph without contents. -/
def paragraph : Node :=
  .element ⟨"p", [], .block, false, false, none⟩ []

/-- A paragraph for every row. -/
def paragraphRows : Node :=
  .subsection "items" paragraph

/-- A paragraph in front of paragraphs for two rows. -/
theorem openings_fresh_paragraphs : ∃ t next vs,
    (multi none [paragraph, paragraphRows]).compile .tidy (.newRoot 1) = (.ok t, next) ∧
      t.bind [.rows (.name "items") [[], []]] = .ok vs ∧
      t.renderToString vs = .ok "<p>\n  \n</p><p>\n  \n</p><p>\n  \n</p>" ∧
      ∃ marks openings leads, (multi none [paragraph, paragraphRows]).marks .tidy 0 vs = .ok marks ∧
        Mark.Run marks ⟨"", false⟩ ⟨"<p>\n  \n</p><p>\n  \n</p><p>\n  \n</p>", leads⟩ openings ∧
        ∀ opening ∈ openings, opening.Fresh ∨ opening.leads = true := by
  have hruns : (multi none [paragraph, paragraphRows]).runs .tidy
      [.rows (.name "items") [[], []]] (fun t vs => decide (t.renderToString vs =
        .ok "<p>\n  \n</p><p>\n  \n</p><p>\n  \n</p>")) = true := by
    decide +kernel
  obtain ⟨t, next, vs, hcompile, hbind, hrenders⟩ := exists_of_runs hruns
  have hrender := of_decide_eq_true hrenders
  have hroot : (Scope.newRoot 1).schema.WellFormed := Schema.wellFormed_of_empty rfl rfl
  have hindent : LayoutOptions.tidy.indent.toList.all Assembly.isIndentation = true := by
    decide +kernel
  obtain ⟨marks, openings, leads, hmarks, hrun, hopenings⟩ := openings_fresh
    ⟨rfl, List.all_eq_true.mp hindent⟩ hroot hcompile (Schema.bound_of_bind hbind).schema_eq
    (Binding.fitted_of_bind hbind) hrender
  exact ⟨t, next, vs, hcompile, hbind, hrender, marks, openings, leads, hmarks, hrun,
    fun opening hmem => (hopenings opening hmem).2⟩

/-- **The second of two paragraphs that are rows begins no line**, however the marks of the tree
are put into the output. -/
theorem not_fresh_paragraphRows : ∃ t next vs text marks,
    paragraphRows.compile .tidy (.newRoot 1) = (.ok t, next) ∧
      t.bind [.rows (.name "items") [[], []]] = .ok vs ∧ t.renderToString vs = .ok text ∧
      paragraphRows.marks .tidy 0 vs = .ok marks ∧
      ∀ openings leads, Mark.Run marks ⟨"", false⟩ ⟨text, leads⟩ openings →
        ∃ opening ∈ openings, opening.before = "<p>\n  \n</p>" ∧ ¬opening.Fresh := by
  have hruns : paragraphRows.runs .tidy [.rows (.name "items") [[], []]] (fun t vs =>
      (t.renderToString vs).toBool && decide (paragraphRows.marks .tidy 0 vs =
        .ok [.enter, .block "\n" "<p>", .text "\n  ", .text "\n", .text "</p>",
          .enter, .block "\n" "<p>", .text "\n  ", .text "\n", .text "</p>", .leave])) = true := by
    decide +kernel
  obtain ⟨t, next, vs, hcompile, hbind, hboth⟩ := exists_of_runs hruns
  rw [Bool.and_eq_true, decide_eq_true_eq] at hboth
  obtain ⟨hrenders, hmarks⟩ := hboth
  cases hrender : t.renderToString vs with
  | error e =>
      rw [hrender] at hrenders
      cases hrenders
  | ok text =>
      refine ⟨t, next, vs, text, _, hcompile, hbind, hrender, hmarks, fun openings leads hrun => ?_⟩
      -- Every mark up to the second opening tag can be written in one way only.
      iterate 7 obtain _ | ⟨⟨⟩, hrun⟩ := hrun
      exact ⟨⟨"<p>\n  \n</p>", "<p>", true⟩, by simp, rfl, by decide +kernel⟩

end Node

end TrustedHtml
