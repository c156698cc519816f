import TrustedHtml.Proofs.BindingMeaning
import TrustedHtml.Proofs.QuotedText
import TrustedHtml.Proofs.Wiring
import TrustedHtml.Values.Dump

/-!
# Descriptions Tell Structures Apart

Schemas and value sets are described over several lines, and two of them that are described in the
same way match: nothing but identities is left out of a description. Names and values are
arbitrary strings, and they may look like parts of a description; but a literal says where it
ends and stays on its line, so the lines can be told apart, and what kind of line it is can be
seen from what stands behind the indentation. A description is read from the front: the head of
a schema, a block for each variable, a block for each subsection, in which descriptions are
nested one or two levels deeper, and the closing line. Reading never looks at what follows, so
nested descriptions are read in the same way.

## Main definitions

* `Schema.Matches`: schemas that differ in identities only.
* `ValueSet.Matches`: values that read the same, for such schemas.
* `Text.Marked`, `Text.Begins`: kinds of lines.

## Main results

* `Text.blocks_inj`: **numbered blocks are read one after the other.**
* `Schema.WellFormed.lines_append_inj`, `ValueSet.Fitted.lines_append_inj`: a description
  determines what is described, and what follows.
* `Session.Reached.dump_eq_iff`: **descriptions tell structures apart.**
-/

namespace TrustedHtml

/-! ### Kinds of lines -/

namespace Text

variable {depth : ℕ} {mark other line : String} {marks lines rest later : List String}

/-- A line with a mark behind its indentation. -/
def Marked (depth : ℕ) (mark line : String) : Prop :=
  ∃ text, line = tabs depth ++ (mark ++ text)

/-- Marks that cannot stand at the same place. -/
def Apart (mark other : String) : Prop :=
  ¬mark.toList <+: other.toList ∧ ¬other.toList <+: mark.toList

instance (mark other : String) : Decidable (Apart mark other) :=
  inferInstanceAs (Decidable (_ ∧ _))

/-- Lines the first of which has one of some marks. -/
def Begins (depth : ℕ) (marks lines : List String) : Prop :=
  ∃ mark ∈ marks, ∃ line rest, lines = line :: rest ∧ Marked depth mark line

/-- A line does not have both of two marks that are apart. -/
theorem Marked.not_apart (h : Marked depth mark line) (h' : Marked depth other line) :
    ¬Apart mark other := by
  obtain ⟨text, rfl⟩ := h
  obtain ⟨text', heq⟩ := h'
  rw [String.append_right_inj] at heq
  have hmark : mark.toList <+: (mark ++ text).toList := by
    rw [String.toList_append]
    exact List.prefix_append _ _
  have hother : other.toList <+: (mark ++ text).toList := by
    rw [heq, String.toList_append]
    exact List.prefix_append _ _
  rintro ⟨hnot, hnot'⟩
  exact (List.prefix_or_prefix_of_prefix hmark hother).elim hnot hnot'

/-- Lines that begin in one way do not begin in another. -/
theorem Begins.not_marked (h : Begins depth marks (line :: rest))
    (hapart : ∀ other ∈ marks, Apart mark other) : ¬Marked depth mark line := by
  obtain ⟨other, hother, _, _, heq, hmarked⟩ := h
  obtain ⟨rfl, -⟩ := List.cons.inj heq
  exact fun hmark => hmark.not_apart hmarked (hapart other hother)

/-- The closing line. -/
theorem begins_close (depth : ℕ) (rest : List String) :
    Begins depth ["\x7d"] ((tabs depth ++ "\x7d") :: rest) :=
  ⟨"\x7d", List.mem_singleton_self _, _, _, rfl, "", by rw [String.append_empty]⟩

/-! ### Numbered blocks -/

variable {α β : Type} {f g : α × ℕ → List String} {xs ys : List α} {R : α → α → ℕ → Prop}

/-- Blocks with a mark begin with it, or as what follows if there is none. -/
theorem Begins.blocks (hf : ∀ x, Begins depth [mark] (f x)) (hrest : Begins depth marks rest)
    (xs : List (α × ℕ)) : Begins depth (mark :: marks) (xs.flatMap f ++ rest) := by
  cases xs with
  | nil =>
      obtain ⟨other, hother, hbegins⟩ := hrest
      exact ⟨other, List.mem_cons_of_mem _ hother, hbegins⟩
  | cons x xs =>
      obtain ⟨other, hother, line, more, hlines, hmarked⟩ := hf x
      obtain rfl := List.mem_singleton.mp hother
      refine ⟨other, List.mem_cons_self, line, more ++ xs.flatMap f ++ rest, ?_, hmarked⟩
      rw [List.flatMap_cons, hlines]
      simp only [List.cons_append, List.append_assoc]

/-- **Numbered blocks are read one after the other**, if what follows all of them begins with other
marks, and if every block can be read in front of what begins with any of these marks. -/
theorem blocks_inj (hf : ∀ x, Begins depth [mark] (f x)) (hg : ∀ x, Begins depth [mark] (g x))
    (hapart : ∀ other ∈ marks, Apart mark other)
    (hrest : Begins depth marks rest) (hlater : Begins depth marks later)
    (hitem : ∀ x ∈ xs, ∀ y ∈ ys, ∀ i rest later, Begins depth (mark :: marks) rest →
      Begins depth (mark :: marks) later → f (x, i) ++ rest = g (y, i) ++ later →
        R x y i ∧ rest = later) (number : ℕ)
    (h : (xs.zipIdx number).flatMap f ++ rest = (ys.zipIdx number).flatMap g ++ later) :
    xs.length = ys.length ∧
      (∀ i (hi : i < xs.length) (hi' : i < ys.length), R xs[i] ys[i] (number + i)) ∧
      rest = later := by
  induction xs generalizing ys number with
  | nil =>
      cases ys with
      | nil => exact ⟨rfl, nofun, h⟩
      | cons y ys =>
          obtain ⟨other, hother, line, more, hlines, hmarked⟩ := hg (y, number)
          obtain rfl := List.mem_singleton.mp hother
          rw [List.zipIdx_cons, List.flatMap_cons, hlines] at h
          rw [List.zipIdx_nil, List.flatMap_nil, List.nil_append] at h
          rw [h] at hrest
          exact absurd hmarked (hrest.not_marked hapart)
  | cons x xs ih =>
      cases ys with
      | nil =>
          obtain ⟨other, hother, line, more, hlines, hmarked⟩ := hf (x, number)
          obtain rfl := List.mem_singleton.mp hother
          rw [List.zipIdx_cons, List.flatMap_cons, hlines] at h
          rw [List.zipIdx_nil, List.flatMap_nil, List.nil_append] at h
          rw [← h] at hlater
          exact absurd hmarked (hlater.not_marked hapart)
      | cons y ys =>
          rw [List.zipIdx_cons, List.zipIdx_cons, List.flatMap_cons, List.flatMap_cons,
            List.append_assoc, List.append_assoc] at h
          obtain ⟨hfirst, hmore⟩ := hitem x List.mem_cons_self y List.mem_cons_self _ _ _
            (hrest.blocks hf _) (hlater.blocks hg _) h
          obtain ⟨hlength, hall, heq⟩ := ih (fun x hx y hy =>
            hitem x (List.mem_cons_of_mem _ hx) y (List.mem_cons_of_mem _ hy)) (number + 1) hmore
          refine ⟨congrArg (· + 1) hlength, fun i hi hi' => ?_, heq⟩
          cases i with
          | zero => exact hfirst
          | succ i =>
              have hnext := hall i (Nat.lt_of_succ_lt_succ hi) (Nat.lt_of_succ_lt_succ hi')
              rwa [Nat.add_assoc, Nat.add_comm 1] at hnext

/-- Blocks that are the same one by one are the same. -/
theorem blocks_congr (hlength : xs.length = ys.length) (number : ℕ)
    (h : ∀ i (hi : i < xs.length) (hi' : i < ys.length),
      f (xs[i], number + i) = g (ys[i], number + i)) :
    (xs.zipIdx number).flatMap f = (ys.zipIdx number).flatMap g := by
  induction xs generalizing ys number with
  | nil =>
      obtain rfl := List.eq_nil_of_length_eq_zero hlength.symm
      rfl
  | cons x xs ih =>
      cases ys with
      | nil => cases hlength
      | cons y ys =>
          have hrest := ih (Nat.succ_injective hlength) (number + 1) fun i hi hi' => by
            rw [Nat.add_assoc, Nat.add_comm 1]
            exact h (i + 1) (Nat.succ_lt_succ hi) (Nat.succ_lt_succ hi')
          have hfirst : f (x, number) = g (y, number) := h 0 (Nat.succ_pos _) (Nat.succ_pos _)
          rw [List.zipIdx_cons, List.zipIdx_cons, List.flatMap_cons, List.flatMap_cons, hrest,
            hfirst]

/-- Blocks that depend on a part of what they are for. -/
theorem blocks_map {γ δ : Type} (key : γ → δ) {f : γ × ℕ → List String} {g : δ × ℕ → List String}
    {items : List γ} (h : ∀ i item, items[i]? = some item → f (item, i) = g (key item, i)) :
    items.zipIdx.flatMap f = (items.map key).zipIdx.flatMap g := by
  rw [List.zipIdx_map, List.flatMap_map]
  refine List.flatMap_congr fun item hitem => ?_
  obtain ⟨item, i⟩ := item
  exact h i item (List.mem_zipIdx_iff_getElem?.mp hitem)

/-! ### Numbers -/

/-- A number is read up to what is no digit. -/
theorem repr_append_inj {m n : ℕ} {mark s t : String} {c : Char} {cs : List Char}
    (hmark : mark.toList = c :: cs) (hc : c.isDigit = false)
    (h : m.repr ++ (mark ++ s) = n.repr ++ (mark ++ t)) : s = t := by
  have hdigits : ∀ k : ℕ, c ∉ k.repr.toList := by
    intro k hmem
    rw [Nat.repr_eq_ofList_toDigits, String.toList_ofList] at hmem
    rw [Nat.isDigit_of_mem_toDigits (by decide) (by decide) hmem] at hc
    cases hc
  rw [← String.toList_inj, String.toList_append, String.toList_append, String.toList_append,
    String.toList_append, hmark] at h
  obtain ⟨-, hrest⟩ := append_cons_inj (hdigits m) (hdigits n) h
  exact String.toList_inj.mp (List.append_cancel_left hrest)

end Text

/-! ### Parts of lines -/

/-- The levels have different names. -/
theorem TrustLevel.name_inj {a b : TrustLevel} (h : a.name = b.name) : a = b := by
  cases a <;> cases b <;> first | rfl | exact absurd h (by decide)

namespace Schema

/-- The variables, by name and level. -/
def keys (s : Schema) : List (String × TrustLevel) :=
  s.scalars.map fun v => (v.name.text, v.level)

/-- The names of the subsections. -/
def tagNames (s : Schema) : List String :=
  s.subsections.map (·.1.name.text)

/-- The name of the subsection that the schema describes, if it describes one. -/
def nestedName? (s : Schema) : Option String :=
  s.nesting.map (·.name.text)

/-- The schemas of the rows. -/
def children (s : Schema) : List Schema :=
  s.subsections.map (·.2)

/-- **Schemas match**: they are the same up to identities, and up to where they are nested. -/
inductive Matches : Schema → Schema → Prop
  | intro {a b : Schema} (strict : a.strict = b.strict) (name : a.nestedName? = b.nestedName?)
      (vars : a.keys = b.keys) (children : List.Forall₂ Matches a.children b.children) :
      Matches a b

/-- How a variable is described. -/
def keyLine (i count : ℕ) (key : String × TrustLevel) : String :=
  s!"var {i + 1}/{count}: {Text.quoted key.1}@{i} ({key.2})"

variable {a b s : Schema}

/-- What the first line tells about the subsection. -/
def nestedText : Option String → String
  | some name => " (nested, named " ++ (Text.quoted name ++ ")")
  | none => ""

/-- The first line, told by what it depends on. -/
theorem headLine_eq (title : String) (s : Schema) :
    headLine title s =
      title ++ ("\x7b strict=" ++ (toString s.strict ++ nestedText s.nestedName?)) := by
  obtain ⟨id, strict, _ | nesting, scalars, subsections⟩ := s
  · simp only [headLine, String.append_assoc]
    rfl
  · simp only [headLine, String.append_assoc]
    rfl

/-- The name of a subsection is told. -/
theorem nestedText_inj {name name' : Option String} (h : nestedText name = nestedText name') :
    name = name' := by
  cases name with
  | none =>
      cases name' with
      | none => rfl
      | some name' => exact absurd (congrArg String.length h.symm) (by simp [nestedText])
  | some name =>
      cases name' with
      | none => exact absurd (congrArg String.length h) (by simp [nestedText])
      | some name' =>
          rw [nestedText, nestedText, String.append_right_inj] at h
          rw [(Text.quoted_append_inj h).1]

/-- **The first line tells the strictness and the name.** -/
theorem headLine_inj {title : String} (h : headLine title a = headLine title b) :
    a.strict = b.strict ∧ a.nestedName? = b.nestedName? := by
  rw [headLine_eq, headLine_eq, String.append_right_inj, String.append_right_inj] at h
  have hstrict : a.strict = b.strict := by
    have hhead : ∀ (strict : Bool) (text : String),
        (toString strict ++ text).toList.head? = some (if strict then 't' else 'f') := by
      intro strict text
      rw [String.toList_append]
      cases strict <;> rfl
    have hletter := congrArg (fun text => text.toList.head?) h
    rw [hhead, hhead] at hletter
    revert hletter
    cases a.strict <;> cases b.strict <;> decide
  rw [hstrict, String.append_right_inj] at h
  exact ⟨hstrict, nestedText_inj h⟩

/-- The parts of the line of a variable. -/
theorem keyLine_eq (i count : ℕ) (key : String × TrustLevel) : keyLine i count key =
    "var " ++ ((i + 1).repr ++ ("/" ++ (count.repr ++ (": " ++ (Text.quoted key.1 ++
      ("@" ++ (i.repr ++ (" (" ++ (key.2.name ++ ")"))))))))) := by
  simp only [keyLine, String.append_assoc]
  rfl

/-- **The line of a variable tells its name and its level.** -/
theorem keyLine_inj {i m n : ℕ} {k l : String × TrustLevel} (h : keyLine i m k = keyLine i n l) :
    k = l := by
  rw [keyLine_eq, keyLine_eq, String.append_right_inj, String.append_right_inj,
    String.append_right_inj] at h
  obtain ⟨hname, hrest⟩ := Text.quoted_append_inj (Text.repr_append_inj rfl rfl h)
  rw [String.append_right_inj, String.append_right_inj, String.append_right_inj,
    String.append_left_inj] at hrest
  exact Prod.ext hname (TrustLevel.name_inj hrest)

/-! ### Schemas -/

/-- The block for a variable. -/
def keyBlock (depth count : ℕ) (key : (String × TrustLevel) × ℕ) : List String :=
  [s!"{Text.tabs depth}\t{keyLine key.2 count key.1}"]

/-- The block for the rows of a subsection. -/
def childBlock (depth count : ℕ) (child : Schema × ℕ) : List String :=
  s!"{Text.tabs depth}\tnested schema {child.2 + 1}/{count}:" :: child.1.lines (depth + 1)

/-- The line of a variable in its place tells nothing else. -/
theorem scalarLine_eq {v : Var} {i : ℕ} (h : v.index = i) (count : ℕ) :
    scalarLine i count v = keyLine i count (v.name.text, v.level) := by
  rw [scalarLine, keyLine, h]

/-- Variables are described by name and level. -/
theorem Coherent.zipIdx_scalars_eq (h : s.Coherent) (depth : ℕ) :
    (s.scalars.zipIdx.map fun (v, i) => s!"{Text.tabs depth}\t{scalarLine i s.scalars.length v}") =
      s.keys.zipIdx.flatMap (keyBlock depth s.keys.length) := by
  rw [← List.flatMap_pure_eq_map]
  refine Text.blocks_map _ fun i v hv => ?_
  rw [keyBlock, keys, List.length_map, ← scalarLine_eq (h.var_at hv).1]
  rfl

/-- Subsections are described one after the other. -/
theorem subsectionLines_eq (depth number count : ℕ) (subsections : List (Tag × Schema)) :
    subsectionLines depth number count subsections =
      ((subsections.map (·.2)).zipIdx number).flatMap (childBlock depth count) := by
  induction subsections generalizing number with
  | nil => rw [subsectionLines]; rfl
  | cons sub rest ih =>
      obtain ⟨t, child⟩ := sub
      rw [subsectionLines, ih, List.map_cons, List.zipIdx_cons, List.flatMap_cons]
      rfl

/-- **The description of a schema**, as blocks. -/
theorem lines_eq (h : s.Coherent) (depth : ℕ) :
    s.lines depth = (Text.tabs depth ++ headLine "Schema" s) ::
      (s.keys.zipIdx.flatMap (keyBlock depth s.keys.length) ++
        (s.children.zipIdx.flatMap (childBlock depth s.children.length) ++
          [Text.tabs depth ++ "\x7d"])) := by
  rw [← h.zipIdx_scalars_eq]
  obtain ⟨id, strict, nesting, scalars, subsections⟩ := s
  rw [lines, subsectionLines_eq, children, List.length_map]
  simp only [List.cons_append, List.append_assoc]
  rfl

/-- The block for a variable begins as such. -/
theorem begins_keyBlock (depth count : ℕ) (key : (String × TrustLevel) × ℕ) :
    Text.Begins depth ["\tvar "] (keyBlock depth count key) := by
  obtain ⟨text, htext⟩ : ∃ text, keyLine key.2 count key.1 = "var " ++ text :=
    ⟨_, keyLine_eq key.2 count key.1⟩
  refine ⟨_, List.mem_singleton_self _, _, _, rfl, text, ?_⟩
  have hmark : "\tvar " = "\t" ++ "var " := by decide
  rw [htext, hmark]
  simp only [String.append_assoc]
  rfl

/-- The block for the rows of a subsection begins as such. -/
theorem begins_childBlock (depth count : ℕ) (child : Schema × ℕ) :
    Text.Begins depth ["\tnested schema "] (childBlock depth count child) := by
  refine ⟨_, List.mem_singleton_self _, _, _, rfl, s!"{child.2 + 1}/{count}:", ?_⟩
  simp only [String.append_assoc]
  rfl

/-- **A description determines the schema**, up to identities, and what follows. -/
theorem WellFormed.lines_append_inj (ha : a.WellFormed) (hb : b.WellFormed) {depth : ℕ}
    {rest later : List String} (h : a.lines depth ++ rest = b.lines depth ++ later) :
    a.Matches b ∧ rest = later := by
  induction ha generalizing b depth rest later with
  | @intro a coherent children ih =>
      rw [lines_eq coherent, lines_eq hb.coherent, List.cons_append, List.cons_append] at h
      obtain ⟨hhead, h⟩ := List.cons.inj h
      obtain ⟨hstrict, hname⟩ := headLine_inj ((String.append_right_inj _).mp hhead)
      simp only [List.append_assoc] at h
      have hclose : ∀ rest, Text.Begins depth ["\x7d"] ([Text.tabs depth ++ "\x7d"] ++ rest) :=
        Text.begins_close depth
      obtain ⟨hlength, hkeys, h⟩ := Text.blocks_inj (R := fun k l _ => k = l)
        (begins_keyBlock depth _) (begins_keyBlock depth _) (by decide)
        ((hclose rest).blocks (begins_childBlock depth _) _)
        ((hclose later).blocks (begins_childBlock depth _) _) (fun k _ l _ i rest later _ _ h => by
          obtain ⟨hline, hrest⟩ := List.cons.inj h
          exact ⟨keyLine_inj ((String.append_right_inj _).mp hline), hrest⟩) 0 h
      obtain ⟨hlength', hchildren, h⟩ := Text.blocks_inj (R := fun c d _ => Matches c d)
        (begins_childBlock depth _) (begins_childBlock depth _) (by decide) (hclose rest)
        (hclose later) (fun c hc d hd i rest later _ _ h => by
          obtain ⟨sub, hsub, rfl⟩ := List.mem_map.mp hc
          obtain ⟨sub', hsub', rfl⟩ := List.mem_map.mp hd
          exact ih sub hsub (hb.child hsub') (List.cons.inj h).2) 0 h
      refine ⟨.intro hstrict hname (List.ext_getElem hlength hkeys) ?_, (List.cons.inj h).2⟩
      exact List.forall₂_iff_get.mpr ⟨hlength', hchildren⟩

/-- **Schemas that match are described in the same way.** -/
theorem WellFormed.lines_congr (ha : a.WellFormed) (hb : b.WellFormed) (h : a.Matches b)
    (depth : ℕ) : a.lines depth = b.lines depth := by
  induction ha generalizing b depth with
  | @intro a coherent children ih =>
      obtain ⟨hstrict, hname, hkeys, hchildren⟩ := h
      obtain ⟨hlength, hall⟩ := List.forall₂_iff_get.mp hchildren
      have hblocks : a.children.zipIdx.flatMap (childBlock depth a.children.length) =
          b.children.zipIdx.flatMap (childBlock depth b.children.length) := by
        refine Text.blocks_congr hlength 0 fun i hi hi' => ?_
        obtain ⟨sub, hsub, hc⟩ := List.mem_map.mp (List.getElem_mem hi)
        obtain ⟨sub', hsub', hd⟩ := List.mem_map.mp (List.getElem_mem hi')
        have hmatches : sub.2.Matches sub'.2 := by
          rw [hc, hd]
          exact hall i hi hi'
        have hlines := ih sub hsub (hb.child hsub') hmatches (depth + 1)
        rw [childBlock, childBlock, hlength, ← hc, ← hd, hlines]
      rw [lines_eq coherent, lines_eq hb.coherent, headLine_eq, headLine_eq, hstrict, hname, hkeys,
        hblocks]

/-- The first line is one line. -/
theorem onLine_headLine {title : String} (htitle : Text.OnLine title) (s : Schema) :
    Text.OnLine (headLine title s) := by
  have hnested : Text.OnLine (nestedText s.nestedName?) := by
    cases s.nestedName? with
    | none => exact (by decide : Text.OnLine "")
    | some name =>
        exact .append (by decide) ((Text.onLine_quoted name).append (by decide))
  have hstrict : Text.OnLine (toString s.strict) := by cases s.strict <;> decide
  rw [headLine_eq]
  exact htitle.append (.append (by decide) (hstrict.append hnested))

/-- The line of a variable is one line. -/
theorem onLine_keyLine (i count : ℕ) (key : String × TrustLevel) :
    Text.OnLine (keyLine i count key) := by
  have hlevel : Text.OnLine key.2.name := by cases key.2 <;> decide
  rw [keyLine_eq]
  exact .append (by decide) ((Text.onLine_repr _).append (.append (by decide)
    ((Text.onLine_repr _).append (.append (by decide) ((Text.onLine_quoted _).append
      (.append (by decide) ((Text.onLine_repr _).append (.append (by decide)
        (hlevel.append (by decide))))))))))

/-- **The lines of a description are lines.** -/
theorem WellFormed.onLine_of_mem_lines (h : s.WellFormed) {depth : ℕ} {line : String}
    (hline : line ∈ s.lines depth) : Text.OnLine line := by
  induction h generalizing depth with
  | @intro s coherent children ih =>
      have hindent := Text.onLine_tabs depth
      rw [lines_eq coherent, List.mem_cons, List.mem_append, List.mem_append] at hline
      obtain rfl | hline | hline | hline := hline
      · exact hindent.append (onLine_headLine (by decide) s)
      · obtain ⟨key, -, hline⟩ := List.mem_flatMap.mp hline
        obtain rfl := List.mem_singleton.mp hline
        exact (hindent.append (by decide)).append (onLine_keyLine _ _ _)
      · obtain ⟨⟨child, i⟩, hchild, hline⟩ := List.mem_flatMap.mp hline
        obtain rfl | hline := List.mem_cons.mp hline
        · exact ((((hindent.append (by decide)).append (Text.onLine_repr _)).append
            (by decide)).append (Text.onLine_repr _)).append (by decide)
        · obtain ⟨sub, hsub, rfl⟩ := List.mem_map.mp (List.fst_mem_of_mem_zipIdx hchild)
          exact ih sub hsub hline
      · obtain rfl := List.mem_singleton.mp hline
        exact hindent.append (by decide)

end Schema

/-! ### Value sets -/

namespace ValueSet

/-- **Values match**: they are for schemas with the same variables and the same names of
subsections, every variable reads the same, and every subsection has the same number of rows,
which match. -/
inductive Matches : ValueSet → ValueSet → Prop
  | intro {vs ws : ValueSet} (strict : vs.schema.strict = ws.schema.strict)
      (name : vs.schema.nestedName? = ws.schema.nestedName?)
      (vars : vs.schema.keys = ws.schema.keys)
      (subsections : vs.schema.tagNames = ws.schema.tagNames)
      (reads : ∀ i < vs.schema.keys.length, vs.valueAt i = ws.valueAt i)
      (rows : ∀ i < vs.schema.tagNames.length,
        List.Forall₂ Matches (vs.streamAt i).rows (ws.streamAt i).rows) : Matches vs ws

/-- How a subsection is described. -/
def tagLine (depth i count : ℕ) (name : String) : String :=
  s!"{Text.tabs depth}\tnested schema {i + 1}/{count} {Text.quoted name}@{i}:"

/-- The block for a variable. -/
def valueBlock (depth count : ℕ) (valueAt : ℕ → String) (key : (String × TrustLevel) × ℕ) :
    List String :=
  [s!"{Text.tabs depth}\t{Schema.keyLine key.2 count key.1}",
    s!"{Text.tabs depth}\t\t{valueLine (valueAt key.2)}"]

/-- The block for a row. -/
def rowBlock (depth : ℕ) (row : ValueSet × ℕ) : List String :=
  s!"{Text.tabs depth}\tinstantiation (ValueSet) #{row.2}:" :: row.1.lines (depth + 2)

/-- The line that stands for no rows. -/
def emptyLines (depth : ℕ) (rows : List ValueSet) : List String :=
  if rows.isEmpty then [Text.tabs depth ++ "\t\t(empty)"] else []

/-- The block for a subsection. -/
def tagBlock (depth count : ℕ) (rowsAt : ℕ → List ValueSet) (name : String × ℕ) : List String :=
  tagLine depth name.2 count name.1 ::
    (((rowsAt name.2).zipIdx 1).flatMap (rowBlock depth) ++ emptyLines depth (rowsAt name.2))

variable {vs ws : ValueSet}

/-- Rows are described one after the other. -/
theorem rowLines_eq (depth number : ℕ) (rows : List ValueSet) :
    rowLines depth number rows = (rows.zipIdx number).flatMap (rowBlock depth) := by
  induction rows generalizing number with
  | nil => rw [rowLines]; rfl
  | cons row rest ih =>
      rw [rowLines, ih, List.zipIdx_cons, List.flatMap_cons]
      rfl

/-- What is described at a place are the rows there, if their source does not fail. -/
theorem streamBlocks_getD {schema : Schema} {values : List String}
    {streams : List (Option (RowStream ValueSet))}
    (h : ∀ i, ((⟨schema, values, streams⟩ : ValueSet).streamAt i).failure = none) (depth i : ℕ) :
    (streamBlocks depth streams)[i]?.getD [s!"{Text.tabs depth}\t\t(empty)"] =
      (((⟨schema, values, streams⟩ : ValueSet).streamAt i).rows.zipIdx 1).flatMap
          (rowBlock depth) ++
        emptyLines depth ((⟨schema, values, streams⟩ : ValueSet).streamAt i).rows := by
  induction streams generalizing i with
  | nil => rw [streamBlocks]; rfl
  | cons stream rest ih =>
      have hrest := ih fun i => h (i + 1)
      cases stream with
      | none =>
          rw [streamBlocks]
          cases i with
          | zero => rfl
          | succ i => exact hrest i
      | some stream =>
          obtain ⟨rows, failure⟩ := stream
          obtain rfl : failure = none := h 0
          rw [streamBlocks]
          cases i with
          | zero =>
              rw [rowLines_eq]
              rfl
          | succ i => exact hrest i

/-- **The description of values**, as blocks. -/
theorem lines_eq (h : vs.schema.Coherent) (hfitted : vs.Fitted) (depth : ℕ) :
    vs.lines depth = (Text.tabs depth ++ Schema.headLine "ValueSet" vs.schema) ::
      (vs.schema.keys.zipIdx.flatMap (valueBlock depth vs.schema.keys.length vs.valueAt) ++
        (vs.schema.tagNames.zipIdx.flatMap
            (tagBlock depth vs.schema.tagNames.length fun i => (vs.streamAt i).rows) ++
          [Text.tabs depth ++ "\x7d"])) := by
  obtain ⟨hfailure, -, -⟩ := hfitted
  have hvars : scalarLines (Text.tabs depth) vs.schema.scalars vs.valueAt =
      vs.schema.keys.zipIdx.flatMap (valueBlock depth vs.schema.keys.length vs.valueAt) := by
    refine Text.blocks_map _ fun i v hv => ?_
    obtain ⟨hindex, -⟩ := h.var_at hv
    rw [valueBlock, Schema.keys, List.length_map, ← Schema.scalarLine_eq hindex]
    dsimp only
    rw [hindex]
  have htags : subsectionLines (Text.tabs depth) (vs.schema.subsections.map (·.1))
      (streamBlocks depth vs.streams) = vs.schema.tagNames.zipIdx.flatMap
        (tagBlock depth vs.schema.tagNames.length fun i => (vs.streamAt i).rows) := by
    obtain ⟨schema, values, streams⟩ := vs
    have hnames : schema.tagNames = (schema.subsections.map (·.1)).map (·.name.text) := by
      rw [List.map_map]
      rfl
    rw [subsectionLines, hnames, List.length_map]
    refine Text.blocks_map _ fun i t ht => ?_
    rw [List.getElem?_map] at ht
    obtain ⟨sub, hsub, rfl⟩ := Option.map_eq_some_iff.mp ht
    obtain ⟨hindex, -⟩ := h.tag_at hsub
    rw [tagBlock, tagLine]
    dsimp only
    rw [hindex, streamBlocks_getD hfailure, List.length_map, List.length_map]
  rw [← hvars, ← htags]
  obtain ⟨schema, values, streams⟩ := vs
  rw [lines]
  simp only [List.cons_append, List.append_assoc]
  rfl

/-- The description of a value tells it. -/
theorem valueLine_inj {s t : String} (h : valueLine s = valueLine t) : s = t := by
  have hquoted : ∀ u : String, "(empty)" ≠ s!"string {Text.quoted u}" := by
    intro u hu
    have hletter := congrArg String.toList hu
    rw [String.toList_append] at hletter
    exact absurd (List.cons.inj hletter).1 (by decide)
  rw [valueLine, valueLine] at h
  split at h <;> split at h <;> rename_i hs ht
  · rw [hs, ht]
  · exact absurd h (hquoted t)
  · exact absurd h.symm (hquoted s)
  · exact Text.quoted_inj ((String.append_right_inj _).mp h)

/-- The parts of the line of a subsection. -/
theorem tagLine_eq (depth i count : ℕ) (name : String) : tagLine depth i count name =
    Text.tabs depth ++ ("\tnested schema " ++ ((i + 1).repr ++ ("/" ++ (count.repr ++
      (" " ++ (Text.quoted name ++ ("@" ++ (i.repr ++ ":")))))))) := by
  simp only [tagLine, String.append_assoc]
  rfl

/-- **The line of a subsection tells its name.** -/
theorem tagLine_inj {depth i m n : ℕ} {name name' : String}
    (h : tagLine depth i m name = tagLine depth i n name') : name = name' := by
  rw [tagLine_eq, tagLine_eq, String.append_right_inj, String.append_right_inj,
    String.append_right_inj, String.append_right_inj] at h
  exact (Text.quoted_append_inj (Text.repr_append_inj rfl rfl h)).1

/-- The block for a variable begins as such. -/
theorem begins_valueBlock (depth count : ℕ) (valueAt : ℕ → String)
    (key : (String × TrustLevel) × ℕ) :
    Text.Begins depth ["\tvar "] (valueBlock depth count valueAt key) := by
  obtain ⟨mark, hmark, _, _, hlines, hmarked⟩ := Schema.begins_keyBlock depth count key
  obtain ⟨rfl, -⟩ := List.cons.inj hlines
  exact ⟨mark, hmark, _, _, rfl, hmarked⟩

/-- The block for a subsection begins as such. -/
theorem begins_tagBlock (depth count : ℕ) (rowsAt : ℕ → List ValueSet) (name : String × ℕ) :
    Text.Begins depth ["\tnested schema "] (tagBlock depth count rowsAt name) :=
  ⟨_, List.mem_singleton_self _, _, _, rfl, _, tagLine_eq depth name.2 count name.1⟩

/-- The block for a row begins as such. -/
theorem begins_rowBlock (depth : ℕ) (row : ValueSet × ℕ) :
    Text.Begins depth ["\tinstantiation (ValueSet) #"] (rowBlock depth row) := by
  refine ⟨_, List.mem_singleton_self _, _, _, rfl, s!"{row.2}:", ?_⟩
  simp only [String.append_assoc]
  rfl

/-- Whether there are rows can be seen from their number. -/
theorem emptyLines_congr {depth : ℕ} {rows rows' : List ValueSet}
    (hlength : rows.length = rows'.length) : emptyLines depth rows = emptyLines depth rows' := by
  have hempty : rows.isEmpty = rows'.isEmpty := by
    rw [Bool.eq_iff_iff, List.isEmpty_iff_length_eq_zero, List.isEmpty_iff_length_eq_zero, hlength]
  rw [emptyLines, emptyLines, hempty]

/-- What stands behind rows begins with the line that stands for none, or as what follows. -/
theorem begins_emptyLines {depth : ℕ} {marks rest : List String}
    (hrest : Text.Begins depth marks rest) (rows : List ValueSet) :
    Text.Begins depth ("\t\t(empty)" :: marks) (emptyLines depth rows ++ rest) := by
  rw [emptyLines]
  split
  · exact ⟨_, List.mem_cons_self, _, rest, rfl, "", by rw [String.append_empty]⟩
  · obtain ⟨mark, hmark, hbegins⟩ := hrest
    exact ⟨mark, List.mem_cons_of_mem _ hmark, hbegins⟩

/-- **Rows are read one after the other**, if each of them can be read. -/
theorem rows_append_inj {depth : ℕ} {rows rows' : List ValueSet} {rest later : List String}
    (hrest : Text.Begins depth ["\tnested schema ", "\x7d"] rest)
    (hlater : Text.Begins depth ["\tnested schema ", "\x7d"] later)
    (hrow : ∀ row ∈ rows, ∀ row' ∈ rows', ∀ {rest later : List String},
      row.lines (depth + 2) ++ rest = row'.lines (depth + 2) ++ later →
        row.Matches row' ∧ rest = later)
    (h : (rows.zipIdx 1).flatMap (rowBlock depth) ++ emptyLines depth rows ++ rest =
      (rows'.zipIdx 1).flatMap (rowBlock depth) ++ emptyLines depth rows' ++ later) :
    List.Forall₂ Matches rows rows' ∧ rest = later := by
  rw [List.append_assoc, List.append_assoc] at h
  obtain ⟨hlength, hrows, h⟩ := Text.blocks_inj (R := fun row row' _ => Matches row row')
    (begins_rowBlock depth) (begins_rowBlock depth) (by decide) (begins_emptyLines hrest rows)
    (begins_emptyLines hlater rows') (fun row hmem row' hmem' j rest later _ _ h =>
      hrow row hmem row' hmem' (List.cons.inj h).2) 1 h
  rw [emptyLines_congr hlength, List.append_cancel_left_eq] at h
  exact ⟨List.forall₂_iff_get.mpr ⟨hlength, hrows⟩, h⟩

/-- **A description determines the values**, and what follows. -/
theorem Fitted.lines_append_inj (hvs : vs.Fitted) (hws : ws.Fitted) (hwf : vs.schema.WellFormed)
    (hwf' : ws.schema.WellFormed) {depth : ℕ} {rest later : List String}
    (h : vs.lines depth ++ rest = ws.lines depth ++ later) : vs.Matches ws ∧ rest = later := by
  induction hvs generalizing ws depth rest later with
  | @intro vs failure schemas rows ih =>
      rw [lines_eq hwf.coherent (.intro failure schemas rows), lines_eq hwf'.coherent hws,
        List.cons_append, List.cons_append] at h
      obtain ⟨-, schemas', rows'⟩ := hws
      obtain ⟨hhead, h⟩ := List.cons.inj h
      obtain ⟨hstrict, hname⟩ := Schema.headLine_inj ((String.append_right_inj _).mp hhead)
      simp only [List.append_assoc] at h
      have hclose : ∀ rest, Text.Begins depth ["\x7d"] ([Text.tabs depth ++ "\x7d"] ++ rest) :=
        Text.begins_close depth
      obtain ⟨hlength, hkeys, h⟩ := Text.blocks_inj
        (R := fun k l i => k = l ∧ vs.valueAt i = ws.valueAt i)
        (begins_valueBlock depth _ _) (begins_valueBlock depth _ _) (by decide)
        ((hclose rest).blocks (begins_tagBlock depth _ _) _)
        ((hclose later).blocks (begins_tagBlock depth _ _) _)
        (fun k _ l _ i rest later _ _ h => by
          obtain ⟨hline, h⟩ := List.cons.inj h
          obtain ⟨hvalue, hrest⟩ := List.cons.inj h
          exact ⟨⟨Schema.keyLine_inj ((String.append_right_inj _).mp hline),
            valueLine_inj ((String.append_right_inj _).mp hvalue)⟩, hrest⟩) 0 h
      obtain ⟨hlength', htags, h⟩ := Text.blocks_inj
        (R := fun name name' i => name = name' ∧
          List.Forall₂ Matches (vs.streamAt i).rows (ws.streamAt i).rows)
        (begins_tagBlock depth _ _) (begins_tagBlock depth _ _) (by decide) (hclose rest)
        (hclose later) (fun name _ name' _ i rest later hrest hlater h => by
          obtain ⟨hline, h⟩ := List.cons.inj h
          obtain ⟨hrows, hrest⟩ := rows_append_inj hrest hlater (fun row hrow row' hrow' => by
            obtain ⟨sub, hsub, hschema⟩ := schemas i row hrow
            obtain ⟨sub', hsub', hschema'⟩ := schemas' i row' hrow'
            exact ih i row hrow (rows' i row' hrow')
              (hschema ▸ hwf.child (List.mem_of_getElem? hsub))
              (hschema' ▸ hwf'.child (List.mem_of_getElem? hsub'))) h
          exact ⟨⟨tagLine_inj hline, hrows⟩, hrest⟩) 0 h
      refine ⟨.intro hstrict hname (List.ext_getElem hlength fun i hi hi' => (hkeys i hi hi').1)
        (List.ext_getElem hlength' fun i hi hi' => (htags i hi hi').1) (fun i hi => ?_)
        (fun i hi => ?_), (List.cons.inj h).2⟩
      · have hvalue := (hkeys i hi (hlength ▸ hi)).2
        rwa [Nat.zero_add] at hvalue
      · have hrows := (htags i hi (hlength' ▸ hi)).2
        rwa [Nat.zero_add] at hrows

/-- **Values that match are described in the same way.** -/
theorem Fitted.lines_congr (hvs : vs.Fitted) (hws : ws.Fitted) (hwf : vs.schema.WellFormed)
    (hwf' : ws.schema.WellFormed) (h : vs.Matches ws) (depth : ℕ) :
    vs.lines depth = ws.lines depth := by
  induction hvs generalizing ws depth with
  | @intro vs failure schemas rows ih =>
      rw [lines_eq hwf.coherent (.intro failure schemas rows), lines_eq hwf'.coherent hws]
      obtain ⟨-, schemas', rows'⟩ := hws
      obtain ⟨hstrict, hname, hkeys, htags, hreads, hrows⟩ := h
      have hvalues : vs.schema.keys.zipIdx.flatMap
            (valueBlock depth vs.schema.keys.length vs.valueAt) =
          ws.schema.keys.zipIdx.flatMap (valueBlock depth ws.schema.keys.length ws.valueAt) := by
        refine Text.blocks_congr (congrArg List.length hkeys) 0 fun i hi hi' => ?_
        have hkey : vs.schema.keys[i] = ws.schema.keys[i] := by simp only [hkeys]
        rw [valueBlock, valueBlock, Nat.zero_add, hkey, hreads i hi, hkeys]
      have hblocks : vs.schema.tagNames.zipIdx.flatMap
            (tagBlock depth vs.schema.tagNames.length fun i => (vs.streamAt i).rows) =
          ws.schema.tagNames.zipIdx.flatMap
            (tagBlock depth ws.schema.tagNames.length fun i => (ws.streamAt i).rows) := by
        refine Text.blocks_congr (congrArg List.length htags) 0 fun i hi hi' => ?_
        have htag : vs.schema.tagNames[i] = ws.schema.tagNames[i] := by simp only [htags]
        obtain ⟨hlength, hall⟩ := List.forall₂_iff_get.mp (hrows i hi)
        have hlines : ((vs.streamAt i).rows.zipIdx 1).flatMap (rowBlock depth) =
            ((ws.streamAt i).rows.zipIdx 1).flatMap (rowBlock depth) := by
          refine Text.blocks_congr hlength 1 fun j hj hj' => ?_
          obtain ⟨sub, hsub, hschema⟩ := schemas i _ (List.getElem_mem hj)
          obtain ⟨sub', hsub', hschema'⟩ := schemas' i _ (List.getElem_mem hj')
          have hrow := ih i _ (List.getElem_mem hj) (rows' i _ (List.getElem_mem hj'))
            (hschema ▸ hwf.child (List.mem_of_getElem? hsub))
            (hschema' ▸ hwf'.child (List.mem_of_getElem? hsub')) (hall j hj hj') (depth + 2)
          rw [rowBlock, rowBlock, hrow]
        rw [tagBlock, tagBlock, Nat.zero_add, htag, htags]
        dsimp only
        rw [hlines, emptyLines_congr hlength]
      rw [Schema.headLine_eq, Schema.headLine_eq, hstrict, hname, hvalues, hblocks]

/-- The description of a value is one line. -/
theorem onLine_valueLine (value : String) : Text.OnLine (valueLine value) := by
  rw [valueLine]
  split
  · decide
  · exact .append (by decide) (Text.onLine_quoted value)

/-- The line of a subsection is one line. -/
theorem onLine_tagLine (depth i count : ℕ) (name : String) :
    Text.OnLine (tagLine depth i count name) := by
  rw [tagLine_eq]
  exact (Text.onLine_tabs depth).append (.append (by decide) ((Text.onLine_repr _).append
    (.append (by decide) ((Text.onLine_repr _).append (.append (by decide)
      ((Text.onLine_quoted name).append (.append (by decide)
        ((Text.onLine_repr _).append (by decide)))))))))

/-- **The lines of a description are lines.** -/
theorem Fitted.onLine_of_mem_lines (h : vs.Fitted) (hwf : vs.schema.WellFormed) {depth : ℕ}
    {line : String} (hline : line ∈ vs.lines depth) : Text.OnLine line := by
  induction h generalizing depth with
  | @intro vs failure schemas rows ih =>
      have hindent := Text.onLine_tabs depth
      rw [lines_eq hwf.coherent (.intro failure schemas rows), List.mem_cons, List.mem_append,
        List.mem_append] at hline
      obtain rfl | hline | hline | hline := hline
      · exact hindent.append (Schema.onLine_headLine (by decide) vs.schema)
      · obtain ⟨key, -, hline⟩ := List.mem_flatMap.mp hline
        obtain rfl | hline := List.mem_cons.mp hline
        · exact (hindent.append (by decide)).append (Schema.onLine_keyLine _ _ _)
        · obtain rfl := List.mem_singleton.mp hline
          exact (hindent.append (by decide)).append (onLine_valueLine _)
      · obtain ⟨⟨name, i⟩, -, hline⟩ := List.mem_flatMap.mp hline
        obtain rfl | hline := List.mem_cons.mp hline
        · exact onLine_tagLine _ _ _ _
        · obtain hline | hline := List.mem_append.mp hline
          · obtain ⟨⟨row, j⟩, hrow, hline⟩ := List.mem_flatMap.mp hline
            have hmem := List.fst_mem_of_mem_zipIdx hrow
            obtain rfl | hline := List.mem_cons.mp hline
            · exact ((hindent.append (by decide)).append (Text.onLine_repr _)).append (by decide)
            · obtain ⟨sub, hsub, hschema⟩ := schemas i row hmem
              exact ih i row hmem (hschema ▸ hwf.child (List.mem_of_getElem? hsub)) hline
          · rw [emptyLines] at hline
            split at hline
            · obtain rfl := List.mem_singleton.mp hline
              exact hindent.append (by decide)
            · cases hline
      · obtain rfl := List.mem_singleton.mp hline
        exact hindent.append (by decide)

end ValueSet

/-! ### Descriptions -/

namespace Session

/-- **Descriptions tell structures apart.** Two schemas that were made in sessions are described in
the same way if and only if they match, and so are values that were made for schemas of
sessions. -/
theorem Reached.dump_eq_iff [UrlReader] {σ τ : Session} (hσ : σ.Reached) (hτ : τ.Reached) :
    (∀ a ∈ σ.schemas, ∀ b ∈ τ.schemas, a.dump 0 = b.dump 0 ↔ a.Matches b) ∧
      ∀ vs ws, σ.Makes vs → τ.Makes ws → (vs.dump 0 = ws.dump 0 ↔ vs.Matches ws) := by
  have hwf : ∀ {υ : Session}, υ.Reached → ∀ {s : Schema}, s ∈ υ.schemas → s.WellFormed :=
    fun hυ _ hs => (hυ.valid.inOrder_of_mem hs).wellFormed
  refine ⟨fun a ha b hb => ⟨fun h => ?_, fun h => ?_⟩, fun vs ws hvs hws => ?_⟩
  · have hlines := Text.unlines_inj (fun _ => (hwf hσ ha).onLine_of_mem_lines)
      (fun _ => (hwf hτ hb).onLine_of_mem_lines) h
    exact ((hwf hσ ha).lines_append_inj (hwf hτ hb) (congrArg (· ++ []) hlines)).1
  · rw [Schema.dump, Schema.dump, (hwf hσ ha).lines_congr (hwf hτ hb) h]
  · obtain ⟨hfitted, hmem⟩ := hvs.fitted hσ.valid
    obtain ⟨hfitted', hmem'⟩ := hws.fitted hτ.valid
    refine ⟨fun h => ?_, fun h => ?_⟩
    · have hlines := Text.unlines_inj (fun _ => hfitted.onLine_of_mem_lines (hwf hσ hmem))
        (fun _ => hfitted'.onLine_of_mem_lines (hwf hτ hmem')) h
      exact (hfitted.lines_append_inj hfitted' (hwf hσ hmem) (hwf hτ hmem')
        (congrArg (· ++ []) hlines)).1
    · rw [ValueSet.dump, ValueSet.dump,
        hfitted.lines_congr hfitted' (hwf hσ hmem) (hwf hτ hmem') h]

/-- A caption that reads `(empty)` is told from one that was never set, and setting the caption to
nothing is not. -/
theorem dump_eq_iff_directory : ∃ vs blank, directory ∈ withDirectory.schemas ∧
    directory.valueSet.setConst captionVar "(empty)" = .ok vs ∧
    directory.valueSet.setConst captionVar "" = .ok blank ∧
    withDirectory.Makes vs ∧ withDirectory.Makes blank ∧
    vs.dump 0 ≠ directory.valueSet.dump 0 ∧ blank.dump 0 = directory.valueSet.dump 0 := by
  have hmem : directory ∈ withDirectory.schemas := List.mem_cons_self
  have hnew := Makes.new hmem
  have hset : directory.valueSet.setConst captionVar "(empty)" =
      .ok ⟨directory, ["(empty)"], []⟩ := rfl
  have hblank : directory.valueSet.setConst captionVar "" = .ok ⟨directory, [""], []⟩ := rfl
  have hvs := hnew.setConst hset
  have hws := hnew.setConst hblank
  have hiff := (reached_withDirectory.dump_eq_iff reached_withDirectory).2
  refine ⟨_, _, hmem, hset, hblank, hvs, hws, fun h => ?_, ?_⟩
  · obtain ⟨-, -, -, -, hreads, -⟩ := (hiff _ _ hvs hnew).mp h
    exact absurd (hreads 0 (by decide)) (by decide)
  · refine (hiff _ _ hws hnew).mpr (.intro rfl rfl rfl rfl (fun i hi => ?_) fun i hi => ?_)
    · obtain rfl : i = 0 := Nat.lt_one_iff.mp hi
      rfl
    · exact .nil

end Session

end TrustedHtml
