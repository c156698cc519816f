import TrustedHtml.Proofs.Requirements
import TrustedHtml.Url.Web

/-!
# The Schema of a Template

The schema of a template is what the schema that was declared on and the tree say it is, and
nothing else. In every scope the variables are those that were there, in their order, and then
those that the tree uses first there, in the order of first use; each requires the join of what
it required and of what every use of it requires. The subsections are found in the same way, and
all parts of the tree that are repeated for subsections of one name use one scope. No schema
becomes strict or stops being so.

`Schema.WithUses` says this of one schema, a list of declarations and another schema, at every
level of nesting. It composes along the list, so it is enough to look at one declaration.

## Main definitions

* `Use.scalars`, `Use.subsections`, `Use.inside`: what declarations use, scope by scope.
* `Schema.WithUses`: a schema is another one with declarations.

## Main results

* `Schema.WithUses.trans`: more declarations.
* `Scope.useAll_withUses`: what declarations leave.
* `Node.compile_withUses`: **the schema of a template is the one before with the uses of the
  tree.**
-/

namespace TrustedHtml

/-! ### Names in order of first use -/

/-- The names among `used` that are not `known`, each once, in the order of first use. -/
def newNames (known used : List SlotName) : List SlotName :=
  (used.removeAll known).eraseDups

/-- A name is new if it is used and not known. -/
theorem mem_newNames_iff {known used : List SlotName} {name : SlotName} :
    name ∈ newNames known used ↔ name ∈ used ∧ name ∉ known := by
  rw [newNames, List.mem_eraseDups, List.removeAll, List.mem_filter]
  simp

/-- What is new in a longer list. -/
theorem newNames_append (known used later : List SlotName) :
    newNames known (used ++ later) =
      newNames known used ++ newNames (known ++ newNames known used) later := by
  have hsplit : (used ++ later).removeAll known = used.removeAll known ++ later.removeAll known :=
    List.filter_append ..
  have hlater : (later.removeAll known).removeAll (used.removeAll known) =
      later.removeAll (known ++ newNames known used) := by
    simp only [List.removeAll, List.filter_filter]
    refine List.filter_congr fun name _ => ?_
    rw [Bool.eq_iff_iff]
    simp [mem_newNames_iff]
    tauto
  rw [newNames, hsplit, List.eraseDups_append, hlater]
  rfl

/-- Nothing new is used. -/
theorem newNames_eq_nil {known used : List SlotName} (h : ∀ name ∈ used, name ∈ known) :
    newNames known used = [] := by
  refine List.eq_nil_iff_forall_not_mem.mpr fun name hname => ?_
  obtain ⟨hused, hknown⟩ := mem_newNames_iff.mp hname
  exact hknown (h name hused)

/-- One new name is used. -/
theorem newNames_singleton {known : List SlotName} {name : SlotName} (h : name ∉ known) :
    newNames known [name] = [name] := by
  simp [newNames, List.removeAll, h, List.eraseDups_cons]

/-- What is new after further names was not used before. -/
theorem not_mem_of_mem_newNames {known used later : List SlotName} {name : SlotName}
    (h : name ∈ newNames (known ++ newNames known used) later) : name ∉ used := by
  intro hused
  obtain ⟨-, hknown⟩ := mem_newNames_iff.mp h
  rw [List.mem_append, not_or] at hknown
  exact hknown.2 (mem_newNames_iff.mpr ⟨hused, hknown.1⟩)

/-! ### Uses, scope by scope -/

namespace Use

/-- The variables that are used in a scope itself, at the levels that the uses require. -/
def scalars (uses : List Use) : List (SlotName × TrustLevel) :=
  uses.filterMap fun
    | .scalar name level => some (name, level)
    | .subsection .. => none

/-- The subsections that are used in a scope itself. -/
def subsections (uses : List Use) : List SlotName :=
  uses.filterMap fun
    | .scalar .. => none
    | .subsection name _ => some name

/-- The uses within all subsections of a name, one after the other. -/
def inside (name : SlotName) (uses : List Use) : List Use :=
  uses.flatMap fun
    | .scalar .. => []
    | .subsection slot inner => if slot = name then inner else []

/-- The join of what the uses of a variable in a scope require. -/
def required (name : SlotName) (uses : List Use) : TrustLevel :=
  ((scalars uses).filter (·.1 = name)).foldr (fun use level => use.2 ⊔ level) .untrusted

variable {uses later : List Use} {name : SlotName}

/-- The uses of a longer list. -/
theorem scalars_append : scalars (uses ++ later) = scalars uses ++ scalars later :=
  List.filterMap_append ..

/-- The subsections of a longer list. -/
theorem subsections_append :
    subsections (uses ++ later) = subsections uses ++ subsections later :=
  List.filterMap_append ..

/-- The uses within a subsection of a longer list. -/
theorem inside_append : inside name (uses ++ later) = inside name uses ++ inside name later :=
  List.flatMap_append ..

/-- What a longer list requires. -/
theorem required_append : required name (uses ++ later) =
    required name uses ⊔ required name later := by
  rw [required, scalars_append, List.filter_append, List.foldr_append]
  rw [required]
  generalize (scalars uses).filter _ = found
  induction found with
  | nil => exact (TrustLevel.untrusted_join _).symm
  | cons use rest ih =>
      rw [List.foldr_cons, List.foldr_cons, ih, sup_assoc]

/-- Nothing is required of a variable that is not used. -/
theorem required_of_not_mem (h : name ∉ (scalars uses).map (·.1)) :
    required name uses = .untrusted := by
  have hnone : (scalars uses).filter (·.1 = name) = [] := by
    rw [List.filter_eq_nil_iff]
    intro use huse hname
    exact h (List.mem_map.mpr ⟨use, huse, of_decide_eq_true hname⟩)
  rw [required, hnone]
  rfl

/-- What one use of a variable requires of it. -/
theorem required_self (name : SlotName) (level : TrustLevel) :
    required name [.scalar name level] = level := by
  simpa [required, scalars] using TrustLevel.untrusted_le level

/-- What one use of a variable requires of another one. -/
theorem required_of_ne {slot : SlotName} (h : slot ≠ name) (level : TrustLevel) :
    required slot [.scalar name level] = .untrusted :=
  required_of_not_mem (by simpa [scalars] using h)

/-- Nothing is used within a subsection that is not used. -/
theorem inside_of_not_mem (h : name ∉ subsections uses) : inside name uses = [] := by
  rw [inside, List.flatMap_eq_nil_iff]
  intro u hu
  cases u with
  | scalar => rfl
  | subsection slot inner =>
      refine if_neg fun hslot => h ?_
      exact List.mem_filterMap.mpr ⟨_, hu, congrArg some hslot⟩

end Use

/-- A variable by its name and what it requires. -/
def Var.signature (v : Var) : SlotName × TrustLevel :=
  (v.name, v.level)

namespace Schema

/-! ### Schemas with declarations -/

/-- **A schema is another one with declarations**: in its variables, its subsections and its
strictness, and so are the schemas of its rows, where those of a new subsection are new schemas
with declarations. -/
inductive WithUses : Schema → List Use → Schema → Prop
  | intro {before after : Schema} {uses : List Use} (strict : after.strict = before.strict)
      (scalars : after.scalars.map Var.signature =
        (before.scalars.map fun v => (v.name, v.level ⊔ Use.required v.name uses)) ++
          (newNames (before.scalars.map (·.name)) ((Use.scalars uses).map (·.1))).map
            fun name => (name, Use.required name uses))
      (subsections : after.subsections.map (·.1.name) =
        before.subsections.map (·.1.name) ++
          newNames (before.subsections.map (·.1.name)) (Use.subsections uses))
      (known : ∀ {i : ℕ} {a b : Tag × Schema}, before.subsections[i]? = some a →
        after.subsections[i]? = some b → WithUses a.2 (Use.inside b.1.name uses) b.2)
      (new : ∀ {i : ℕ} {b : Tag × Schema}, before.subsections.length ≤ i →
        after.subsections[i]? = some b →
          WithUses (.root b.2.id) (Use.inside b.1.name uses) b.2) :
      WithUses before uses after

variable {a b c : Schema} {uses later : List Use}

/-- The names of the variables of a schema with declarations. -/
theorem WithUses.scalar_names (h : a.WithUses uses b) : b.scalars.map (·.name) =
    a.scalars.map (·.name) ++
      newNames (a.scalars.map (·.name)) ((Use.scalars uses).map (·.1)) := by
  obtain ⟨-, hscalars, -, -, -⟩ := h
  have hnames := congrArg (List.map Prod.fst) hscalars
  simpa [List.map_map, Function.comp_def, Var.signature] using hnames

/-- What declarations are made on is only a matter of strictness, variables and subsections. -/
theorem WithUses.congr {a' : Schema} (h : a.WithUses uses b) (hstrict : a'.strict = a.strict)
    (hscalars : a'.scalars = a.scalars) (hsubsections : a'.subsections = a.subsections) :
    a'.WithUses uses b := by
  obtain ⟨strict, scalars, subsections, known, new⟩ := h
  rw [← hscalars] at scalars
  rw [← hsubsections] at subsections known new
  exact .intro (strict.trans hstrict.symm) scalars subsections known new

/-- Where no variable is used, the variables stay as they are. -/
theorem signatures_of_unused {scalars : List Var} (h : Use.scalars uses = []) :
    scalars.map Var.signature =
      (scalars.map fun v => (v.name, v.level ⊔ Use.required v.name uses)) ++
        (newNames (scalars.map (·.name)) ((Use.scalars uses).map (·.1))).map
          fun name => (name, Use.required name uses) := by
  have hlevels : ∀ v : Var, (v.name, v.level ⊔ Use.required v.name uses) = v.signature := by
    intro v
    rw [Use.required_of_not_mem (by simp [h])]
    exact congrArg (Prod.mk v.name) (TrustLevel.join_untrusted v.level)
  simp only [hlevels, h]
  exact (List.append_nil _).symm

mutual

/-- A schema without further declarations. -/
theorem WithUses.refl : ∀ s : Schema, s.WithUses [] s
  | ⟨id, strict, nesting, scalars, subsections⟩ => by
      have hlast : ∀ {i : ℕ} {x : Tag × Schema}, subsections.length ≤ i →
          subsections[i]? ≠ some x := by
        intro i x hle hx
        rw [List.getElem?_eq_none hle] at hx
        cases hx
      refine .intro rfl (signatures_of_unused rfl) ?_ ?_ fun hle hx => absurd hx (hlast hle)
      · exact (List.append_nil _).symm
      · intro i x y hx hy
        obtain rfl : x = y := Option.some.inj (hx.symm.trans hy)
        exact withUses_refl_of_mem subsections x (List.mem_of_getElem? hx)

/-- The schemas of rows without further declarations. -/
theorem withUses_refl_of_mem : ∀ (subsections : List (Tag × Schema)) (sub : Tag × Schema),
    sub ∈ subsections → sub.2.WithUses [] sub.2
  | (t, child) :: rest, sub, hmem => by
      rcases List.mem_cons.mp hmem with rfl | hmem
      · exact WithUses.refl child
      · exact withUses_refl_of_mem rest sub hmem

end

/-- A subsection keeps its name. -/
theorem WithUses.name_eq (h : a.WithUses uses b) {i : ℕ} {x y : Tag × Schema}
    (hx : a.subsections[i]? = some x) (hy : b.subsections[i]? = some y) :
    y.1.name = x.1.name := by
  obtain ⟨-, -, hsubsections, -, -⟩ := h
  have hname := congrArg (·[i]?) hsubsections
  have hlt : i < (a.subsections.map (·.1.name)).length := by
    rw [List.length_map]
    exact (List.getElem?_eq_some_iff.mp hx).1
  simp only [List.getElem?_append_left hlt, List.getElem?_map, hx, hy] at hname
  exact Option.some.inj hname

/-- A further subsection has a new name. -/
theorem WithUses.mem_newNames (h : a.WithUses uses b) {i : ℕ} {y : Tag × Schema}
    (hle : a.subsections.length ≤ i) (hy : b.subsections[i]? = some y) :
    y.1.name ∈ newNames (a.subsections.map (·.1.name)) (Use.subsections uses) := by
  obtain ⟨-, -, hsubsections, -, -⟩ := h
  have hname := congrArg (·[i]?) hsubsections
  have hle' : (a.subsections.map (·.1.name)).length ≤ i := by rwa [List.length_map]
  simp only [List.getElem?_append_right hle', List.getElem?_map, hy, Option.map_some] at hname
  exact List.mem_of_getElem? hname.symm

/-- **More declarations** on a schema with declarations. -/
theorem WithUses.trans (h : a.WithUses uses b) (h' : b.WithUses later c) :
    a.WithUses (uses ++ later) c := by
  induction h generalizing later c with
  | @intro a b uses strict scalars subsections known new ihknown ihnew =>
      have hfirst := WithUses.intro strict scalars subsections known new
      have hnames := hfirst.scalar_names
      have hlength : a.subsections.length ≤ b.subsections.length := by
        have hsame := congrArg List.length subsections
        rw [List.length_append, List.length_map, List.length_map] at hsame
        omega
      have hsecond := h'
      obtain ⟨hstrict', hscalars', hsubsections', hknown', hnew'⟩ := h'
      refine .intro (hstrict'.trans strict) ?_ ?_ ?_ ?_
      · -- what both lists require of a variable is joined, wherever the variable comes from
        have hraised : (b.scalars.map fun v => (v.name, v.level ⊔ Use.required v.name later)) =
            (b.scalars.map Var.signature).map fun entry =>
              (entry.1, entry.2 ⊔ Use.required entry.1 later) := by
          rw [List.map_map]
          rfl
        have hlater : (newNames (b.scalars.map (·.name)) ((Use.scalars later).map (·.1))).map
              (fun name => (name, Use.required name later)) =
            (newNames (b.scalars.map (·.name)) ((Use.scalars later).map (·.1))).map
              fun name => (name, Use.required name (uses ++ later)) := by
          refine List.map_congr_left fun name hname => ?_
          rw [hnames] at hname
          rw [Use.required_append, Use.required_of_not_mem (not_mem_of_mem_newNames hname)]
          exact congrArg (Prod.mk name) (TrustLevel.untrusted_join _).symm
        rw [hscalars', hraised, scalars, List.map_append, List.map_map, List.map_map, hlater,
          hnames, Use.scalars_append, List.map_append, newNames_append, List.map_append,
          List.append_assoc]
        simp only [Function.comp_def, Use.required_append, sup_assoc]
      · rw [hsubsections', subsections, Use.subsections_append, newNames_append,
          List.append_assoc]
      · intro i x z hx hz
        have hlt := (List.getElem?_eq_some_iff.mp hx).1
        have hy := List.getElem?_eq_getElem (lt_of_lt_of_le hlt hlength)
        have hrows := hknown' hy hz
        rw [hsecond.name_eq hy hz] at hrows ⊢
        rw [Use.inside_append]
        exact ihknown hx hy hrows
      · intro i z hle hz
        by_cases hlt : i < b.subsections.length
        · have hy := List.getElem?_eq_getElem hlt
          have hrows := hknown' hy hz
          rw [hsecond.name_eq hy hz] at hrows ⊢
          rw [Use.inside_append]
          exact (ihnew hle hy hrows).congr rfl rfl rfl
        · have hle' := Nat.le_of_not_lt hlt
          have hname := hsecond.mem_newNames hle' hz
          rw [subsections] at hname
          rw [Use.inside_append, Use.inside_of_not_mem (not_mem_of_mem_newNames hname)]
          exact hnew' hle' hz

/-- Without further uses the rows of a subsection stay as they are. -/
theorem withUses_of_unused {i : ℕ} {x y : Tag × Schema} {name : SlotName}
    (hx : a.subsections[i]? = some x) (hy : a.subsections[i]? = some y)
    (h : Use.inside name uses = []) : x.2.WithUses (Use.inside name uses) y.2 := by
  obtain rfl : x = y := Option.some.inj (hx.symm.trans hy)
  rw [h]
  exact .refl x.2

/-- Raising what a variable requires leaves the other ones as they are. -/
theorem Coherent.signatures_set (h : a.Coherent) {v : Var} (hv : a.scalars[v.index]? = some v)
    (level : TrustLevel) :
    (a.scalars.set v.index { v with level := v.level ⊔ level }).map Var.signature =
      a.scalars.map fun w => (w.name, w.level ⊔ Use.required w.name [.scalar v.name level]) := by
  refine List.ext_getElem? fun j => ?_
  rw [List.getElem?_map, List.getElem?_map, List.getElem?_set]
  by_cases hj : v.index = j
  · subst hj
    rw [if_pos rfl, if_pos (List.getElem?_eq_some_iff.mp hv).1, hv, Option.map_some,
      Option.map_some, Use.required_self]
    rfl
  · rw [if_neg hj]
    cases hw : a.scalars[j]? with
    | none => rfl
    | some w =>
        have hindex := (h.var_at hw).1
        -- two variables of one name would stand at one place
        have hne : w.name ≠ v.name := by
          intro hname
          have hfind := h.scalar?_eq_some_iff.mpr ⟨hv, hname.symm⟩
          have hfind' := h.scalar?_eq_some_iff.mpr ⟨hindex.symm ▸ hw, rfl⟩
          rw [hfind] at hfind'
          rw [Option.some.inj hfind'] at hj
          exact hj hindex
        rw [Option.map_some, Option.map_some, Use.required_of_ne hne]
        exact congrArg (fun level => some (w.name, level)) (TrustLevel.join_untrusted w.level).symm

/-- One declaration of a variable. -/
theorem declare_withUses (h : a.WellFormed) (name : SlotName) (level : TrustLevel) :
    a.WithUses [.scalar name level] (a.declare name level).2 := by
  obtain ⟨hsubsections, hstrict, -⟩ := a.declare_rest name level
  refine .intro hstrict ?_ ?_ ?_ ?_
  · rcases h.coherent.declare_cases name level with ⟨v, hv, rfl, heq⟩ | ⟨hnew, heq⟩
    · have hmem : v.name ∈ a.scalars.map (·.name) :=
        List.mem_map_of_mem (List.mem_of_getElem? hv)
      have hknown : newNames (a.scalars.map (·.name))
          ((Use.scalars [.scalar v.name level]).map (·.1)) = [] :=
        newNames_eq_nil (by simpa [Use.scalars] using hmem)
      rw [heq, hknown, List.map_nil, List.append_nil]
      exact h.coherent.signatures_set hv level
    · have hothers : a.scalars.map Var.signature = a.scalars.map fun v =>
          (v.name, v.level ⊔ Use.required v.name [.scalar name level]) := by
        refine List.map_congr_left fun v hv => ?_
        have hne : v.name ≠ name := by
          rintro rfl
          exact hnew (List.mem_map_of_mem hv)
        rw [Use.required_of_ne hne]
        exact congrArg (Prod.mk v.name) (TrustLevel.join_untrusted v.level).symm
      have hnames : newNames (a.scalars.map (·.name))
          ((Use.scalars [.scalar name level]).map (·.1)) = [name] := newNames_singleton hnew
      rw [heq, ← hothers, hnames, List.map_append, List.map_singleton, List.map_singleton,
        Use.required_self]
      rfl
  · rw [hsubsections]
    exact (List.append_nil _).symm
  · intro i x y hx hy
    rw [hsubsections] at hy
    exact withUses_of_unused hx hy rfl
  · intro i y hle hy
    rw [hsubsections, List.getElem?_eq_none hle] at hy
    cases hy

end Schema

namespace Scope

open Schema

/-- One declaration of a subsection, and declarations in it. -/
theorem setChild_withUses {s : Scope} (h : s.schema.WellFormed) (name : SlotName)
    {uses : List Use} {inner : Schema} (hinner : (s.inside name).schema.WithUses uses inner) :
    s.schema.WithUses [.subsection name uses]
      ((s.declareSubsection name).2.schema.setChild (s.declareSubsection name).1.1 inner) := by
  have hself : Use.inside name [.subsection name uses] = uses := by
    simp [Use.inside]
  have hother : ∀ slot : SlotName, slot ≠ name → Use.inside slot [.subsection name uses] = [] := by
    intro slot hne
    exact Use.inside_of_not_mem (by simpa [Use.subsections] using hne)
  rw [inside] at hinner
  rcases declareSubsection_cases h.coherent name with ⟨sub, hsub, rfl, heq⟩ | ⟨sub, hnew, rfl, heq⟩
  · rw [heq] at hinner ⊢
    have hmem : sub.1.name ∈ s.schema.subsections.map (·.1.name) :=
      List.mem_map_of_mem (List.mem_of_getElem? hsub)
    refine .intro rfl (signatures_of_unused rfl) ?_ ?_ ?_
    · rw [newNames_eq_nil (by simpa [Use.subsections] using hmem), List.append_nil]
      exact map_names_set hsub rfl
    · intro i x y hx hy
      rcases getElem?_set_cases hy with ⟨rfl, rfl⟩ | ⟨hi, hy⟩
      · obtain rfl : sub = x := Option.some.inj (hsub.symm.trans hx)
        rwa [hself]
      · -- two subsections of one name would stand at one place
        have hne : y.1.name ≠ sub.1.name := by
          intro hname
          have hindex := (h.coherent.tag_at hy).1
          have hfind := h.coherent.find_subsection_eq_some_iff.mpr ⟨hsub, hname.symm⟩
          have hfind' := h.coherent.find_subsection_eq_some_iff.mpr ⟨hindex.symm ▸ hy, rfl⟩
          rw [hfind] at hfind'
          rw [Option.some.inj hfind'] at hi
          exact hi hindex
        exact withUses_of_unused hx hy (hother _ hne)
    · intro i y hle hy
      rw [setChild, List.getElem?_eq_none (by rwa [List.length_set])] at hy
      cases hy
  · rw [heq] at hinner ⊢
    have hset : ∀ (t : Tag) (c d : Schema), t.index = s.schema.subsections.length →
        (s.schema.subsections ++ [(t, c)]).set t.index (t, d) =
          s.schema.subsections ++ [(t, d)] := by
      intro t c d ht
      rw [ht, List.set_append_right _ _ (le_refl _), Nat.sub_self]
      rfl
    refine .intro rfl (signatures_of_unused rfl) ?_ ?_ ?_
    · rw [setChild, hset _ _ _ rfl, List.map_append]
      exact congrArg _ (newNames_singleton hnew).symm
    · intro i x y hx hy
      rw [setChild, hset _ _ _ rfl,
        List.getElem?_append_left (List.getElem?_eq_some_iff.mp hx).1] at hy
      refine withUses_of_unused hx hy (hother _ ?_)
      rintro rfl
      exact hnew (List.mem_map_of_mem (List.mem_of_getElem? hy))
    · intro i y hle hy
      rw [setChild, hset _ _ _ rfl] at hy
      rcases getElem?_concat_cases hy with hy | ⟨-, rfl⟩
      · rw [List.getElem?_eq_none hle] at hy
        cases hy
      · rw [hself]
        exact hinner.congr rfl rfl rfl

mutual

/-- What one declaration leaves. -/
theorem use_withUses {s : Scope} (h : s.schema.WellFormed) : ∀ u : Use,
    s.schema.WithUses [u] (s.use u).schema
  | .scalar name level => declare_withUses h name level
  | .subsection name uses =>
      setChild_withUses h name
        (useAll_withUses (s := s.inside name) (inside_wellFormed h name) uses)

/-- **What declarations leave** is the schema that they are made on, with them. -/
theorem useAll_withUses {s : Scope} (h : s.schema.WellFormed) : ∀ uses : List Use,
    s.schema.WithUses uses (s.useAll uses).schema
  | [] => .refl s.schema
  | u :: rest => (use_withUses h u).trans (useAll_withUses (use_wellFormed h u).1 rest)

end

end Scope

namespace Node

section

variable [UrlReader]

/-- **The schema of a template** is the one that was declared on, with the uses of the tree. -/
theorem compile_withUses {node : Node} {o : LayoutOptions} {scope : Scope} {t : Template}
    {next : ℕ} (hwf : scope.schema.WellFormed) (hcompile : node.compile o scope = (.ok t, next)) :
    scope.schema.WithUses node.uses t.schema := by
  obtain ⟨-, -, hschema⟩ := compile_eq_ok hcompile
  rw [hschema]
  exact Scope.useAll_withUses hwf node.uses

end

/-- A paragraph about an owner. Both alternatives of its switch use variables, and talents are
listed twice, by prototypes with different variables. -/
def account : Node :=
  .multi none
    [.element ⟨"p", [.ofName "data-owner" (.named "owner")], .block, false, false, none⟩
        [.text (.named "owner") none, .subsection "talents" (.text (.named "talent") none)],
      .switch [(.isSet "owner", some (.raw (.named "about")))] (some (.text (.named "note") none)),
      .subsection "talents" (.multi none [.raw (.named "badge"), .text (.named "talent") none])]

/-- A strict schema that has a variable of `account`, and another one in front of it. -/
def accountScope : Scope :=
  let declared := (Scope.newRoot 1).useAll
    [.scalar ⟨"title", by decide⟩ .untrusted, .scalar ⟨"owner", by decide⟩ .urlSafe]
  ⟨declared.schema.setStrict true, declared.next⟩

/-- What the template for `account` requires, of the whole page and of a talent. -/
theorem compile_withUses_account : ∃ t next, account.compile .tidy accountScope = (.ok t, next) ∧
    accountScope.schema.WithUses account.uses t.schema ∧
    t.schema.scalars.map (fun v => (v.name.text, v.level)) =
      [("title", .untrusted), ("owner", TrustLevel.urlSafe ⊔ .textSafe), ("about", .htmlSafe),
        ("note", .textSafe)] ∧
    t.schema.subsections.map (fun sub => sub.2.scalars.map fun v => (v.name.text, v.level)) =
      [[("talent", .textSafe), ("badge", .htmlSafe)]] := by
  have hrun : (account.compile .tidy accountScope).1.toOption.any (fun t =>
      decide (t.schema.scalars.map (fun v => (v.name.text, v.level)) =
          [("title", .untrusted), ("owner", TrustLevel.urlSafe ⊔ .textSafe), ("about", .htmlSafe),
            ("note", .textSafe)] ∧
        t.schema.subsections.map (fun sub => sub.2.scalars.map fun v => (v.name.text, v.level)) =
          [[("talent", .textSafe), ("badge", .htmlSafe)]])) = true := by
    decide +kernel
  have hwf : accountScope.schema.WellFormed :=
    Schema.setStrict_wellFormed (Scope.useAll_wellFormed (s := .newRoot 1)
      (Schema.wellFormed_of_empty rfl rfl) _).1 true
  rcases hcompile : account.compile .tidy accountScope with ⟨e | t, next⟩
  · rw [hcompile] at hrun
    cases hrun
  · rw [hcompile] at hrun
    have hrequired := of_decide_eq_true hrun
    exact ⟨t, next, rfl, compile_withUses hwf hcompile, hrequired.1, hrequired.2⟩

end Node

end TrustedHtml
