import Mathlib.Order.BoundedOrder.Lattice
import Mathlib.Order.WithBot
import TrustedHtml.Proofs.Uses

/-!
# What Schemas Require, by Name

A schema can be asked by name instead of by place: which level does it require of a variable,
at the end of a path of subsections, and is it strict there? The answers say nothing about the
identities of schemas or the order in which they were declared on, and they are all that
matters to arguments that are addressed by name.

A level that is asked for is `⊥` if there is no such variable, which is below all levels. So a
declaration only ever joins: `Scope.levelAt_useAll` says that **what is required after
declarations is the join of what was required before and of all that they require**.

## Main definitions

* `Schema.levelAt`, `Schema.strictAt?`: what is required at the end of a path.
* `Use.levelAt`, `Use.reaches`: what a declaration adds to it.
* `Schema.Linked`: subsections tell the identities of the schemas of their rows.

## Main results

* `Scope.useAll_wellFormed`, `Scope.useAll_linked`: declarations keep schemas in order.
* `Scope.levelAt_useAll`, `Scope.strictAt?_useAll`: what is required after declarations.
-/

namespace TrustedHtml

/-! ### Asking by name -/

namespace Schema

/-- The schema of the rows of the subsection of the given name. -/
def rows? (s : Schema) (name : String) : Option Schema :=
  (s.subsections.find? fun sub => sub.1.name.text == name).map (·.2)

/-- The level required of the variable of the given name; `⊥` if there is none. -/
def levelOf (s : Schema) (name : String) : WithBot TrustLevel :=
  match s.scalar? name with
  | some v => v.level
  | none => ⊥

/-- The level required of the variable `name` in the rows at the end of a path. -/
def levelAt (name : String) : List String → Schema → WithBot TrustLevel
  | [], s => s.levelOf name
  | sub :: path, s =>
      match s.rows? sub with
      | some child => levelAt name path child
      | none => ⊥

/-- Whether the schema of the rows at the end of a path is strict, if there is one. -/
def strictAt? : List String → Schema → Option Bool
  | [], s => some s.strict
  | sub :: path, s =>
      match s.rows? sub with
      | some child => strictAt? path child
      | none => none

/-- Every subsection tells the identity of the schema of its rows, at every level of nesting. -/
inductive Linked : Schema → Prop
  | intro {s : Schema} (ids : ∀ sub ∈ s.subsections, sub.1.child = sub.2.id)
      (children : ∀ sub ∈ s.subsections, Linked sub.2) : Linked s

end Schema

namespace Use

mutual

/-- The level that a declaration requires of the variable `name` at the end of a path. -/
def levelAt (name : String) : List String → Use → WithBot TrustLevel
  | [], .scalar slot level => if slot.text = name then level else ⊥
  | [], .subsection _ _ => ⊥
  | _ :: _, .scalar _ _ => ⊥
  | sub :: path, .subsection slot uses => if slot.text = sub then levelAtAll name path uses else ⊥

/-- The level that declarations together require. -/
def levelAtAll (name : String) (path : List String) : List Use → WithBot TrustLevel
  | [] => ⊥
  | u :: rest => levelAt name path u ⊔ levelAtAll name path rest

end

mutual

/-- Whether a declaration is of the subsection at the end of a path, or of one in it. -/
def reaches : List String → Use → Bool
  | _, .scalar _ _ => false
  | [], .subsection _ _ => false
  | sub :: path, .subsection slot uses =>
      slot.text = sub && (path.isEmpty || reachesAny path uses)

/-- Whether one of several declarations is. -/
def reachesAny (path : List String) : List Use → Bool
  | [] => false
  | u :: rest => reaches path u || reachesAny path rest

end

end Use

/-! ### Finding what was declared -/

/-- Replacing an entry by one of the same name changes what is found under that name, and
nothing else. -/
theorem find?_set_of_nodup {α : Type} (key : α → SlotName) {entries : List α} {i : ℕ} {a b : α}
    (hnodup : (entries.map key).Nodup) (ha : entries[i]? = some a) (hkey : key b = key a)
    (name : String) :
    (entries.set i b).find? (fun e => (key e).text == name) =
      if (key a).text = name then some b else entries.find? fun e => (key e).text == name := by
  induction entries generalizing i with
  | nil => cases ha
  | cons e rest ih =>
      rw [List.map_cons, List.nodup_cons] at hnodup
      cases i with
      | zero =>
          obtain rfl : e = a := Option.some.inj ha
          rw [List.set_cons_zero, List.find?_cons, List.find?_cons, hkey]
          by_cases hname : (key e).text = name
          · simp [hname]
          · simp [beq_eq_false_iff_ne.mpr hname, hname]
      | succ i =>
          rw [List.set_cons_succ, List.find?_cons, List.find?_cons, ih hnodup.2 ha]
          by_cases he : (key e).text = name
          · -- another entry of the name would be a second one
            have hne : (key a).text ≠ name := by
              rintro hname
              have hsame : key e = key a := SlotName.text_inj.mp (he.trans hname.symm)
              refine hnodup.1 ?_
              rw [hsame]
              exact List.mem_map_of_mem (List.mem_of_getElem? ha)
            simp [he, hne]
          · simp [beq_eq_false_iff_ne.mpr he]

namespace Schema

variable {s : Schema} {name : SlotName} {level : TrustLevel}

/-- The level of the variable that is found. -/
theorem levelOf_eq_coe_iff {name : String} :
    s.levelOf name = level ↔ ∃ v, s.scalar? name = some v ∧ v.level = level := by
  rw [levelOf]
  cases s.scalar? name with
  | none => simp
  | some v => simp

/-- There is no level of a variable that is not found. -/
theorem levelOf_eq_bot_iff {name : String} : s.levelOf name = ⊥ ↔ s.scalar? name = none := by
  rw [levelOf]
  cases s.scalar? name with
  | none => simp
  | some v => simp

/-- What is found under a name has that name. -/
theorem text_eq_of_scalar?_eq {name : String} {v : Var} (h : s.scalar? name = some v) :
    v.name.text = name := by
  rw [scalar?] at h
  have hname := List.find?_some h
  exact beq_iff_eq.mp hname

/-- Declaring a variable joins its level. -/
theorem levelOf_declare (h : s.WellFormed) (name : SlotName) (level : TrustLevel)
    (other : String) : (s.declare name level).2.levelOf other =
      s.levelOf other ⊔ if name.text = other then (level : WithBot TrustLevel) else ⊥ := by
  rcases h.coherent.declare_cases name level with ⟨v, hv, rfl, heq⟩ | ⟨hnew, heq⟩
  · have hfind := h.coherent.scalar?_eq_some_iff.mpr ⟨hv, rfl⟩
    have hset := find?_set_of_nodup (·.name) (b := { v with level := v.level ⊔ level })
      h.coherent.var_names hv rfl other
    rw [heq, levelOf, scalar?, hset]
    by_cases hname : v.name.text = other
    · rw [if_pos hname, if_pos hname, ← hname, levelOf, hfind]
      exact WithBot.coe_sup _ _
    · rw [if_neg hname, if_neg hname, sup_bot_eq]
      rfl
  · have hnone : s.scalar? name.text = none := find?_eq_none_of_new hnew
    rw [heq, levelOf, scalar?, List.find?_append]
    by_cases hname : name.text = other
    · subst hname
      rw [if_pos rfl, levelOf_eq_bot_iff.mpr hnone, bot_sup_eq]
      rw [scalar?] at hnone
      rw [hnone]
      simp
    · have hlast : List.find? (fun v : Var => v.name.text == other)
          [⟨s.scalars.length, name, level, some s.id⟩] = none := by
        simp [hname]
      rw [if_neg hname, sup_bot_eq, hlast, Option.or_none]
      rfl

/-- Declaring a variable leaves the subsections and the strictness as they are. -/
theorem declare_rest (s : Schema) (name : SlotName) (level : TrustLevel) :
    (s.declare name level).2.subsections = s.subsections ∧
      (s.declare name level).2.strict = s.strict ∧ (s.declare name level).2.id = s.id := by
  rw [declare]
  split <;> exact ⟨rfl, rfl, rfl⟩

/-- The schema of rows that is found is one of those there are. -/
theorem exists_mem_of_rows?_eq {child : Schema} {name : String} (h : s.rows? name = some child) :
    ∃ sub ∈ s.subsections, sub.1.name.text = name ∧ sub.2 = child := by
  rw [rows?, Option.map_eq_some_iff] at h
  obtain ⟨sub, hfind, rfl⟩ := h
  have hname := List.find?_some hfind
  exact ⟨sub, List.mem_of_find?_eq_some hfind, beq_iff_eq.mp hname, rfl⟩

/-- What is required of rows is required at the end of a longer path. -/
theorem levelAt_cons {child : Schema} {sub : String} (h : s.rows? sub = some child)
    (name : String) (path : List String) :
    s.levelAt name (sub :: path) = child.levelAt name path := by
  rw [levelAt, h]

/-- The strictness of rows is that at the end of a longer path. -/
theorem strictAt?_cons {child : Schema} {sub : String} (h : s.rows? sub = some child)
    (path : List String) : s.strictAt? (sub :: path) = child.strictAt? path := by
  rw [strictAt?, h]

/-- A new schema requires nothing of any variable. -/
theorem levelAt_of_empty (hs : s.scalars = []) (hsub : s.subsections = []) (name : String)
    (path : List String) : s.levelAt name path = ⊥ := by
  cases path with
  | nil => rw [levelAt, levelOf, scalar?, hs, List.find?_nil]
  | cons sub path => rw [levelAt, rows?, hsub, List.find?_nil, Option.map_none]

/-- A new schema has no subsections. -/
theorem strictAt?_of_empty (hsub : s.subsections = []) (path : List String) :
    s.strictAt? path = if path.isEmpty then some s.strict else none := by
  cases path with
  | nil => rfl
  | cons sub path => rw [strictAt?, rows?, hsub, List.find?_nil, Option.map_none]; rfl

/-- A new schema is linked. -/
theorem linked_of_empty (hsub : s.subsections = []) : s.Linked := by
  constructor <;> (rw [hsub]; exact fun _ hmem => absurd hmem List.not_mem_nil)

/-- Replacing the schema of rows by a linked one of the same identity keeps a schema linked. -/
theorem setChild_linked {t : Tag} {child : Schema} (h : s.Linked) (hchild : child.Linked)
    (hid : t.child = child.id) : (s.setChild t child).Linked := by
  obtain ⟨hids, hchildren⟩ := h
  refine .intro ?_ ?_
  · intro sub hmem
    rcases List.mem_or_eq_of_mem_set hmem with hmem | rfl
    · exact hids sub hmem
    · exact hid
  · intro sub hmem
    rcases List.mem_or_eq_of_mem_set hmem with hmem | rfl
    · exact hchildren sub hmem
    · exact hchild

end Schema

namespace Scope

variable {s : Scope}

/-- The schema of the rows of a subsection that has been declared is the one there was before,
or else a new one. -/
theorem rows?_eq_inside (h : s.schema.WellFormed) (name : SlotName) :
    s.schema.rows? name.text = some (s.inside name).schema ∨
      (s.schema.rows? name.text = none ∧ (s.inside name).schema.scalars = [] ∧
        (s.inside name).schema.subsections = [] ∧ (s.inside name).schema.strict = false) := by
  rw [inside]
  obtain ⟨sub, hsub, hname, heq⟩ | ⟨sub, hnew, rfl, heq⟩ :=
    declareSubsection_cases h.coherent name
  · left
    have hfind := h.coherent.find_subsection_eq_some_iff.mpr ⟨hsub, hname⟩
    rw [heq, Schema.rows?, hfind]
    rfl
  · right
    refine ⟨?_, by rw [heq], by rw [heq], by rw [heq]⟩
    rw [Schema.rows?, find?_eq_none_of_new hnew, Option.map_none]

/-- Declaring a subsection and working on the schema of its rows changes that schema, and
nothing else that can be asked for by name. -/
theorem rows?_setChild (h : s.schema.WellFormed) (name : SlotName) (child : Schema)
    (other : String) :
    let declared := s.declareSubsection name
    (declared.2.schema.setChild declared.1.1 child).rows? other =
      if name.text = other then some child else s.schema.rows? other := by
  have hwf := declareSubsection_wellFormed h name
  obtain ⟨hsub, hname⟩ := getElem?_declareSubsection h name
  have hset := find?_set_of_nodup (fun sub : Tag × Schema => sub.1.name)
    (b := ((s.declareSubsection name).1.1, child)) hwf.coherent.tag_names hsub rfl other
  simp only [Schema.rows?, Schema.setChild]
  rw [hset, hname]
  by_cases hother : name.text = other
  · rw [if_pos hother, if_pos hother]
    rfl
  · rw [if_neg hother, if_neg hother]
    rcases declareSubsection_cases h.coherent name with ⟨sub, -, -, heq⟩ | ⟨sub, -, rfl, heq⟩
    · rw [heq]
    · rw [heq, List.find?_append]
      simp [hother]

/-- Declaring a subsection leaves variables, strictness and identity as they are. -/
theorem declareSubsection_rest (s : Scope) (name : SlotName) :
    (s.declareSubsection name).2.schema.scalars = s.schema.scalars ∧
      (s.declareSubsection name).2.schema.strict = s.schema.strict ∧
      (s.declareSubsection name).2.schema.id = s.schema.id := by
  rw [declareSubsection]
  split <;> exact ⟨rfl, rfl, rfl⟩

/-! ### Declarations keep schemas in order -/

/-- The schema of the rows of a subsection that has been declared is well-formed. -/
theorem inside_wellFormed (h : s.schema.WellFormed) (name : SlotName) :
    (s.inside name).schema.WellFormed := by
  obtain ⟨hsub, -⟩ := getElem?_declareSubsection h name
  exact (declareSubsection_wellFormed h name).child (List.mem_of_getElem? hsub)

mutual

/-- A declaration keeps a schema well-formed and lets it grow. -/
theorem use_wellFormed {s : Scope} (h : s.schema.WellFormed) : ∀ u : Use,
    (s.use u).schema.WellFormed ∧ s.schema.Extends (s.use u).schema
  | .scalar name level =>
      ⟨Schema.declare_wellFormed h name level, Schema.extends_declare h name level⟩
  | .subsection name uses => by
      have hinner := useAll_wellFormed (s := s.inside name) (inside_wellFormed h name) uses
      exact Declaring.setChild_declareSubsection h name hinner.1 hinner.2

/-- Declarations keep a schema well-formed and let it grow. -/
theorem useAll_wellFormed {s : Scope} (h : s.schema.WellFormed) : ∀ uses : List Use,
    (s.useAll uses).schema.WellFormed ∧ s.schema.Extends (s.useAll uses).schema
  | [] => ⟨h, .refl _⟩
  | u :: rest => by
      have hfirst := use_wellFormed h u
      have hrest := useAll_wellFormed hfirst.1 rest
      exact ⟨hrest.1, hfirst.2.trans hrest.2⟩

end

/-- Declaring a subsection keeps a schema linked. -/
theorem declareSubsection_linked (h : s.schema.WellFormed) (hlinked : s.schema.Linked)
    (name : SlotName) : (s.declareSubsection name).2.schema.Linked := by
  obtain ⟨hids, hchildren⟩ := hlinked
  rcases declareSubsection_cases h.coherent name with ⟨sub, -, -, heq⟩ | ⟨sub, -, rfl, heq⟩
  · rw [heq]
    exact .intro hids hchildren
  · rw [heq]
    refine .intro ?_ ?_
    · intro sub hmem
      rcases List.mem_append.mp hmem with hmem | hmem
      · exact hids sub hmem
      · rw [List.mem_singleton.mp hmem]
    · intro sub hmem
      rcases List.mem_append.mp hmem with hmem | hmem
      · exact hchildren sub hmem
      · rw [List.mem_singleton.mp hmem]
        exact Schema.linked_of_empty rfl

/-- The schema of the rows of a subsection that has been declared is linked, under the identity
that its handle tells. -/
theorem inside_linked (h : s.schema.WellFormed) (hlinked : s.schema.Linked) (name : SlotName) :
    (s.inside name).schema.Linked ∧
      (s.declareSubsection name).1.1.child = (s.inside name).schema.id := by
  obtain ⟨hsub, -⟩ := getElem?_declareSubsection h name
  obtain ⟨hids, hchildren⟩ := declareSubsection_linked h hlinked name
  exact ⟨hchildren _ (List.mem_of_getElem? hsub), hids _ (List.mem_of_getElem? hsub)⟩

mutual

/-- A declaration keeps a schema linked. -/
theorem use_linked {s : Scope} (h : s.schema.WellFormed) (hlinked : s.schema.Linked) :
    ∀ u : Use, (s.use u).schema.Linked
  | .scalar name level => by
      obtain ⟨hids, hchildren⟩ := hlinked
      obtain ⟨hsub, -⟩ := s.schema.declare_rest name level
      rw [use]
      exact .intro (by rwa [hsub]) (by rwa [hsub])
  | .subsection name uses => by
      obtain ⟨hchild, hid⟩ := inside_linked h hlinked name
      have hinner := useAll_linked (s := s.inside name) (inside_wellFormed h name) hchild uses
      have hgrown := (useAll_wellFormed (s := s.inside name) (inside_wellFormed h name) uses).2
      rw [use]
      exact Schema.setChild_linked (declareSubsection_linked h hlinked name) hinner
        (hid.trans hgrown.id_eq.symm)

/-- Declarations keep a schema linked. -/
theorem useAll_linked {s : Scope} (h : s.schema.WellFormed) (hlinked : s.schema.Linked) :
    ∀ uses : List Use, (s.useAll uses).schema.Linked
  | [] => hlinked
  | u :: rest => useAll_linked (use_wellFormed h u).1 (use_linked h hlinked u) rest

end

/-! ### What is required after declarations -/

/-- What is required of the rows of a subsection that has been declared. -/
theorem levelAt_inside (h : s.schema.WellFormed) (slot : SlotName) (name : String)
    (path : List String) :
    (s.inside slot).schema.levelAt name path =
      s.schema.levelAt name (slot.text :: path) := by
  rcases rows?_eq_inside h slot with hrows | ⟨hrows, hscalars, hsubsections, -⟩
  · rw [Schema.levelAt_cons hrows]
  · rw [Schema.levelAt_of_empty hscalars hsubsections, Schema.levelAt, hrows]

/-- The strictness of the rows of a subsection that has been declared. -/
theorem strictAt?_inside (h : s.schema.WellFormed) (slot : SlotName) (path : List String) :
    (s.inside slot).schema.strictAt? path =
      (s.schema.strictAt? (slot.text :: path)).or
        (if path.isEmpty then some false else none) := by
  rcases rows?_eq_inside h slot with hrows | ⟨hrows, -, hsubsections, hstrict⟩
  · rw [Schema.strictAt?_cons hrows]
    cases path with
    | nil => rfl
    | cons sub path => exact (Option.or_none ..).symm
  · rw [Schema.strictAt?_of_empty hsubsections, hstrict, Schema.strictAt?, hrows]
    rfl

mutual

/-- **What is required after a declaration** is the join of what was required before and of what
it requires. -/
theorem levelAt_use {s : Scope} (h : s.schema.WellFormed) (name : String) :
    ∀ (path : List String) (u : Use),
      (s.use u).schema.levelAt name path = s.schema.levelAt name path ⊔ u.levelAt name path
  | [], .scalar slot level => Schema.levelOf_declare h slot level name
  | sub :: path, .scalar slot level => by
      rw [use, Schema.levelAt, Schema.rows?, (s.schema.declare_rest slot level).1, Use.levelAt,
        sup_bot_eq]
      rfl
  | [], .subsection slot uses => by
      rw [use, Use.levelAt, sup_bot_eq, Schema.levelAt, Schema.levelAt, Schema.levelOf,
        Schema.levelOf, Schema.scalar?, Schema.scalar?, Schema.setChild,
        (s.declareSubsection_rest slot).1]
  | sub :: path, .subsection slot uses => by
      rw [use, Schema.levelAt, rows?_setChild h, Use.levelAt]
      by_cases hsub : slot.text = sub
      · subst hsub
        rw [if_pos rfl, if_pos rfl, ← levelAt_inside h slot name path]
        exact levelAt_useAll (inside_wellFormed h slot) name path uses
      · rw [if_neg hsub, if_neg hsub, sup_bot_eq]
        rfl

/-- **What is required after declarations** is the join of what was required before and of all
that they require. -/
theorem levelAt_useAll {s : Scope} (h : s.schema.WellFormed) (name : String)
    (path : List String) : ∀ uses : List Use,
      (s.useAll uses).schema.levelAt name path =
        s.schema.levelAt name path ⊔ Use.levelAtAll name path uses
  | [] => by rw [useAll, Use.levelAtAll, sup_bot_eq]
  | u :: rest => by
      rw [useAll, levelAt_useAll (use_wellFormed h u).1 name path rest, levelAt_use h name path u,
        Use.levelAtAll, sup_assoc]

end

mutual

/-- A declaration leaves the strictness of schemas as it is; those that it adds are not strict. -/
theorem strictAt?_use {s : Scope} (h : s.schema.WellFormed) : ∀ (path : List String) (u : Use),
    (s.use u).schema.strictAt? path =
      (s.schema.strictAt? path).or (if u.reaches path then some false else none)
  | [], .scalar slot level => by
      rw [use, Schema.strictAt?, Schema.strictAt?, (s.schema.declare_rest slot level).2.1]
      rfl
  | sub :: path, .scalar slot level => by
      rw [use, Schema.strictAt?, Schema.rows?, (s.schema.declare_rest slot level).1, Use.reaches,
        if_neg Bool.false_ne_true, Option.or_none]
      rfl
  | [], .subsection slot uses => by
      rw [use, Schema.strictAt?, Schema.strictAt?, Schema.setChild,
        (s.declareSubsection_rest slot).2.1]
      rfl
  | sub :: path, .subsection slot uses => by
      rw [use, Schema.strictAt?, rows?_setChild h, Use.reaches]
      by_cases hsub : slot.text = sub
      · subst hsub
        rw [if_pos rfl, decide_eq_true rfl, Bool.true_and]
        have hinner := strictAt?_useAll (s := s.inside slot) (inside_wellFormed h slot) path uses
        refine hinner.trans ?_
        rw [strictAt?_inside h slot path, Option.or_assoc]
        cases path.isEmpty <;> simp
      · simp only [hsub, if_false, decide_false, Bool.false_and, Bool.false_eq_true, Option.or_none]
        rfl

/-- Declarations leave the strictness of schemas as it is; those that they add are not strict. -/
theorem strictAt?_useAll {s : Scope} (h : s.schema.WellFormed) (path : List String) :
    ∀ uses : List Use, (s.useAll uses).schema.strictAt? path =
      (s.schema.strictAt? path).or (if Use.reachesAny path uses then some false else none)
  | [] => by rw [useAll, Use.reachesAny, if_neg Bool.false_ne_true, Option.or_none]
  | u :: rest => by
      rw [useAll, strictAt?_useAll (use_wellFormed h u).1 path rest, strictAt?_use h path u,
        Use.reachesAny, Option.or_assoc]
      cases u.reaches path <;> simp

end

end Scope

end TrustedHtml
